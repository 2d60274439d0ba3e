import DeclGraph.Proofs.Graph.Admission
import DeclGraph.Proofs.Graph.Persistence

/-! No two elements are told apart by one key. Changes keep it so, unless they make placeholders. -/

namespace DeclGraph

open DeclGraph.Graph

/-- The key with other elements in it. -/
def Key.map (f : NodeId → NodeId) : Key → Key
  | .place k p name => .place k (p.map f) name
  | .edge k c p => .edge k (f c) (f p)
  | .residence c => .residence (f c)
  | .field c p name => .field (f c) (f p) name

namespace Graph

variable {P : Graph → Change → Prop} {g g' : Graph} {n m p old : NodeId} {r ro x y : Node}
  {key : Key} {change : Change}

/-- Elements are told apart by their keys. -/
structure Keyed (g : Graph) : Prop where
  unique : ∀ {m m' key}, g.Bears m key → g.Bears m' key → m = m'
  profile : g.kind? profilePackage = some .package

/-- A classifier is told apart by its place alone. -/
lemma fits_of_isClassifier (hc : r.kind.isClassifier = true) : g.Fits r key ↔
    key = .place .classType r.owner r.name ∧ r.owner ≠ some profilePackage := by
  cases key <;> revert hc <;> cases hr : r.kind <;>
    simp +contextual [Fits, Connects, NodeKind.isClassifier, NodeKind.family?, hr, eq_comm, and_assoc]

lemma reroute_reroute {new : NodeId} (h : m ≠ new) : reroute new old (reroute old new m) = m := by
  unfold reroute
  by_cases hm : m = old <;> simp [hm, h]

lemma redirect_eq_some {new : NodeId} {o : Option NodeId} (h : ∀ z, o = some z → z ≠ new)
    (hz : o.map (reroute old new) = some m) : o = some (reroute new old m) := by
  obtain ⟨z, rfl, rfl⟩ := Option.map_eq_some_iff.mp hz
  rw [reroute_reroute (h z rfl)]

lemma mem_redirect {new : NodeId} {ns : List NodeId} (h : ∀ z ∈ ns, z ≠ new)
    (hz : m ∈ ns.map (reroute old new)) : reroute new old m ∈ ns := by
  obtain ⟨z, hzs, rfl⟩ := List.mem_map.mp hz
  rwa [reroute_reroute (h z hzs)]

namespace Superseded

section

variable (h : g.Superseded old ro r g') (hg : g.Sound) (hold : g.node? old = some ro)
  (hco : ro.kind.isClassifier = true) (hc : r.kind.isClassifier = true) (hname : r.name = ro.name)
  (howner : r.owner = ro.owner) (hprofile : g.kind? profilePackage = some .package)

include h hg in
lemma marked_stay (hx : g.node? m = some x) (hst : y.stereotypes = x.stereotypes) {name : String}
    (hm : g'.Marked y name) : g.Marked x name := by
  obtain ⟨st, hst', z, hz, hzn⟩ := hm
  rw [hst] at hst'
  obtain ⟨z', hz', -, -, hb, -⟩ :=
    h.stays hz (ne_next (hg.live hx st (x.stereotypes_subset_links hst')))
  exact ⟨st, hst', z', hz', (Node.bare_congr hb).2.1 ▸ hzn⟩

include h hg hold hco hprofile in
/-- A record that stays fits what it fitted before, if the new element is taken for the old one. -/
lemma fits_stay (hx : g.node? m = some x) (hb : y.bare = (x.redirect old g.next).bare)
    (ho : y.owner = if x.owner = some old then some g.next else x.owner)
    (hf : g'.Fits y key) : g.Fits x (key.map (reroute g.next old)) := by
  obtain ⟨hk, hn, -, hge, hsp, hcl, hsu, hre, -, -, hst⟩ := Node.bare_congr hb
  have new : ∀ {z}, z ∈ x.links → z ≠ g.next := fun hz => ne_next (hg.live hx _ hz)
  simp only [Node.links, List.mem_append, Option.mem_toList] at new
  cases key with
  | place k p name =>
    obtain ⟨hkf, rfl, hname, hout⟩ := hf
    have howner : x.owner = y.owner.map (reroute g.next old) := by
      rw [ho]
      split_ifs with hxo
      · simp [hxo, reroute]
      · cases hxo' : x.owner with
        | none => rfl
        | some q => simp [reroute, new (z := q) (by tauto)]
    refine ⟨hk ▸ hkf, howner, hn ▸ hname, fun hkc hprof => ?_⟩
    rw [← howner] at hprof
    rw [ho, if_neg] at hout
    · exact hout hkc hprof
    · intro hxo
      obtain rfl := Option.some.inj (hxo.symm.trans hprof)
      rw [kind?_eq hold] at hprofile
      rw [Option.some.inj hprofile] at hco
      exact Bool.noConfusion hco
  | edge k c p =>
    obtain ⟨hkk, hconn⟩ := hf
    have hxk : x.kind = k := hk.symm.trans hkk
    refine ⟨hxk, ?_⟩
    unfold Connects at hconn ⊢
    rw [hkk] at hconn
    rw [hxk]
    cases k with
    | generalization =>
      rw [hsp, hge] at hconn
      exact ⟨redirect_eq_some (fun z hz => new (by tauto)) hconn.1,
        redirect_eq_some (fun z hz => new (by tauto)) hconn.2⟩
    | abstraction =>
      rw [hcl, hsu] at hconn
      exact ⟨mem_redirect (fun z hz => new (by tauto)) hconn.1,
        mem_redirect (fun z hz => new (by tauto)) hconn.2.1, h.marked_stay hg hx hst hconn.2.2⟩
    | dependency =>
      rw [hcl, hsu] at hconn
      exact ⟨mem_redirect (fun z hz => new (by tauto)) hconn.1,
        mem_redirect (fun z hz => new (by tauto)) hconn.2.1, h.marked_stay hg hx hst hconn.2.2⟩
    | _ => exact hconn
  | residence c =>
    obtain ⟨hkk, hres⟩ := hf
    rw [hre] at hres
    exact ⟨hk.symm.trans hkk, redirect_eq_some (fun z hz => new (by tauto)) hres⟩
  | field c p name => exact hf

include h hg hold hco hc hname howner hprofile in
/-- The keys there are were there before, if the new element is taken for the old one. -/
lemma bears (hm : g'.Bears m key) :
    g.Bears (reroute g.next old m) (key.map (reroute g.next old)) := by
  have stays : m ≠ g.next → reroute g.next old m = m := fun hm => if_neg hm
  cases hm with
  | record hy hf =>
    by_cases hmn : m = g.next
    · obtain ⟨rn, hrn, hno, hnk, hnn, -⟩ := h.new_record
      obtain rfl := Option.some.inj ((hmn ▸ hy).symm.trans hrn)
      obtain ⟨rfl, hout⟩ := (fits_of_isClassifier (hnk ▸ hc)).mp hf
      have howner' : ro.owner.map (reroute g.next old) = ro.owner := by
        cases ho : ro.owner with
        | none => rfl
        | some q => simp [reroute, ne_next (hg.owner_live hold ho)]
      rw [hmn, reroute, if_pos rfl]
      rw [hno, howner] at hout
      refine .record hold ((fits_of_isClassifier hco).mpr ⟨?_, hout⟩)
      simp only [Key.map, hno, howner, howner', hnn, hname]
    · obtain ⟨x, hx, -, -, hb, ho, -⟩ := h.stays hy hmn
      rw [stays hmn]
      exact .record hx (h.fits_stay hg hold hco hprofile hx hb ho hf)
  | @association e o c p name hs =>
    have hmn : m ≠ g.next := by
      rintro rfl
      have hk := hs.kind?
      rw [h.kind?_new] at hk
      rw [Option.some.inj hk] at hc
      exact Bool.noConfusion hc
    obtain ⟨e₀, o₀, c₀, p₀, name₀, hs₀⟩ := hg.spanned (h.kind?_old hmn hs.kind?)
    obtain ⟨-, -, rfl, rfl, rfl⟩ := hs.unique (hs₀.superseded h hg.toRegular hold hco)
    obtain ⟨_, hfar, hend⟩ := hs₀.far
    obtain ⟨_, hnear, hend'⟩ := hs₀.near
    have live : ∀ {z r}, g.node? z = some r → ∀ {t}, r.type = some t → t ≠ g.next :=
      fun hz _ ht => ne_next (hg.live hz _ (by simp [Node.links, ht]))
    rw [stays hmn, Key.map, reroute_reroute (live hnear hend'.type),
      reroute_reroute (live hfar hend.type)]
    exact .association hs₀

end

end Superseded

namespace Keyed

lemma of_admits (h : g.Keyed) (ha : g.Admits g') (hp : g'.kind? profilePackage = some .package) :
    g'.Keyed :=
  ⟨fun hm hm' => (ha hm hm').elim id fun ⟨hm, hm'⟩ => h.unique hm hm', hp⟩

lemma step (h : g.Keyed) (hg : g.Sound) (hs : g.Step change g') (hf : ∀ r, change ≠ .force r) :
    g'.Keyed := by
  have hp := hg.package_step hs h.profile rfl
  cases hs with
  | build _ _ _ ha => exact h.of_admits ha hp
  | move _ _ _ ha => exact h.of_admits ha hp
  | edit _ _ _ _ ha => exact h.of_admits ha hp
  | delete hr =>
    exact h.of_admits (hg.releases_remove
      (doomedWith_closed (isLive_of_node? hr) hg.toLinked)).admits hp
  | force => exact absurd rfl (hf _)
  | @supersede old ro r _ hold hco hc hn ho _ hs =>
    refine ⟨fun {m m' key} hm hm' => ?_, hp⟩
    have heq := h.unique (hs.bears hg hold hco hc hn ho h.profile hm)
      (hs.bears hg hold hco hc hn ho h.profile hm')
    have stays : ∀ {m key}, g'.Bears m key → m ≠ old := by
      rintro m key hm rfl
      obtain ⟨x, hx⟩ := isLive_iff.mp hm.isLive
      rw [hs.gone m (Or.inl rfl)] at hx
      exact absurd hx (by simp)
    unfold reroute at heq
    split_ifs at heq with h₁ h₂ h₂
    · rw [h₁, h₂]
    · exact absurd heq.symm (stays hm')
    · exact absurd heq (stays hm)
    · exact heq
  | associate ha hfree => exact h.of_admits (ha.admits hg hfree) hp

lemma steps (h : g.Keyed) (hg : g.Sound) (hs : Steps P g g') (hP : ∀ g r, ¬P g (.force r)) :
    g'.Keyed := by
  induction hs with
  | refl => exact h
  | step hs hPc hc ih =>
    refine ih.step (hg.steps hs) hc ?_
    rintro r rfl
    exact hP _ r hPc

end Keyed

end Graph

end DeclGraph
