import DeclGraph.Proofs.Graph.Persistence

/-! Where owners lead. The owners of all elements but residences lead up to the root or to the
profile package, whatever changes are made. -/

namespace DeclGraph

open DeclGraph.Graph

namespace Graph

variable {P : Graph → Change → Prop} {g g' : Graph} {n m p top : NodeId} {r x y : Node} {c : Change}

namespace Below

lemma trans (h : g.Below n m) (h' : g.Below m p) : g.Below n p := by
  induction h' with
  | self => exact h
  | part _ hr ho ih => exact ih.part hr ho

/-- What lies below an element still does so when the elements on the way keep their owners, apart
from new handles `f` for some of them. -/
lemma map {f : NodeId → NodeId} {q : NodeId → Prop} (h : g.Below n m) (hq : q m)
    (hstep : ∀ {c x p}, g.node? c = some x → x.owner = some p → q c →
      q p ∧ ∃ y, g'.node? (f c) = some y ∧ y.owner = some (f p)) : g'.Below (f n) (f m) := by
  induction h with
  | self => exact .self
  | part _ hr ho ih =>
    obtain ⟨hqp, y, hy, hyo⟩ := hstep hr ho hq
    exact (ih hqp).part hy hyo

end Below

/-- The owners of an element lead to the root or to the profile package. -/
def Founded (g : Graph) (n : NodeId) : Prop := g.Below root n ∨ g.Below profilePackage n

lemma Founded.part (h : g.Founded p) (hr : g.node? n = some r) (ho : r.owner = some p) :
    g.Founded n :=
  h.imp (fun h => h.part hr ho) fun h => h.part hr ho

/-- All elements but residences are founded, and no owner lies above the profile package. -/
structure Rooted (g : Graph) : Prop where
  profile : ∃ r, g.node? profilePackage = some r ∧ r.kind = .package ∧ r.owner = none
  founded : ∀ {n r}, g.node? n = some r → r.kind ≠ .elementResidence → g.Founded n

lemma Regular.root_owner (h : g.Regular) (hr : g.node? root = some r) : r.owner = none := by
  have hk : r.kind = .model := Option.some.inj ((kind?_eq hr).symm.trans h.root_kind)
  cases ho : r.owner with
  | none => rfl
  | some p =>
    obtain ⟨rp, -, hmay⟩ := h.mayOwn hr ho
    rw [hk] at hmay
    exact Bool.noConfusion hmay

namespace Rooted

/-- What owns something is founded. -/
lemma founded_owner (h : g.Rooted) (hp : g.isLive p = true) {k : NodeKind}
    (hmay : ∀ {kp}, g.kind? p = some kp → kp.mayOwn k = true) : g.Founded p := by
  obtain ⟨rp, hrp⟩ := isLive_iff.mp hp
  refine h.founded hrp fun hk => ?_
  have := hmay (kind?_eq hrp)
  rw [hk, NodeKind.mayOwn_elementResidence] at this
  exact Bool.noConfusion this

lemma built (h : g.Rooted) (ha : g.Addable r) (hb : g.Built r g') : g'.Rooted := by
  have old : ∀ {m}, g.Founded m → g'.Founded m := fun hm => by
    refine hm.imp (fun hm => ?_) fun hm => ?_ <;>
    · refine hm.map (f := id) (q := fun _ => True) trivial fun hx ho _ => ?_
      obtain ⟨y, hy, -, hyo⟩ := hb.old_bare hx
      exact ⟨trivial, y, hy, hyo.trans ho⟩
  constructor
  · obtain ⟨x, hx, hk, ho⟩ := h.profile
    obtain ⟨y, hy, hbare, hyo⟩ := hb.old_bare hx
    exact ⟨y, hy, (Node.bare_congr hbare).1.trans hk, hyo.trans ho⟩
  · intro m y hy hk
    rcases hb.cases_bare hy with ⟨rfl, rfl⟩ | ⟨x, hx, hbare, -⟩
    · obtain ⟨p, hp⟩ : ∃ p, y.owner = some p := by
        by_cases hpack : y.kind.isPackage = true
        · exact ha.package hpack
        · exact ha.proper.owned (by simp [NodeKind.isOwned, hpack, hk])
      have hpl := ha.live p (by simp [Node.links, hp])
      exact (old (h.founded_owner hpl (ha.proper.owner hp))).part hb.new_node hp
    · exact old (h.founded hx ((Node.bare_congr hbare).1 ▸ hk))

/-- An element that is moved takes along what lies below it, to an owner that does not. -/
lemma moved {home : NodeId} (h : g.Rooted) (hr : g.node? n = some r) (ha : g.Movable n r home)
    (hm : g.Moved n r (some home) g') : g'.Rooted := by
  have apart : ∀ {top m}, g.Below top m → ¬g.Below n m → g'.Below top m := fun hb hnot =>
    hb.map (f := id) (q := fun m => ¬g.Below n m) hnot fun {c x p} hx ho hc => by
      obtain ⟨y, hy, -, hyo⟩ := hm.old_bare hx
      have hcn : c ≠ n := by
        rintro rfl
        exact hc .self
      rw [if_neg hcn] at hyo
      exact ⟨fun hp => hc (hp.part hx ho), y, hy, hyo.trans ho⟩
  have along : ∀ {m}, g.Below n m → g'.Below n m := fun hb => by
    induction hb with
    | self => exact .self
    | @part p c x _ hx ho ih =>
      obtain ⟨y, hy, -, hyo⟩ := hm.old_bare hx
      split_ifs at hyo with hcn
      · exact hcn ▸ .self
      · exact ih.part hy (hyo.trans ho)
  have hhome : g'.Founded home :=
    (h.founded_owner ha.live ha.mayOwn).imp (apart · ha.apart) (apart · ha.apart)
  obtain ⟨y, hy, -, hyo⟩ := hm.old_bare hr
  rw [if_pos rfl] at hyo
  have hn : g'.Founded n := hhome.part hy hyo
  constructor
  · obtain ⟨x, hx, hk, ho⟩ := h.profile
    have hne : profilePackage ≠ n := by
      rintro rfl
      obtain rfl := Option.some.inj (hr.symm.trans hx)
      exact absurd ha.notPackage (by simp [hk, NodeKind.isPackage])
    obtain ⟨y, hy, hbare, hyo⟩ := hm.old_bare hx
    rw [if_neg hne] at hyo
    exact ⟨y, hy, (Node.bare_congr hbare).1.trans hk, hyo.trans ho⟩
  · intro m y hy hk
    obtain ⟨x, hx, hbare, -⟩ := hm.cases_bare hy
    by_cases hb : g.Below n m
    · exact hn.imp (·.trans (along hb)) (·.trans (along hb))
    · exact (h.founded hx ((Node.bare_congr hbare).1 ▸ hk)).imp (apart · hb) (apart · hb)

lemma edited (h : g.Rooted) (hr : g.node? n = some r) (ha : g.Editable r y) (he : g.Edited n y g') :
    g'.Rooted := by
  have old : ∀ {m x}, g.node? m = some x →
      ∃ z, g'.node? m = some z ∧ z.kind = x.kind ∧ z.owner = x.owner := by
    intro m x hx
    rw [he.node]
    split_ifs with hm
    · obtain rfl := Option.some.inj (hr.symm.trans (hm ▸ hx))
      exact ⟨y, rfl, ha.place.kind, ha.place.owner⟩
    · exact ⟨x, hx, rfl, rfl⟩
  have along : ∀ {top m}, g.Below top m → g'.Below top m := fun hb =>
    hb.map (f := id) (q := fun _ => True) trivial fun hx ho _ => by
      obtain ⟨z, hz, -, hzo⟩ := old hx
      exact ⟨trivial, z, hz, hzo.trans ho⟩
  constructor
  · obtain ⟨x, hx, hk, ho⟩ := h.profile
    obtain ⟨z, hz, hzk, hzo⟩ := old hx
    exact ⟨z, hz, hzk.trans hk, hzo.trans ho⟩
  · intro m z hz hk
    have hl : g.isLive m = true := by
      rw [he.node] at hz
      split_ifs at hz with hm
      exacts [hm ▸ isLive_of_node? hr, isLive_of_node? hz]
    obtain ⟨x, hx⟩ := isLive_iff.mp hl
    obtain ⟨z', hz', hzk, -⟩ := old hx
    obtain rfl := Option.some.inj (hz.symm.trans hz')
    exact (h.founded hx (hzk ▸ hk)).imp along along

/-- What stays keeps its owner. -/
lemma removed (h : g.Rooted) (hg : g.Sound) (hr : g.node? n = some r)
    (hk : r.kind.isPackage = false) : (g.remove (g.doomedWith n)).Rooted := by
  have hclosed := doomedWith_closed (isLive_of_node? hr) hg.toLinked
  have along : ∀ {top m}, g.Below top m → m ∉ g.doomedWith n →
      (g.remove (g.doomedWith n)).Below top m := fun hb hm =>
    hb.map (f := id) (q := (· ∉ g.doomedWith n)) hm fun hx ho hc =>
      ⟨fun hp => hc (doomed_of_owner hg.toLinked hclosed hx ho hp), _,
        node?_remove_eq_some.mpr ⟨hc, _, hx, rfl⟩, ho⟩
  constructor
  · obtain ⟨x, hx, hkx, ho⟩ := h.profile
    have hstep : g.Step (.delete n) (g.remove (g.doomedWith n)) := .delete hr hk
    have hp := hg.package_step hstep (kind?_eq hx) (by rw [hkx]; rfl)
    obtain ⟨y, hy, hky⟩ := kind?_eq_some.mp hp
    obtain ⟨-, x', hx', rfl⟩ := node?_remove_eq_some.mp hy
    obtain rfl := Option.some.inj (hx.symm.trans hx')
    exact ⟨_, hy, hkx, ho⟩
  · intro m y hy hky
    obtain ⟨hm, x, hx, rfl⟩ := node?_remove_eq_some.mp hy
    exact (h.founded hx hky).imp (along · hm) (along · hm)

/-- The new element takes the place of the old one on the way up. -/
lemma superseded {old : NodeId} {ro : Node} (h : g.Rooted) (hg : g.Sound)
    (hold : g.node? old = some ro) (hco : ro.kind.isClassifier = true)
    (howner : r.owner = ro.owner) (hs : g.Superseded old ro r g') : g'.Rooted := by
  let turn : NodeId → NodeId := fun n => if n = old then g.next else n
  have tag_kind : ∀ t ∈ ro.taggedValues, g.kind? t = some .taggedValue := fun t ht =>
    hg.kind?_taggedValue hold ht
  have not_tag : ∀ {p x c}, g.node? c = some x → x.owner = some p → p ∉ ro.taggedValues := by
    intro p x c hx ho hp
    have hmay := (hg.proper hx).owner ho (tag_kind p hp)
    rw [NodeKind.mayOwn_taggedValue] at hmay
    exact Bool.noConfusion hmay
  have package_stays : ∀ {p k}, g.kind? p = some k → k.isPackage = true → p ≠ old := by
    rintro p k hp hk rfl
    rw [← Option.some.inj ((kind?_eq hold).symm.trans hp),
      NodeKind.not_isPackage_of_isClassifier hco] at hk
    exact Bool.noConfusion hk
  have along : ∀ {top m}, g.Below top m → m ∉ ro.taggedValues → g'.Below (turn top) (turn m) :=
    fun hb hm => hb.map (f := turn) (q := (· ∉ ro.taggedValues)) hm fun {c x p} hx ho hc => by
      refine ⟨not_tag hx ho, ?_⟩
      by_cases hc' : c = old
      · subst hc'
        obtain rfl := Option.some.inj (hold.symm.trans hx)
        obtain ⟨rn, hn, hno, -⟩ := hs.new
        have hrn : rn.owner = some p := hno.trans (howner.trans ho)
        have hp : p ≠ c := by
          rintro rfl
          obtain ⟨y, hy⟩ := isLive_iff.mp (hs.coherent.owner_live hn hrn)
          rw [hs.gone p (Or.inl rfl)] at hy
          exact absurd hy (by simp)
        exact ⟨rn, by simpa only [turn, if_pos] using hn, by simpa only [turn, if_neg hp] using hrn⟩
      · obtain ⟨y, hy, -, hyo, -⟩ := hs.stay hx hc' hc
        refine ⟨y, by simpa only [turn, if_neg hc'] using hy, ?_⟩
        rw [hyo, ho]
        simp only [turn, Option.some.injEq]
        split_ifs <;> rfl
  have tops : turn root = root ∧ turn profilePackage = profilePackage := by
    obtain ⟨x, hx, hk, -⟩ := h.profile
    exact ⟨if_neg (package_stays hg.root_kind rfl),
      if_neg (package_stays (kind?_eq hx) (by rw [hk]; rfl))⟩
  have founded : ∀ {m}, g.Founded m → m ∉ ro.taggedValues → g'.Founded (turn m) := fun hf hm =>
    hf.imp (fun hb => tops.1 ▸ along hb hm) fun hb => tops.2 ▸ along hb hm
  constructor
  · obtain ⟨x, hx, hk, ho⟩ := h.profile
    have hne := package_stays (kind?_eq hx) (by rw [hk]; rfl)
    have htag : profilePackage ∉ ro.taggedValues := fun ht => by
      have hkt := tag_kind _ ht
      rw [kind?_eq hx, hk] at hkt
      exact absurd hkt (by simp)
    obtain ⟨y, hy, hb, hyo, -⟩ := hs.stay hx hne htag
    refine ⟨y, hy, (Node.bare_congr hb).1.trans hk, ?_⟩
    rw [hyo, ho, if_neg (by simp)]
  · intro m y hy hk
    by_cases hm : m = g.next
    · subst hm
      have hko : ro.kind ≠ .elementResidence := fun hko => by
        rw [hko] at hco
        exact Bool.noConfusion hco
      have hf := founded (h.founded hold hko) fun ht => by
        have hkt := tag_kind old ht
        rw [kind?_eq hold] at hkt
        rw [Option.some.inj hkt] at hco
        exact Bool.noConfusion hco
      simpa only [turn, if_pos] using hf
    · obtain ⟨x, hx, hmo, hmt, hb, -⟩ := hs.stays hy hm
      have hf := founded (h.founded hx ((Node.bare_congr hb).1 ▸ hk)) hmt
      simpa only [turn, if_neg hmo] using hf

/-- Every change leaves the elements rooted. -/
lemma step (h : g.Rooted) (hg : g.Sound) (hs : g.Step c g') : g'.Rooted := by
  cases hs with
  | build ha _ hb _ => exact h.built ha hb
  | move hr ha hm _ => exact h.moved hr ha hm
  | edit hr ha _ he _ => exact h.edited hr ha he
  | delete hr hk => exact h.removed hg hr hk
  | force ha hc _ hb hm =>
    exact (h.built ha hb).built (addable_mark hb.kind?_new
      (NodeKind.mayOwn_taggedValue_of_isClassifier hc)) hm
  | supersede hold hco _ _ howner _ hs => exact h.superseded hg hold hco howner hs
  | associate ha _ =>
    obtain ⟨_, _, _, _, hb₁, hb₂, hb₃⟩ := ha.built
    exact ((h.built ha.addable hb₁).built hb₂.addable hb₂.toBuilt).built hb₃.addable hb₃.toBuilt

lemma steps (h : g.Rooted) (hg : g.Sound) (hs : Steps P g g') : g'.Rooted := by
  induction hs with
  | refl => exact h
  | step hs _ hc ih => exact ih.step (hg.steps hs) hc

end Rooted

end Graph

end DeclGraph
