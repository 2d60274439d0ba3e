import DeclGraph.Proofs.Graph.Calls
import DeclGraph.Proofs.Graph.Removal
import DeclGraph.Proofs.Graph.Succession

/-! One element takes over from another: all references to the old one are turned to the new one,
which gets its parts and its stereotypes, and then the old one is deleted. Nothing goes with it but
its tagged values. -/

namespace DeclGraph

open DeclGraph.Graph

/-- A list with an element at its end, unless it has it already. -/
def appendNew (l : List NodeId) (a : NodeId) : List NodeId := if a ∈ l then l else l ++ [a]

lemma foldl_appendNew (base l : List NodeId) :
    l.foldl appendNew base = base ++ (l.filter (· ∉ base)).eraseDups := by
  induction l generalizing base with
  | nil => simp
  | cons a l ih =>
    rw [List.foldl_cons, ih, appendNew]
    split_ifs with ha
    · simp [ha]
    · have hsplit : l.filter (· ∉ base ++ [a]) = (l.filter (· ∉ base)).filter fun b => !b == a := by
        rw [List.filter_filter]
        refine List.filter_congr fun b _ => ?_
        simp [beq_eq_decide, and_comm]
      rw [hsplit, List.filter_cons_of_pos (by simpa using ha), List.eraseDups_cons,
        List.append_assoc, List.singleton_append]

namespace Node

/-- Records with the same fields apart from owner and parts are the same if they have the same
owner and the same parts. -/
lemma eq_of_bare {r r' : Node} (hb : r.bare = r'.bare) (ho : r.owner = r'.owner)
    (hc : ∀ s, r.children s = r'.children s) : r = r' := by
  have h₁ : r.owned = r'.owned := hc .owned
  have h₂ : r.features = r'.features := hc .features
  have h₃ : r.parameters = r'.parameters := hc .parameters
  have h₄ : r.connections = r'.connections := hc .connections
  have h₅ : r.taggedValues = r'.taggedValues := hc .taggedValues
  cases r
  cases r'
  simp only [bare, mk.injEq] at hb
  simp_all

lemma mem_links {r : Node} {y : NodeId} : y ∈ r.links ↔
    r.owner = some y ∨ y ∈ r.endpoints ∨ r.association = some y ∨ y ∈ r.stereotypes := by
  simp only [links, endpoints, List.mem_append, Option.mem_toList]
  tauto

/-- The record `x` of `m` when the elements `moved`, whose kinds are `kind?`, went over from `old` to
`new`, and `new` bears the stereotypes `sts`. -/
def handed (old new : NodeId) (kind? : NodeId → Option NodeKind) (moved sts : List NodeId)
    (m : NodeId) (x : Node) : Node :=
  let parts (s : Slot) : List NodeId :=
    if m = old then (x.children s).filter (· ∉ moved)
    else if m = new then x.children s ++ moved.filter fun c => (kind? c).any (·.slot = s)
    else x.children s
  { x with
    owner := if m ∈ moved then some new else x.owner
    stereotypes := if m = new then sts else x.stereotypes
    owned := parts .owned
    features := parts .features
    parameters := parts .parameters
    connections := parts .connections
    taggedValues := parts .taggedValues }

section handed

variable {old new m : NodeId} {kind? : NodeId → Option NodeKind} {moved sts : List NodeId} {x : Node}

@[simp] lemma kind_handed : (x.handed old new kind? moved sts m).kind = x.kind := rfl

@[simp] lemma owner_handed :
    (x.handed old new kind? moved sts m).owner = if m ∈ moved then some new else x.owner := rfl

lemma bare_handed : (x.handed old new kind? moved sts m).bare =
    (x.stereotyped (if m = new then sts else x.stereotypes)).bare := rfl

lemma children_handed (s : Slot) : (x.handed old new kind? moved sts m).children s =
    if m = old then (x.children s).filter (· ∉ moved)
    else if m = new then x.children s ++ moved.filter fun c => (kind? c).any (·.slot = s)
    else x.children s := by
  cases s <;> rfl

end handed

/-- The record `x` of `m` after `new` took over from `old`, whose record was `ro`. -/
def takenOver (x ro : Node) (old new m : NodeId) : Node :=
  let turn : NodeId → NodeId := fun n => if n = old then new else n
  { x with
    owner := x.owner.map turn
    type := x.type.map turn
    general := x.general.map turn
    specific := x.specific.map turn
    resident := x.resident.map turn
    container := x.container.map turn
    clients := x.clients.map turn
    suppliers := x.suppliers.map turn
    stereotypes := if m = new then
        x.stereotypes ++ (ro.stereotypes.filter (· ∉ x.stereotypes)).eraseDups
      else x.stereotypes
    owned := (if m = new then x.owned ++ ro.owned else x.owned).filter (· ≠ old)
    features := if m = new then x.features ++ ro.features else x.features
    parameters := if m = new then x.parameters ++ ro.parameters else x.parameters
    connections := if m = new then x.connections ++ ro.connections else x.connections }

end Node

namespace Graph

/-- What holds of a graph between the calls that change it. Records refer to live elements, and an
element is in the list of its owner that its kind selects, once, and in no other list. Stereotypes
are stereotypes, and ends belong to associations. -/
structure Represented (g : Graph) : Prop where
  intact : g.Intact
  count : ∀ {c rc p rp}, g.node? c = some rc → g.node? p = some rp → ∀ s,
    (rp.children s).count c = if rc.owner = some p ∧ s = rc.kind.slot then 1 else 0
  stereotype : ∀ {n r}, g.node? n = some r → ∀ st ∈ r.stereotypes, g.kind? st = some .stereotype
  association : ∀ {n r a}, g.node? n = some r → r.association = some a →
    g.kind? a = some .association

/-- Nothing is owned by a tagged value or refers to one. -/
def TagsApart (g : Graph) : Prop :=
  ∀ t, g.kind? t = some .taggedValue → ∀ n r, g.node? n = some r → t ∉ r.links

instance (g : Graph) : Decidable g.TagsApart :=
  decidable_of_iff (∀ e ∈ g.entries, ∀ t ∈ e.2.links, g.kind? t ≠ some .taggedValue)
    ⟨fun h t ht n r hr hin => h (n, r) (mem_entries.mpr hr) t hin ht,
      fun h e he t hin ht => h t ht e.1 e.2 (mem_entries.mp he) hin⟩

variable {g g' : Graph} {n m c old new : NodeId} {r ro rn rc x : Node} {moved sts : List NodeId}

namespace Represented

variable (h : g.Represented)
include h

lemma mem_children (hr : g.node? n = some r) (s : Slot) :
    c ∈ r.children s ↔ ∃ rc, g.node? c = some rc ∧ rc.owner = some n ∧ rc.kind.slot = s := by
  constructor
  · intro hc
    have href : c ∈ r.references := List.mem_append_right _ (Node.mem_parts.mpr ⟨s, hc⟩)
    obtain ⟨rc, hrc⟩ := isLive_iff.mp (h.intact hr c href)
    have hcount := h.count hrc hr s
    have hpos := List.count_pos_iff.mpr hc
    split_ifs at hcount with hplace
    · exact ⟨rc, hrc, hplace.1, hplace.2.symm⟩
    · omega
  · rintro ⟨rc, hrc, ho, rfl⟩
    apply List.count_pos_iff.mp
    rw [h.count hrc hr, if_pos ⟨ho, rfl⟩]
    exact Nat.one_pos

lemma nodup (hr : g.node? n = some r) (s : Slot) : (r.children s).Nodup := by
  refine List.nodup_iff_count_le_one.mpr fun c => ?_
  by_cases hc : c ∈ r.children s
  · obtain ⟨rc, hrc, -⟩ := (h.mem_children hr s).mp hc
    rw [h.count hrc hr]
    split_ifs <;> omega
  · rw [List.count_eq_zero_of_not_mem hc]
    omega

lemma kind?_tag (hr : g.node? n = some r) (ht : m ∈ r.taggedValues) :
    g.kind? m = some .taggedValue := by
  obtain ⟨x, hx, -, hslot⟩ := (h.mem_children hr .taggedValues).mp ht
  rw [kind?_eq hx]
  revert hslot
  cases x.kind <;> decide

end Represented

/-- The graphs that calls lead to are as they have to be, if the calls are given live handles and
leave ends in their associations. -/
lemma represented_applyAll (name : String) (profile : Profile) {calls : List Mutation}
    (h : Mutation.Admissible (.new name profile) calls) :
    (Mutation.applyAll calls (.new name profile)).Represented := by
  have hcoherent := (Mutation.grown_applyAll (coherent_new name profile) calls h).coherent
  have hsafe := (Call.safe_new name profile).run _ (Call.sparesEnds_of_admissible h)
  rw [Call.applyAll_changes] at hsafe
  constructor
  · exact hcoherent.intact
  · intro c rc p rp hc hp s
    split_ifs with hplace
    · refine List.count_eq_one_of_mem (hcoherent.nodup hp s) ((hcoherent.mem_children hp s c).mpr ?_)
      exact ⟨rc, hc, hplace.1, hplace.2.symm⟩
    · refine List.count_eq_zero_of_not_mem fun hin => hplace ?_
      obtain ⟨x, hx, ho, hs⟩ := (hcoherent.mem_children hp s c).mp hin
      obtain rfl := Option.some.inj (hc.symm.trans hx)
      exact ⟨ho, hs.symm⟩
  · intro n r hr st hst
    obtain ⟨x, hx, hk⟩ := hsafe.stocked.stereotype hr st hst
    rw [kind?_eq hx, hk]
  · intro n r a hr ha
    obtain ⟨-, ra, hra, hk, -⟩ := hsafe.moored.tied hr ha
    rw [kind?_eq hra, hk]

/-- `g'` is `g` after the elements `moved` went over from `old` to `new`, which bears the stereotypes
`sts`. -/
structure HandsOver (g : Graph) (old new : NodeId) (moved sts : List NodeId) (g' : Graph) :
    Prop where
  next : g'.next = g.next
  node : ∀ m, g'.node? m = (g.node? m).map (Node.handed old new g.kind? moved sts m)

namespace HandsOver

lemma isLive (h : g.HandsOver old new moved sts g') (m : NodeId) : g'.isLive m = g.isLive m :=
  isLive_congr h.node m

lemma start (hn : g.node? new = some rn) :
    g.HandsOver old new [] rn.stereotypes g := by
  refine ⟨rfl, fun m => ?_⟩
  cases hx : g.node? m with
  | none => rfl
  | some x =>
    refine congrArg some (Node.eq_of_bare ?_ ?_ fun s => ?_)
    · rw [Node.bare_handed]
      split_ifs with hm
      · subst hm
        obtain rfl := Option.some.inj (hx.symm.trans hn)
        rfl
      · rfl
    · simp
    · rw [Node.children_handed]
      split_ifs <;> simp

/-- One more part goes over. -/
lemma move (h : g.HandsOver old new moved sts g') (hg : g.Represented) (hc : g.node? c = some rc)
    (ho : rc.owner = some old) (hcm : c ∉ moved) (hn : g.isLive new = true) (hne : old ≠ new) :
    ∃ g'', GraphM.setNamespace c (some new) g' = .ok () g'' ∧
      g.HandsOver old new (moved ++ [c]) sts g'' := by
  let rc' := rc.handed old new g.kind? moved sts c
  have hc' : g'.node? c = some rc' := by rw [h.node, hc]; rfl
  have ho' : rc'.owner = some old := by rw [Node.owner_handed, if_neg hcm, ho]
  have hk' : rc'.kind = rc.kind := rfl
  have hlive : ∀ p, some new = some p → g'.isLive p = true := by
    rintro _ ⟨⟩
    rw [h.isLive, hn]
  obtain ⟨g'', hrun, hmoved⟩ := GraphM.setNamespace_ok hc' hlive
  refine ⟨g'', hrun, hmoved.next.trans h.next, fun m => ?_⟩
  rw [hmoved.node, h.node, Option.map_map]
  cases hx : g.node? m with
  | none => rfl
  | some x =>
    have hin : ∀ s, c ∈ x.children s ↔ m = old ∧ rc.kind.slot = s := by
      intro s
      rw [hg.mem_children hx, hc]
      simp [ho, eq_comm]
    refine congrArg some (Node.eq_of_bare ?_ ?_ fun s => ?_)
    · rw [Function.comp_apply, Node.bare_relocated]
      rfl
    · rw [Function.comp_apply, Node.owner_relocated, Node.owner_handed, Node.owner_handed]
      by_cases hmc : m = c <;> by_cases hmm : m ∈ moved <;> simp [hmc, hmm]
    · rw [Function.comp_apply]
      by_cases hs : s = rc'.kind.slot
      · subst hs
        rw [Node.children_relocated_slot, Node.children_handed, Node.children_handed, ho']
        by_cases hmo : m = old
        · subst hmo
          have hnd := (hg.nodup hx rc'.kind.slot).filter (· ∉ moved)
          simp only [if_true, Option.some.injEq, hne.symm, false_and, if_false,
            hnd.erase_eq_filter, List.filter_filter]
          refine List.filter_congr fun b _ => ?_
          simp [bne, beq_eq_decide, and_comm]
        · have hcx : c ∉ x.children rc'.kind.slot := fun hcx => hmo ((hin _).mp hcx).1
          by_cases hmn : m = new
          · subst hmn
            have hslot : (g.kind? c).any (·.slot = rc'.kind.slot) = true := by
              rw [kind?_eq hc]
              simp [hk']
            simp [hmo, Ne.symm hmo, hcx, hcm, hslot]
          · simp [hmo, hmn, Ne.symm hmo, Ne.symm hmn]
      · rw [Node.children_relocated_of_ne _ _ _ _ _ hs, Node.children_handed,
          Node.children_handed]
        have hcx : c ∉ x.children s := fun hcx => hs ((hin s).mp hcx).2.symm
        have hslot : (g.kind? c).any (·.slot = s) = false := by
          rw [kind?_eq hc]
          simp [← hk', Ne.symm hs]
        by_cases hmo : m = old
        · rw [if_pos hmo, if_pos hmo]
          refine List.filter_congr fun b hb => ?_
          have hbc : b ≠ c := fun hbc => hcx (hbc ▸ hb)
          simp [hbc]
        · simp [hmo, hslot]

/-- One more stereotype is added. -/
lemma adorn (h : g.HandsOver old new moved sts g') {st : NodeId}
    (hst : g.kind? st = some .stereotype) (hn : g.isLive new = true) :
    ∃ g'', GraphM.addStereotype new st g' = .ok () g'' ∧
      g.HandsOver old new moved (appendNew sts st) g'' := by
  obtain ⟨rs, hrs, hks⟩ := kind?_eq_some.mp hst
  let f : Node → Node := fun r =>
    if st ∈ r.stereotypes then r else { r with stereotypes := r.stereotypes ++ [st] }
  refine ⟨g'.modify new f, ?_, (next_modify _ _).trans h.next, fun m => ?_⟩
  · rw [GraphM.addStereotype_run, h.node, hrs]
    simp only [Option.map_some, Node.kind_handed, hks, if_true]
    exact GraphM.update_ok f ((h.isLive new).trans hn)
  · rw [node?_modify, h.node]
    cases g.node? m with
    | none => split_ifs <;> rfl
    | some x =>
      split_ifs with hm
      · subst hm
        by_cases hin : st ∈ sts <;> simp [f, Node.handed, appendNew, hin]
      · simp [Node.handed, hm]

end HandsOver

/-- The moved parts in one list. -/
lemma Represented.filter_movedParts (h : g.Represented) (hold : g.node? old = some ro) (s : Slot) :
    ((movedParts ro).filter fun c => (g.kind? c).any (·.slot = s)) =
      if s = .taggedValues then [] else ro.children s := by
  have hlist (t : Slot) : ((ro.children t).filter fun c => (g.kind? c).any (·.slot = s)) =
      if t = s then ro.children t else [] := by
    have hslot : ∀ c ∈ ro.children t, (g.kind? c).any (·.slot = s) = decide (t = s) := by
      intro c hc
      obtain ⟨x, hx, -, rfl⟩ := (h.mem_children hold t).mp hc
      rw [kind?_eq hx]
      rfl
    rw [List.filter_congr hslot]
    by_cases hts : t = s <;> simp [hts]
  rw [movedParts, List.filter_flatMap]
  simp only [hlist]
  cases s <;> simp [GraphM.movedSlots]

lemma Represented.nodup_movedParts (h : g.Represented) (hold : g.node? old = some ro) :
    (movedParts ro).Nodup := by
  refine List.nodup_flatMap.mpr ⟨fun s _ => h.nodup hold s, ?_⟩
  have hslots : GraphM.movedSlots.Nodup := by decide
  refine hslots.imp fun {s t} hst => ?_
  intro c hs ht
  obtain ⟨x, hx, -, rfl⟩ := (h.mem_children hold s).mp hs
  obtain ⟨y, hy, -, rfl⟩ := (h.mem_children hold t).mp ht
  obtain rfl := Option.some.inj (hx.symm.trans hy)
  exact hst rfl

/-- Turning references keeps a graph as it has to be. -/
lemma Represented.turned (h : g.Represented) (hn : g.isLive new = true) :
    (g.turned old new).Represented := by
  have back : ∀ {m y}, (g.turned old new).node? m = some y → ∃ x, g.node? m = some x ∧
      (y = x ∨ y = x.redirect old new) := by
    intro m y hy
    rw [Graph.turned, node?_mapNodes] at hy
    obtain ⟨x, hx, rfl⟩ := Option.map_eq_some_iff.mp hy
    refine ⟨x, hx, ?_⟩
    split_ifs
    exacts [Or.inl rfl, Or.inr rfl]
  have hlive : ∀ m, (g.turned old new).isLive m = g.isLive m := isLive_congr (node?_mapNodes _)
  have hparts : ∀ (x : Node) s, (x.redirect old new).children s = x.children s := by
    intro x s
    cases s <;> rfl
  refine ⟨?_, ?_, ?_, ?_⟩
  · intro m y hy z hz
    rw [hlive]
    obtain ⟨x, hx, rfl | rfl⟩ := back hy
    · exact h.intact hx z hz
    · rcases List.mem_append.mp hz with hz | hz
      · rcases mem_links_redirect hz with hz | rfl
        · exact h.intact hx z (List.mem_append_left _ hz)
        · exact hn
      · exact h.intact hx z (List.mem_append_right _ hz)
  · intro c yc p yp hc hp s
    obtain ⟨xc, hxc, hyc⟩ := back hc
    obtain ⟨xp, hxp, hyp⟩ := back hp
    have hcount := h.count hxc hxp s
    rcases hyc with rfl | rfl <;> rcases hyp with rfl | rfl <;>
      (try rw [hparts]) <;> exact hcount
  · intro m y hy st hst
    rw [kind?_turned]
    obtain ⟨x, hx, rfl | rfl⟩ := back hy <;> exact h.stereotype hx st hst
  · intro m y a hy ha
    rw [kind?_turned]
    obtain ⟨x, hx, rfl | rfl⟩ := back hy <;> exact h.association hx ha

end Graph

namespace Ends

variable {ε σ α : Type} {E : σ → Prop}

/-- A loop that keeps track of what it has done and what is left. -/
lemma loop_through {P : List α → σ → Prop} {f : α → PUnit → EStateM ε σ (ForInStep PUnit)}
    (xs : List α) (hf : ∀ done a left s, xs = done ++ a :: left → P done s →
      Ends (f a ⟨⟩ s) (fun step t => step = .yield ⟨⟩ ∧ P (done ++ [a]) t) E)
    {s : σ} (hs : P [] s) :
    Ends ((forIn xs PUnit.unit f : EStateM ε σ PUnit) s) (fun _ => P xs) E := by
  have rest : ∀ left done s, xs = done ++ left → P done s →
      Ends ((forIn left PUnit.unit f : EStateM ε σ PUnit) s) (fun _ => P xs) E := by
    intro left
    induction left with
    | nil =>
      intro done s hxs hs
      rw [List.append_nil] at hxs
      subst hxs
      exact hs
    | cons a left ih =>
      intro done s hxs hs
      rw [List.forIn_cons]
      refine bind (hf done a left s hxs hs) ?_
      rintro _ t ⟨rfl, ht⟩
      exact ih (done ++ [a]) t (by simp [hxs]) ht
  exact rest xs [] s rfl hs

end Ends

namespace Graph

variable {g g' : Graph} {n m c old new : NodeId} {r ro rn rc x : Node} {moved sts : List NodeId}

/-- Everything goes over in the order in which it is listed. -/
lemma Represented.replaceReferences (h : g.Represented) (hold : g.node? old = some ro)
    (hnew : g.node? new = some rn) (hne : old ≠ new) :
    ∃ g', GraphM.replaceReferences old new g = .ok () g' ∧
      (g.turned old new).HandsOver old new (movedParts ro)
        (ro.stereotypes.foldl appendNew rn.stereotypes) g' := by
  have hn := isLive_of_node? hnew
  have ht : (g.turned old new).Represented := h.turned hn
  have hn' : (g.turned old new).isLive new = true := (isLive_congr (node?_mapNodes _) new).trans hn
  have hnew' : (g.turned old new).node? new = some (rn.redirect old new) := by
    rw [node?_turned hnew, if_neg hne.symm]
  have hstart : (g.turned old new).HandsOver old new [] (rn.redirect old new).stereotypes
      (g.turned old new) := .start hnew'
  have hpart : ∀ c ∈ movedParts ro,
      ∃ rc, (g.turned old new).node? c = some rc ∧ rc.owner = some old := by
    intro c hc
    obtain ⟨s, -, hs⟩ := mem_movedParts.mp hc
    obtain ⟨rc, hrc, ho, -⟩ := (h.mem_children hold s).mp hs
    refine ⟨_, node?_turned hrc, ?_⟩
    split_ifs <;> exact ho
  have hnodup := h.nodup_movedParts hold
  suffices Ends (GraphM.replaceReferences old new g) (fun _ => (g.turned old new).HandsOver old new
      (movedParts ro) (ro.stereotypes.foldl appendNew rn.stereotypes)) fun _ => False by
    obtain ⟨⟨⟩, g', hrun, hg'⟩ := this.total
    exact ⟨g', hrun, hg'⟩
  unfold GraphM.replaceReferences
  refine Ends.bind_ok (GraphM.get_ok hold) (Ends.bind_ok (GraphM.get_ok hnew) ?_)
  refine Ends.bind_ok (GraphM.modify_run _ _) (Ends.bind (Q := fun _ =>
    (g.turned old new).HandsOver old new (movedParts ro) rn.stereotypes) ?_ fun _ g₂ h₂ => ?_)
  · -- The elements moved so far are the lists done and the part done of the present one.
    refine Ends.loop_through (P := fun slots => (g.turned old new).HandsOver old new
      (slots.flatMap ro.children) rn.stereotypes) GraphM.movedSlots ?_ hstart
    intro slots slot slots' g₁ hslots h₁
    refine Ends.bind (Q := fun _ => (g.turned old new).HandsOver old new
      (slots.flatMap ro.children ++ ro.children slot) rn.stereotypes) ?_ fun _ g₂ h₂ => ?_
    · refine Ends.loop_through (P := fun parts => (g.turned old new).HandsOver old new
        (slots.flatMap ro.children ++ parts) rn.stereotypes) (ro.children slot) ?_
        (by simpa using h₁)
      intro parts c parts' g₁ hparts h₁
      have hall : movedParts ro = (slots.flatMap ro.children ++ parts) ++
          c :: (parts' ++ slots'.flatMap ro.children) := by
        rw [movedParts, hslots, List.flatMap_append, List.flatMap_cons, hparts]
        simp only [List.append_assoc, List.cons_append]
      rw [hall] at hnodup hpart
      obtain ⟨rc, hrc, ho⟩ := hpart c (by simp)
      have hcm : c ∉ slots.flatMap ro.children ++ parts := fun hc =>
        (List.disjoint_of_nodup_append hnodup) hc (by simp)
      obtain ⟨g₂, hrun, h₂⟩ := h₁.move ht hrc ho hcm hn' hne
      refine Ends.bind_ok hrun (Ends.answer ⟨rfl, ?_⟩)
      rwa [List.append_assoc] at h₂
    · refine Ends.answer ⟨rfl, ?_⟩
      simpa only [List.flatMap_append, List.flatMap_cons, List.flatMap_nil, List.append_nil] using h₂
  · refine Ends.bind (Q := fun _ => (g.turned old new).HandsOver old new (movedParts ro)
      (ro.stereotypes.foldl appendNew rn.stereotypes)) ?_ fun _ _ h₃ => Ends.answer h₃
    refine Ends.loop_through (P := fun sts => (g.turned old new).HandsOver old new (movedParts ro)
      (sts.foldl appendNew rn.stereotypes)) ro.stereotypes ?_ h₂
    intro sts st sts' g₁ hsts h₁
    have hst : (g.turned old new).kind? st = some .stereotype := by
      rw [kind?_turned]
      exact h.stereotype hold st (by simp [hsts])
    obtain ⟨g₂, hrun, h₂⟩ := h₁.adorn hst hn'
    refine Ends.bind_ok hrun (Ends.answer ⟨rfl, ?_⟩)
    rwa [List.foldl_append]

section deletion

variable (h : g.Represented) (htags : g.TagsApart) (hold : g.node? old = some ro)
  (hnew : g.node? new = some rn) (hco : ro.kind.isClassifier = true)
  (hcn : rn.kind.isClassifier = true) (hne : old ≠ new)
  (hd : (g.turned old new).HandsOver old new (movedParts ro)
    (ro.stereotypes.foldl appendNew rn.stereotypes) g')

include hd in
lemma isLive_handsOver (m : NodeId) : g'.isLive m = g.isLive m :=
  (hd.isLive m).trans (isLive_congr (node?_mapNodes _) m)

include hd in
lemma node?_handsOver (hx : g.node? m = some x) : g'.node? m =
    some ((if m = old then x else x.redirect old new).handed old new g.kind? (movedParts ro)
      (ro.stereotypes.foldl appendNew rn.stereotypes) m) := by
  have hkind : (g.turned old new).kind? = g.kind? := funext kind?_turned
  rw [hd.node, node?_turned hx, hkind]
  rfl

include h hold in
/-- The parts of an element once everything went over. -/
lemma children_handsOver (hx : g.node? m = some x) (s : Slot) :
    ((if m = old then x else x.redirect old new).handed old new g.kind? (movedParts ro) sts m).children
      s = if m = old then (if s = .taggedValues then ro.children s else [])
        else if m = new then x.children s ++ (if s = .taggedValues then [] else ro.children s)
        else x.children s := by
  rw [Node.children_handed, h.filter_movedParts hold]
  by_cases hm : m = old
  · subst hm
    obtain rfl := Option.some.inj (hx.symm.trans hold)
    simp only [if_true]
    split_ifs with hs
    · refine List.filter_eq_self.mpr fun c hc => ?_
      obtain ⟨y, hy, -, hslot⟩ := (h.mem_children hold s).mp hc
      simp [mem_movedParts_iff (fun s _ => h.mem_children hold s) hy, hslot, hs]
    · refine List.filter_eq_nil_iff.mpr fun c hc => ?_
      simp [mem_movedParts.mpr ⟨s, hs, hc⟩]
  · have hparts : (x.redirect old new).children s = x.children s := by cases s <;> rfl
    simp only [if_neg hm, hparts]

include h hold in
/-- Stereotypes and classifiers are no tagged values. -/
lemma not_mem_tags {k : NodeKind} (hm : g.kind? m = some k) (hk : k ≠ .taggedValue) :
    m ∉ ro.taggedValues :=
  fun hmt => hk (Option.some.inj (hm.symm.trans (h.kind?_tag hold hmt)))

include h hold hco in
/-- A classifier is in no list but that of what is owned. -/
lemma not_mem_children_of_classifier {n : NodeId} {r : Node} {s : Slot} (hr : g.node? n = some r)
    (hs : s ≠ .owned) : old ∉ r.children s := by
  intro hor
  obtain ⟨x, hx, -, rfl⟩ := (h.mem_children hr s).mp hor
  obtain rfl := Option.some.inj (hold.symm.trans hx)
  exact hs (NodeKind.slot_of_isClassifier hco)

include h hold hd in
/-- The owner of what stays, after everything went over. -/
lemma owner_takeover (hx : g.node? m = some x) (hm : m ≠ old) (hmt : m ∉ ro.taggedValues)
    {y : Node} (hy : g'.node? m = some y) : y.owner = (x.takenOver ro old new m).owner := by
  rw [node?_handsOver hd hx, if_neg hm] at hy
  obtain rfl := Option.some.inj hy
  have hmoved := mem_movedParts_iff (fun s _ => h.mem_children hold s) hx
  have htag := mem_tags_iff (fun s _ => h.mem_children hold s) hx
  change (if m ∈ movedParts ro then some new else x.owner) =
    x.owner.map fun n => if n = old then new else n
  by_cases ho : x.owner = some old
  · have hslot : x.kind.slot ≠ .taggedValues := fun hs => hmt (htag.mpr ⟨ho, hs⟩)
    rw [if_pos (hmoved.mpr ⟨ho, hslot⟩), ho, Option.map_some, if_pos rfl]
  · rw [if_neg fun hm => ho (hmoved.mp hm).1]
    cases hxo : x.owner with
    | none => rfl
    | some p =>
      have hp : p ≠ old := fun hp => ho (hp ▸ hxo)
      simp [hp]

include h htags hold hnew hco hcn hne hd

/-- Nothing that stays refers to what is to go. -/
lemma clear_handsOver (hm : m ≠ old) {y : Node} (hy : g'.node? m = some y) {z : NodeId}
    (hz : z ∈ y.endpoints ++ y.stereotypes) : z ≠ old ∧ z ∉ ro.taggedValues := by
  have hcls : ∀ {k : NodeKind}, k.isClassifier = true → k ≠ .stereotype ∧ k ≠ .taggedValue := by
    rintro k hk
    constructor <;> rintro rfl <;> exact absurd hk (by decide)
  have hst : ∀ z, g.kind? z = some .stereotype → z ≠ old ∧ z ∉ ro.taggedValues := by
    intro z hz
    refine ⟨?_, not_mem_tags h hold hz (by decide)⟩
    rintro rfl
    rw [kind?_eq hold] at hz
    exact (hcls hco).1 (Option.some.inj hz)
  obtain ⟨x, hx⟩ := isLive_iff.mp ((isLive_handsOver hd m).symm.trans (isLive_of_node? hy))
  rw [node?_handsOver hd hx, if_neg hm] at hy
  obtain rfl := Option.some.inj hy
  rcases List.mem_append.mp hz with hz | hz
  · rcases endpoints_redirect hz with ⟨hzx, hzo⟩ | rfl
    · refine ⟨hzo, fun ht => ?_⟩
      exact htags z (h.kind?_tag hold ht) m x hx (x.endpoints_subset_links hzx)
    · exact ⟨hne.symm, not_mem_tags h hold (kind?_eq hnew) (hcls hcn).2⟩
  · apply hst z
    change z ∈ (if m = new then ro.stereotypes.foldl appendNew rn.stereotypes
      else x.stereotypes) at hz
    split_ifs at hz
    · rw [foldl_appendNew, List.mem_append, List.mem_eraseDups, List.mem_filter] at hz
      rcases hz with hz | hz
      · exact h.stereotype hnew z hz
      · exact h.stereotype hold z hz.1
    · exact h.stereotype hx z hz

/-- What goes with `old` is `old` itself and its tagged values. -/
lemma mem_doomedWith_handsOver :
    m ∈ g'.doomedWith old ↔ m = old ∨ m ∈ ro.taggedValues := by
  have hlive : g'.isLive old = true := (isLive_handsOver hd old).trans (isLive_of_node? hold)
  have hold' := node?_handsOver hd hold
  have clear : ∀ {e y z}, g'.node? e = some y → y.kind.isClassifier = false →
      z ∈ y.endpoints → ¬(z = old ∨ z ∈ ro.taggedValues) := by
    intro e y z hy hk hz
    have he : e ≠ old := by
      rintro rfl
      obtain rfl := Option.some.inj (hold'.symm.trans hy)
      rw [Node.kind_handed, if_pos rfl, hco] at hk
      exact Bool.noConfusion hk
    rw [not_or]
    exact clear_handsOver h htags hold hnew hco hcn hne hd he hy (List.mem_append_left _ hz)
  constructor
  · refine doomedWith_subset (X := fun m => m = old ∨ m ∈ ro.taggedValues) ?_ (Or.inl rfl)
    refine .of_clear ?_ ?_ fun e y hy hk z hz => clear hy hk hz
    · intro p y c hp hy hc
      obtain ⟨s, hs⟩ := Node.mem_parts.mp hc
      obtain ⟨x, hx⟩ := isLive_iff.mp ((isLive_handsOver hd p).symm.trans (isLive_of_node? hy))
      rw [node?_handsOver hd hx] at hy
      obtain rfl := Option.some.inj hy
      rw [children_handsOver h hold hx] at hs
      rcases hp with rfl | ht
      · rw [if_pos rfl] at hs
        split_ifs at hs with hslot
        · exact Or.inr (by rwa [hslot] at hs)
        · exact absurd hs (by simp)
      · have hk := h.kind?_tag hold ht
        have hpo : p ≠ old := by
          rintro rfl
          rw [kind?_eq hold] at hk
          rw [Option.some.inj hk] at hco
          exact absurd hco (by decide)
        have hpn : p ≠ new := by
          rintro rfl
          rw [kind?_eq hnew] at hk
          rw [Option.some.inj hk] at hcn
          exact absurd hcn (by decide)
        rw [if_neg hpo, if_neg hpn] at hs
        obtain ⟨xc, hxc, ho, -⟩ := (h.mem_children hx s).mp hs
        exact absurd (by simp [Node.links, ho]) (htags p hk c xc hxc)
    · intro e y he hy hk
      obtain ⟨x, hx⟩ := isLive_iff.mp ((isLive_handsOver hd e).symm.trans (isLive_of_node? hy))
      have hkx : x.kind = .associationEnd := by
        rw [node?_handsOver hd hx] at hy
        obtain rfl := Option.some.inj hy
        rw [← hk, Node.kind_handed]
        split_ifs <;> rfl
      rcases he with rfl | ht
      · obtain rfl := Option.some.inj (hold.symm.trans hx)
        rw [hkx] at hco
        exact absurd hco (by decide)
      · have := h.kind?_tag hold ht
        rw [kind?_eq hx, hkx] at this
        exact absurd this (by decide)
  · rintro (rfl | ht)
    · exact self_mem_doomedWith hlive
    · have hm : g'.isLive m = true := (isLive_handsOver hd m).trans
        (isLive_of_kind? (h.kind?_tag hold ht))
      refine withParts_doomedWith old (self_mem_doomedWith hlive) m ?_ hm
      refine mem_partsOf.mpr ⟨_, hold', mem_dependentParts.mpr (Or.inl (Node.mem_parts.mpr ?_))⟩
      refine ⟨.taggedValues, ?_⟩
      rw [children_handsOver h hold hold, if_pos rfl, if_pos rfl]
      exact ht

/-- The parts of what stays, after the deletion. -/
lemma children_takeover (hx : g.node? m = some x) (hm : m ≠ old) {y : Node}
    (hy : g'.node? m = some y) (s : Slot) :
    (y.forget (g'.doomedWith old)).children s =
      ((if m = new then x.children s ++ (if s = .taggedValues then [] else ro.children s)
        else x.children s).filter (· ≠ old)) := by
  have doomed := fun c => mem_doomedWith_handsOver h htags hold hnew hco hcn hne hd (m := c)
  rw [node?_handsOver hd hx] at hy
  obtain rfl := Option.some.inj hy
  rw [Node.children_forget, children_handsOver h hold hx, if_neg hm]
  refine List.filter_congr fun c hc => ?_
  suffices c ∉ ro.taggedValues by simp [doomed, this]
  intro ht
  obtain ⟨xc, hxc, ho, hslot⟩ := (h.mem_children hold .taggedValues).mp ht
  have hplace : ∀ {n r} {t : Slot}, g.node? n = some r → c ∈ r.children t →
      n = old ∧ t = .taggedValues := by
    intro n r t hr hct
    obtain ⟨x', hx', ho', hs'⟩ := (h.mem_children hr t).mp hct
    obtain rfl := Option.some.inj (hxc.symm.trans hx')
    exact ⟨Option.some.inj (ho'.symm.trans ho), hs'.symm.trans hslot⟩
  split_ifs at hc with hmn hs
  · rw [List.append_nil] at hc
    exact hm (hplace hx hc).1
  · rcases List.mem_append.mp hc with hc | hc
    · exact hm (hplace hx hc).1
    · exact hs (hplace hold hc).2
  · exact hm (hplace hx hc).1

/-- The fields of what stays, apart from owner and parts. What is doomed is not referred to. -/
lemma bare_takeover (hx : g.node? m = some x) (hm : m ≠ old) {y : Node}
    (hy : g'.node? m = some y) :
    (y.forget (g'.doomedWith old)).bare = (x.takenOver ro old new m).bare := by
  have doomed := fun c => mem_doomedWith_handsOver h htags hold hnew hco hcn hne hd (m := c)
  rw [Node.bare_forget fun z hz hzd =>
    not_or.mpr (clear_handsOver h htags hold hnew hco hcn hne hd hm hy hz) ((doomed z).mp hzd)]
  rw [node?_handsOver hd hx, if_neg hm] at hy
  obtain rfl := Option.some.inj hy
  rw [Node.bare_handed, foldl_appendNew]
  by_cases hmn : m = new
  · subst hmn
    obtain rfl := Option.some.inj (hx.symm.trans hnew)
    simp only [if_true, Node.takenOver]
    rfl
  · simp only [if_neg hmn, Node.takenOver]
    rfl

/-- What stays, after the deletion. -/
lemma node?_takeover (hx : g.node? m = some x) (hm : m ≠ old) (hmt : m ∉ ro.taggedValues) :
    (g'.remove (g'.doomedWith old)).node? m = some (x.takenOver ro old new m) := by
  have doomed := mem_doomedWith_handsOver h htags hold hnew hco hcn hne hd (m := m)
  obtain ⟨y, hy⟩ := isLive_iff.mp ((isLive_handsOver hd m).trans (isLive_of_node? hx))
  have hmd : m ∉ g'.doomedWith old := fun hmd => (doomed.mp hmd).elim hm hmt
  refine node?_remove_eq_some.mpr ⟨hmd, y, hy, Node.eq_of_bare ?_ ?_ fun s => ?_⟩
  · exact bare_takeover h htags hold hnew hco hcn hne hd hx hm hy
  · have ho := owner_takeover h hold hd hx hm hmt hy
    exact ho
  · rw [children_takeover h htags hold hnew hco hcn hne hd hx hm hy]
    by_cases hs : s = .owned
    · subst hs
      rfl
    · have hout {n r} := not_mem_children_of_classifier h hold hco (n := n) (r := r) (s := s)
      rw [List.filter_eq_self.mpr]
      · cases s with
        | owned => exact absurd rfl hs
        | taggedValues => simp [Node.takenOver, Node.children]
        | features | parameters | connections => rfl
      · intro c hc
        refine decide_eq_true ?_
        rintro rfl
        split_ifs at hc with hmn hst
        · exact hout hx hs (by simpa using hc)
        · rcases List.mem_append.mp hc with hc | hc
          exacts [hout hx hs hc, hout hold hs hc]
        · exact hout hx hs hc

/-- What stays does not mention what is gone. -/
lemma not_mem_references_takeover {y : Node}
    (hy : (g'.remove (g'.doomedWith old)).node? m = some y) : old ∉ y.references := by
  have doomed := fun c => mem_doomedWith_handsOver h htags hold hnew hco hcn hne hd (m := c)
  have hdoomed : old ∈ g'.doomedWith old := (doomed old).mpr (Or.inl rfl)
  obtain ⟨hm, z, hz, hforget⟩ := node?_remove_eq_some.mp hy
  rw [doomed, not_or] at hm
  obtain ⟨x, hx⟩ := isLive_iff.mp ((isLive_handsOver hd m).symm.trans (isLive_of_node? hz))
  have htaken := node?_takeover h htags hold hnew hco hcn hne hd hx hm.1 hm.2
  obtain rfl := Option.some.inj (hy.symm.trans htaken)
  intro hor
  rcases List.mem_append.mp hor with hl | hp
  · rcases Node.mem_links.mp hl with ho | he | ha | hst
    · obtain ⟨p, -, hp⟩ := Option.map_eq_some_iff.mp ho
      split_ifs at hp with hpo
      exacts [hne hp.symm, hpo hp]
    · rcases endpoints_redirect (r := x) he with ⟨-, hoo⟩ | hon
      exacts [hoo rfl, hne hon]
    · have hk := h.association hx ha
      rw [kind?_eq hold] at hk
      rw [Option.some.inj hk] at hco
      exact absurd hco (by decide)
    · rw [← hforget] at hst
      exact absurd hdoomed (by simpa using (List.mem_filter.mp hst).2)
  · rw [← hforget] at hp
    obtain ⟨s, hs⟩ := Node.mem_parts.mp hp
    rw [Node.children_forget] at hs
    exact absurd hdoomed (by simpa using (List.mem_filter.mp hs).2)

end deletion

/-- The profile is that of another graph. -/
def KeepsProfile (g g' : Graph) : Prop := g'.profile = g.profile

instance : IsPreorder Graph KeepsProfile where
  refl _ := rfl
  trans _ _ _ h h' := Eq.trans h' h

instance : Tolerates KeepsProfile where
  add _ _ _ := rfl
  modify _ _ _ _ := rfl

end Graph

lemma GraphM.keepsProfile_replaceReferences (old new : NodeId) :
    Obeys KeepsProfile (replaceReferences old new) := by
  have hturn : Obeys KeepsProfile
      (modify (·.mapNodes fun n r => if n = old then r else r.redirect old new) : GraphM Unit) :=
    obeys_modify fun _ => rfl
  unfold replaceReferences GraphM.get
  exact .bind inferInstance fun _ => .bind inferInstance fun _ => .bind hturn fun _ => inferInstance

/-- A classifier takes over from another one, which is deleted then, and nothing is lost: what goes
is the old one with its tagged values. In what stays, the references to the old one are turned to
the new one. What the old one owned comes after what the new one owned, in order, and its stereotypes
after those of the new one, as far as these are others. Nothing else changes. -/
theorem takeover_loses_nothing {g : Graph} {old new : NodeId} {ro rn : Node} (h : g.Represented)
    (htags : g.TagsApart) (hold : g.node? old = some ro) (hnew : g.node? new = some rn)
    (hco : ro.kind.isClassifier = true) (hcn : rn.kind.isClassifier = true) (hne : old ≠ new) :
    ∃ g', (do GraphM.replaceReferences old new; GraphM.delete old) g = .ok () g' ∧
      (∀ m, g'.isLive m = true ↔ g.isLive m = true ∧ m ≠ old ∧ m ∉ ro.taggedValues) ∧
      (∀ m x, g.node? m = some x → m ≠ old → m ∉ ro.taggedValues →
        g'.node? m = some (x.takenOver ro old new m)) ∧
      (∀ m y, g'.node? m = some y → old ∉ y.references) ∧
      g'.next = g.next ∧ g'.profile = g.profile := by
  obtain ⟨g₂, hrun, hd⟩ := h.replaceReferences hold hnew hne
  have hlive : g₂.isLive old = true := (isLive_handsOver hd old).trans (isLive_of_node? hold)
  refine ⟨g₂.remove (g₂.doomedWith old), ?_, fun m => ?_, fun m x hx hm hmt => ?_, fun m y hy => ?_,
    ?_, ?_⟩
  · exact (bind_run hrun).trans (GraphM.delete_ok hlive)
  · rw [isLive_remove, isLive_handsOver hd,
      mem_doomedWith_handsOver h htags hold hnew hco hcn hne hd, not_or]
  · exact node?_takeover h htags hold hnew hco hcn hne hd hx hm hmt
  · exact not_mem_references_takeover h htags hold hnew hco hcn hne hd hy
  · rw [next_remove, hd.next, turned, next_mapNodes]
  · have hprofile := (GraphM.keepsProfile_replaceReferences old new).final g
    rw [hrun] at hprofile
    exact hprofile

/-- A class with a tagged value, an attribute and a stereotype is the parent of another one and the
type of an attribute and of an end. A third class takes over. -/
theorem takeover_loses_nothing_of_class :
    let calls : List Mutation := [.create .classType (some "Old") (some root),
      .create .classType (some "New") (some root), .setTaggedValue 4 "t" "v",
      .buildAttribute 4 none (some "x"), .buildAttribute 5 (some 4) (some "y"), .addStereotype 4 3,
      .create .classType (some "User") (some root), .buildGeneralization 9 4,
      .buildAssociation 4 true 9 false none]
    let g := Mutation.applyAll calls (.new "m" ⟨"p", [], [⟨"s", []⟩]⟩)
    g.Represented ∧ g.TagsApart ∧ (4 : NodeId) ≠ 5 ∧ ∃ ro rn, g.node? 4 = some ro ∧
      g.node? 5 = some rn ∧ ro.kind.isClassifier = true ∧ rn.kind.isClassifier = true ∧
      ∃ g', (do GraphM.replaceReferences 4 5; GraphM.delete 4) g = .ok () g' ∧
        (∀ m ∈ g.handles, g'.isLive m = true ↔ m ∉ [4, 6]) ∧
        g'.node? 5 = some { rn with features := [8, 7], stereotypes := [3] } ∧
        g'.node? 8 = some { kind := .attr, name := some "y", owner := some 5, type := some 5 } ∧
        g'.node? 10 = some { kind := .generalization, name := none, owner := some root,
                             general := some 5, specific := some 9 } := by
  intro calls g
  have ha : Mutation.Admissible (.new "m" ⟨"p", [], [⟨"s", []⟩]⟩) calls := by decide +kernel
  have hg : g.Represented := represented_applyAll _ _ ha
  have htags : g.TagsApart := by decide +kernel
  have hold : g.node? 4 = some
      { kind := .classType, name := some "Old", owner := some root, stereotypes := [3],
        features := [7], taggedValues := [6] } := by decide +kernel
  have hnew : g.node? 5 = some
      { kind := .classType, name := some "New", owner := some root, features := [8] } := by
    decide +kernel
  have hattr : g.node? 8 = some
      { kind := .attr, name := some "y", owner := some 5, type := some 4 } := by decide +kernel
  have hgen : g.node? 10 = some
      { kind := .generalization, name := none, owner := some root, general := some 4,
        specific := some 9 } := by decide +kernel
  clear_value g
  obtain ⟨g', hrun, hlive, hnode, -⟩ :=
    takeover_loses_nothing hg htags hold hnew rfl rfl (by decide)
  refine ⟨hg, htags, by decide, _, _, hold, hnew, rfl, rfl, g', hrun, fun m hm => ?_, ?_, ?_, ?_⟩
  · rw [hlive, and_iff_right (mem_handles.mp hm)]
    simp
  · exact (hnode 5 _ hnew (by decide) (by decide)).trans (by decide)
  · exact (hnode 8 _ hattr (by decide) (by decide)).trans (by decide)
  · exact (hnode 10 _ hgen (by decide) (by decide)).trans (by decide)

end DeclGraph
