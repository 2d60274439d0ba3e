import DeclGraph.Proofs.Graph.Doom

/-! Adding, moving and deleting elements keep a graph linked. -/

namespace DeclGraph.Graph

variable {g g' : Graph} {n m p c : NodeId} {r x : Node} {home : Option NodeId}

lemma isLive_congr {F : NodeId → Node → Node} (hg : ∀ m, g'.node? m = (g.node? m).map (F m))
    (m : NodeId) : g'.isLive m = g.isLive m := by
  simp [isLive, hg]

lemma fieldsFit_of_bare {r r' : Node} (h : r'.bare = r.bare) (hr : r.FieldsFit) : r'.FieldsFit := by
  have hh := Node.bare_congr h
  constructor
  · intro hk
    rw [hh.2.2.2.1, hh.2.2.2.2.1]
    exact hr.generalization (hh.1 ▸ hk)
  · intro hk
    rw [hh.2.2.2.2.2.2.2.1, hh.2.2.2.2.2.2.2.2.1]
    exact hr.residence (hh.1 ▸ hk)
  · intro hk
    rw [hh.2.2.2.2.2.2.2.2.2.1]
    exact hr.associationEnd (hh.1 ▸ hk)

lemma mem_links_of_bare {r r' : Node} (h : r'.bare = r.bare) {y : NodeId} (hy : y ∈ r'.links) :
    r'.owner = some y ∨ y ∈ r.links := by
  have hh := Node.bare_congr h
  simp only [Node.links, List.mem_append, Option.mem_toList] at hy ⊢
  rw [← hh.2.2.1, ← hh.2.2.2.1, ← hh.2.2.2.2.1, ← hh.2.2.2.2.2.1, ← hh.2.2.2.2.2.2.1,
    ← hh.2.2.2.2.2.2.2.1, ← hh.2.2.2.2.2.2.2.2.1, ← hh.2.2.2.2.2.2.2.2.2.1,
    ← hh.2.2.2.2.2.2.2.2.2.2]
  tauto

/-- The parts of `m` after the element `n` moved to another owner. -/
lemma mem_children_relocated (h : g.Linked) (hr : g.node? n = some r) (hx : g.node? m = some x)
    (s : Slot) (c : NodeId) : c ∈ (Node.relocated n r home m x).children s ↔
      (c ≠ n ∧ c ∈ x.children s) ∨ (c = n ∧ home = some m ∧ r.kind.slot = s) := by
  by_cases hs : s = r.kind.slot
  · subst hs
    have hnd := h.nodup hx r.kind.slot
    have hin : n ∈ x.children r.kind.slot ↔ r.owner = some m := by
      rw [h.mem_children hx]
      constructor
      · rintro ⟨rn, hrn, ho, _⟩
        obtain rfl := Option.some.inj (hr.symm.trans hrn)
        exact ho
      · intro ho
        exact ⟨r, hr, ho, rfl⟩
    rw [Node.children_relocated_slot]
    have hrest : ∀ c, c ∈ (if r.owner = some m then (x.children r.kind.slot).erase n
        else x.children r.kind.slot) ↔ c ≠ n ∧ c ∈ x.children r.kind.slot := by
      intro c
      split_ifs with ho
      · exact hnd.mem_erase_iff
      · constructor
        · intro hc
          refine ⟨?_, hc⟩
          rintro rfl
          exact ho (hin.mp hc)
        · exact fun hc => hc.2
    have hnot := (hrest n).not.mpr (by simp)
    by_cases hh : home = some m
    · simp only [hh, hnot, not_false_eq_true, and_self, if_true, List.mem_append,
        List.mem_singleton, hrest, and_true]
    · simp only [hh, false_and, if_false, hrest, and_false, or_false]
  · rw [Node.children_relocated_of_ne _ _ _ _ _ hs]
    constructor
    · intro hc
      refine Or.inl ⟨?_, hc⟩
      rintro rfl
      obtain ⟨rc, hrc, _, hsl⟩ := (h.mem_children hx s c).mp hc
      obtain rfl := Option.some.inj (hr.symm.trans hrc)
      exact hs hsl.symm
    · rintro (hc | hc)
      · exact hc.2
      · exact absurd hc.2.2.symm hs

lemma nodup_children_relocated (h : g.Linked) (hx : g.node? m = some x) (s : Slot) :
    ((Node.relocated n r home m x).children s).Nodup := by
  have hnd := h.nodup hx
  by_cases hs : s = r.kind.slot
  · subst hs
    rw [Node.children_relocated_slot]
    dsimp only
    split_ifs with h₁ h₂ h₃
    · exact ((hnd _).erase _).append (List.nodup_singleton _) (by simpa using h₂.2)
    · exact (hnd _).erase _
    · exact (hnd _).append (List.nodup_singleton _) (by simpa using h₃.2)
    · exact hnd _
  · rw [Node.children_relocated_of_ne _ _ _ _ _ hs]
    exact hnd s

/-- Moving an element to a live owner, or to none. -/
lemma Linked.relocate (h : g.Linked) (hr : g.node? n = some r)
    (hp : ∀ p, home = some p → g.isLive p = true) (hm : g.Moved n r home g') : g'.Linked := by
  have hg := hm.node
  have hlive := isLive_congr hg
  have back : ∀ {m x'}, g'.node? m = some x' →
      ∃ x, g.node? m = some x ∧ Node.relocated n r home m x = x' := by
    intro m x' hm
    rw [hg] at hm
    exact Option.map_eq_some_iff.mp hm
  refine ⟨?_, ?_, ?_, ?_⟩
  · intro m x' hm y hy
    obtain ⟨x, hx, rfl⟩ := back hm
    rw [hlive]
    rcases mem_links_of_bare (Node.bare_relocated n m r x home) hy with ho | hl
    · rw [Node.owner_relocated] at ho
      split_ifs at ho
      · exact hp y ho
      · exact h.owner_live hx ho
    · exact h.live hx y hl
  · intro p x' hm s c
    obtain ⟨x, hx, rfl⟩ := back hm
    rw [mem_children_relocated h hr hx, h.mem_children hx]
    constructor
    · rintro (⟨hc, rc, hrc, ho, hs⟩ | ⟨rfl, hh, hs⟩)
      · refine ⟨Node.relocated n r home c rc, by rw [hg, hrc]; rfl, ?_, ?_⟩
        · rw [Node.owner_relocated, if_neg hc, ho]
        · rw [(Node.bare_congr (Node.bare_relocated n c r rc home)).1, hs]
      · refine ⟨Node.relocated c r home c r, by rw [hg, hr]; rfl, ?_, ?_⟩
        · rw [Node.owner_relocated, if_pos rfl, hh]
        · rw [(Node.bare_congr (Node.bare_relocated c c r r home)).1, hs]
    · rintro ⟨rc', hrc', ho, hs⟩
      obtain ⟨rc, hrc, rfl⟩ := back hrc'
      rw [(Node.bare_congr (Node.bare_relocated n c r rc home)).1] at hs
      rw [Node.owner_relocated] at ho
      by_cases hc : c = n
      · subst hc
        obtain rfl := Option.some.inj (hr.symm.trans hrc)
        exact Or.inr ⟨rfl, by simpa using ho, hs⟩
      · exact Or.inl ⟨hc, rc, hrc, by simpa [hc] using ho, hs⟩
  · intro p x' hm s
    obtain ⟨x, hx, rfl⟩ := back hm
    exact nodup_children_relocated h hx s
  · intro m x' hm
    obtain ⟨x, hx, rfl⟩ := back hm
    exact fieldsFit_of_bare (Node.bare_relocated n m r x home) (h.fit hx)

/-- Adding an element without parts whose record refers to live elements. -/
lemma Linked.built (h : g.Linked) {r : Node} (hb : g.Built r g')
    (hparts : ∀ s, r.children s = []) (hfit : r.FieldsFit)
    (hlinks : ∀ y ∈ r.links, g.isLive y = true) : g'.Linked := by
  have hbare : ∀ m x,
      (if r.owner = some m then Node.attach x r.kind.slot g.next else x).bare = x.bare := by
    intro m x
    split_ifs <;> simp
  have howner : ∀ m x,
      (if r.owner = some m then Node.attach x r.kind.slot g.next else x).owner = x.owner := by
    intro m x
    split_ifs <;> simp
  have hchildren : ∀ {m x}, g.node? m = some x → ∀ s c,
      c ∈ (if r.owner = some m then x.attach r.kind.slot g.next else x).children s ↔
        c ∈ x.children s ∨ (c = g.next ∧ r.owner = some m ∧ r.kind.slot = s) := by
    intro m x hx s c
    split_ifs with hh
    · rw [Node.children_attach]
      by_cases hs : s = r.kind.slot
      · subst hs
        simp [h.next_not_mem hx, hh]
      · simp [hs, Ne.symm hs]
    · simp [hh]
  have howner_live : ∀ p, r.owner = some p → g.isLive p = true := fun p hp =>
    hlinks p (by simp [Node.links, hp])
  refine ⟨?_, ?_, ?_, ?_⟩
  · intro m x' hm y hy
    rcases hb.node_cases hm with ⟨rfl, rfl⟩ | ⟨x, hx, rfl⟩
    · exact hb.live (hlinks y hy)
    · rcases mem_links_of_bare (hbare m x) hy with ho | hl
      · exact hb.live (h.owner_live hx ((howner m x).symm.trans ho))
      · exact hb.live (h.live hx y hl)
  · intro p x' hm s c
    rcases hb.node_cases hm with ⟨rfl, rfl⟩ | ⟨x, hx, rfl⟩
    · simp only [hparts, List.not_mem_nil, false_iff]
      rintro ⟨rc', hrc', ho, _⟩
      rcases hb.node_cases hrc' with ⟨rfl, rfl⟩ | ⟨rc, hrc, rfl⟩
      · exact ne_next (howner_live _ ho) rfl
      · exact ne_next (h.owner_live hrc ((howner c rc).symm.trans ho)) rfl
    · rw [hchildren hx, h.mem_children hx]
      constructor
      · rintro (⟨rc, hrc, ho, hs⟩ | ⟨rfl, hh, hs⟩)
        · exact ⟨_, hb.old_node hrc, (howner c rc).trans ho,
            by rw [(Node.bare_congr (hbare c rc)).1]; exact hs⟩
        · exact ⟨_, hb.new_node, hh, hs⟩
      · rintro ⟨rc', hrc', ho, hs⟩
        rcases hb.node_cases hrc' with ⟨rfl, rfl⟩ | ⟨rc, hrc, rfl⟩
        · exact Or.inr ⟨rfl, ho, hs⟩
        · rw [(Node.bare_congr (hbare c rc)).1] at hs
          exact Or.inl ⟨rc, hrc, (howner c rc).symm.trans ho, hs⟩
  · intro p x' hm s
    rcases hb.node_cases hm with ⟨rfl, rfl⟩ | ⟨x, hx, rfl⟩
    · rw [hparts]
      exact List.nodup_nil
    · split_ifs with hh
      · rw [Node.children_attach]
        split_ifs with hs
        · exact (h.nodup hx _).append (List.nodup_singleton _) (by simpa using hs.2)
        · exact h.nodup hx s
      · exact h.nodup hx s
  · intro m x' hm
    rcases hb.node_cases hm with ⟨rfl, rfl⟩ | ⟨x, hx, rfl⟩
    · exact hfit
    · exact fieldsFit_of_bare (hbare m x) (h.fit hx)

lemma Coherent.built (h : g.Coherent) {r : Node} (hb : g.Built r g')
    (hparts : ∀ s, r.children s = []) (hfit : r.FieldsFit)
    (hlinks : ∀ y ∈ r.links, g.isLive y = true)
    (ha : ∀ a, r.association = some a → r.owner = some a) : g'.Coherent := by
  refine ⟨h.toLinked.built hb hparts hfit hlinks, ?_⟩
  intro m x' a hm hx'
  rcases hb.node_cases hm with ⟨rfl, rfl⟩ | ⟨x, hx, rfl⟩
  · exact ha a hx'
  · split_ifs at hx' ⊢
    · rw [Node.owner_attach]
      apply h.endsAtHome hx
      rw [← hx']
      exact ((Node.bare_congr (Node.bare_attach x _ _)).2.2.2.2.2.2.2.2.2.1).symm
    · exact h.endsAtHome hx hx'

lemma Built.ages (hb : g.Built r g') : Ages g g' := by
  refine ⟨hb.next ▸ (Int.lt_succ g.next).le, ?_⟩
  intro m hm hl
  rcases hb.isLive.mp hl with rfl | hl
  · exact absurd hm (lt_irrefl _)
  · exact hl

section remove

variable {doomed : List NodeId}

lemma node?_remove_eq_some {y : Node} : (g.remove doomed).node? m = some y ↔
    m ∉ doomed ∧ ∃ x, g.node? m = some x ∧ x.forget doomed = y := by
  rw [node?_remove]
  split_ifs with hm <;> simp [hm]

lemma isLive_remove : (g.remove doomed).isLive m = true ↔ g.isLive m = true ∧ m ∉ doomed := by
  rw [isLive_iff, isLive_iff]
  constructor
  · rintro ⟨y, hy⟩
    obtain ⟨hm, x, hx, _⟩ := node?_remove_eq_some.mp hy
    exact ⟨⟨x, hx⟩, hm⟩
  · rintro ⟨⟨x, hx⟩, hm⟩
    exact ⟨_, node?_remove_eq_some.mpr ⟨hm, x, hx, rfl⟩⟩

/-- An element whose record names a doomed owner is doomed itself. -/
lemma doomed_of_owner (h : g.Linked) (hd : g.DragClosed (· ∈ doomed)) (hr : g.node? m = some r)
    (ho : r.owner = some p) (hp : p ∈ doomed) : m ∈ doomed := by
  obtain ⟨rp, hrp⟩ := isLive_iff.mp (h.owner_live hr ho)
  have hc : m ∈ rp.children r.kind.slot := (h.mem_children hrp _ _).mpr ⟨r, hr, ho, rfl⟩
  exact hd.part p rp m hp hrp (Node.mem_parts.mpr ⟨_, hc⟩)

/-- What stays after a closed set went refers to nothing of it. -/
lemma links_remove (h : g.Coherent) (hd : g.DragClosed (· ∈ doomed)) (hr : g.node? m = some r)
    (hm : m ∉ doomed) {y : NodeId} (hy : y ∈ (r.forget doomed).links) :
    y ∈ r.links ∧ y ∉ doomed := by
  have hfit := h.fit hr
  have hassoc : ∀ a, r.association = some a → a ∉ doomed := fun a ha hda =>
    hm (doomed_of_owner h.toLinked hd hr (h.endsAtHome hr ha) hda)
  have hends : ∀ a, r.general = some a ∨ r.specific = some a → a ∉ doomed := by
    intro a ha hda
    have hk : r.kind = .generalization := by
      by_contra hk
      have := hfit.generalization hk
      simp [this.1, this.2] at ha
    exact hm (hd.generalization m r a hr hk ha hda)
  have hres : ∀ a, r.resident = some a ∨ r.container = some a → a ∉ doomed := by
    intro a ha hda
    have hk : r.kind = .elementResidence := by
      by_contra hk
      have := hfit.residence hk
      simp [this.1, this.2] at ha
    exact hm (hd.residence m r a hr hk ha hda)
  have howner : ∀ p, r.owner = some p → p ∉ doomed := fun p hp hdp =>
    hm (doomed_of_owner h.toLinked hd hr hp hdp)
  simp only [Node.links, Node.forget, List.mem_append, Option.mem_toList, List.mem_filter,
    Option.filter_eq_some_iff, decide_eq_true_eq] at hy ⊢
  rcases hy with ((((((((hy | hy) | hy) | hy) | hy) | hy) | hy) | hy) | hy) | hy
  · exact ⟨by tauto, howner y hy⟩
  · exact ⟨by tauto, hy.2⟩
  · exact ⟨by tauto, hends y (Or.inl hy)⟩
  · exact ⟨by tauto, hends y (Or.inr hy)⟩
  · exact ⟨by tauto, hy.2⟩
  · exact ⟨by tauto, hy.2⟩
  · exact ⟨by tauto, hres y (Or.inl hy)⟩
  · exact ⟨by tauto, hres y (Or.inr hy)⟩
  · exact ⟨by tauto, hassoc y hy⟩
  · exact ⟨by tauto, hy.2⟩

/-- Deleting a closed set of elements. -/
lemma Coherent.remove (h : g.Coherent) (hd : g.DragClosed (· ∈ doomed)) :
    (g.remove doomed).Coherent := by
  refine ⟨⟨?_, ?_, ?_, ?_⟩, ?_⟩
  · intro n y hy m hm
    obtain ⟨hn, x, hx, rfl⟩ := node?_remove_eq_some.mp hy
    obtain ⟨hl, hmd⟩ := links_remove h hd hx hn hm
    exact isLive_remove.mpr ⟨h.live hx m hl, hmd⟩
  · intro p y hy s c
    obtain ⟨hp, x, hx, rfl⟩ := node?_remove_eq_some.mp hy
    rw [Node.children_forget, List.mem_filter, h.mem_children hx, decide_eq_true_eq]
    constructor
    · rintro ⟨⟨rc, hrc, ho, hs⟩, hc⟩
      exact ⟨_, node?_remove_eq_some.mpr ⟨hc, rc, hrc, rfl⟩, ho, hs⟩
    · rintro ⟨rc', hrc', ho, hs⟩
      obtain ⟨hc, rc, hrc, rfl⟩ := node?_remove_eq_some.mp hrc'
      exact ⟨⟨rc, hrc, ho, hs⟩, hc⟩
  · intro p y hy s
    obtain ⟨_, x, hx, rfl⟩ := node?_remove_eq_some.mp hy
    rw [Node.children_forget]
    exact (h.nodup hx s).filter _
  · intro n y hy
    obtain ⟨_, x, hx, rfl⟩ := node?_remove_eq_some.mp hy
    exact ⟨(h.fit hx).generalization, (h.fit hx).residence, (h.fit hx).associationEnd⟩
  · intro n y a hy ha
    obtain ⟨_, x, hx, rfl⟩ := node?_remove_eq_some.mp hy
    have ho : x.owner = some a := h.endsAtHome hx ha
    exact ho

lemma ages_remove : Ages g (g.remove doomed) :=
  ⟨by simp, fun _ _ hl => (isLive_remove.mp hl).1⟩

end remove

end DeclGraph.Graph
