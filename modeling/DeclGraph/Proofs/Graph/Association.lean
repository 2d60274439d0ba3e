import DeclGraph.Proofs.Graph.Step

/-! Associations stay complete: no change takes an end from an association or gives it another one.
With this, changes keep graphs sound. -/

namespace DeclGraph

open DeclGraph.Graph

/-- Where a reference leads that is turned from one element to another. -/
def reroute (old new n : NodeId) : NodeId := if n = old then new else n

lemma Node.IsEnd.redirect {r : Node} {a t : NodeId} {nav : Bool} {name : Option String}
    (h : r.IsEnd a nav t name) (old new : NodeId) :
    (r.redirect old new).IsEnd a nav (reroute old new t) name :=
  ⟨h.kind, h.association, h.isNavigable, by simp [Node.redirect, h.type, reroute], h.name⟩

namespace Graph

variable {P : Graph → Change → Prop} {g g' g'' : Graph} {n m p a e o c q : NodeId} {r x y : Node}
  {change : Change} {name : String} {k : NodeKind}

namespace Spans

lemma kind? (h : g.Spans a e o c p name) : g.kind? a = some .association := by
  obtain ⟨r, hr, hk, -⟩ := h.association
  rw [kind?_eq hr, hk]

/-- There is one way to see an association. -/
lemma unique {e' o' c' p' : NodeId} {name' : String} (h : g.Spans a e o c p name)
    (h' : g.Spans a e' o' c' p' name') : e = e' ∧ o = o' ∧ c = c' ∧ p = p' ∧ name = name' := by
  obtain ⟨r, hr, -, hc⟩ := h.association
  obtain ⟨r', hr', -, hc'⟩ := h'.association
  obtain rfl := Option.some.inj (hr.symm.trans hr')
  have heq := hc.symm.trans hc'
  simp only [List.cons.injEq, and_true] at heq
  obtain ⟨rfl, rfl⟩ := heq
  obtain ⟨x, hx, hfar⟩ := h.far
  obtain ⟨x', hx', hfar'⟩ := h'.far
  obtain rfl := Option.some.inj (hx.symm.trans hx')
  obtain ⟨y, hy, hnear⟩ := h.near
  obtain ⟨y', hy', hnear'⟩ := h'.near
  obtain rfl := Option.some.inj (hy.symm.trans hy')
  exact ⟨rfl, rfl, Option.some.inj (hnear.type.symm.trans hnear'.type),
    Option.some.inj (hfar.type.symm.trans hfar'.type),
    Option.some.inj (hfar.name.symm.trans hfar'.name)⟩

/-- An association is what it was if its own record and those of its ends are, up to where types
lead. -/
lemma along (turn : NodeId → NodeId) (h : g.Spans a e o c p name)
    (ha : ∀ {r}, g.node? a = some r → ∃ r', g'.node? a = some r' ∧ r'.kind = r.kind ∧
      r'.children .connections = r.children .connections)
    (hend : ∀ {x r nav t name}, x = e ∨ x = o → g.node? x = some r → r.IsEnd a nav t name →
      ∃ r', g'.node? x = some r' ∧ r'.IsEnd a nav (turn t) name) :
    g'.Spans a e o (turn c) (turn p) name := by
  obtain ⟨r, hr, hk, hc⟩ := h.association
  obtain ⟨r', hr', hk', hc'⟩ := ha hr
  obtain ⟨x, hx, hfar⟩ := h.far
  obtain ⟨y, hy, hnear⟩ := h.near
  exact ⟨⟨r', hr', hk'.trans hk, hc'.trans hc⟩, hend (Or.inl rfl) hx hfar,
    hend (Or.inr rfl) hy hnear⟩

/-- What was an association and stays one was the same association. -/
lemma back (hg : g.Sound) (hk : g.kind? a = some .association)
    (hstay : ∀ {e o c p name}, g.Spans a e o c p name → g'.Spans a e o c p name)
    (h : g'.Spans a e o c p name) : g.Spans a e o c p name := by
  obtain ⟨e', o', c', p', name', hs⟩ := hg.spanned hk
  obtain ⟨rfl, rfl, rfl, rfl, rfl⟩ := h.unique (hstay hs)
  exact hs

lemma slot_ne_connections {k : NodeKind} (h : k ≠ .associationEnd) : Slot.connections ≠ k.slot := by
  revert h
  cases k <;> decide

/-- Adding what is no end of it. -/
lemma built (h : g.Spans a e o c p name) (hb : g.Built r g')
    (hr : r.kind = .associationEnd → r.owner ≠ some a) : g'.Spans a e o c p name := by
  apply h.along id
  · intro x hx
    have hsame : r.owner = some a → Slot.connections ≠ r.kind.slot := fun ho =>
      slot_ne_connections fun hk => hr hk ho
    refine ⟨_, hb.old_node hx, ?_, ?_⟩
    · obtain ⟨x', hx', hbare, -⟩ := hb.old_bare hx
      obtain rfl := Option.some.inj ((hb.old_node hx).symm.trans hx')
      exact (Node.bare_congr hbare).1
    · split_ifs with ho
      · rw [Node.children_attach, if_neg fun hs => hsame ho hs.1]
      · rfl
  · rintro z x nav t title - hx hend
    obtain ⟨x', hx', hbare, -⟩ := hb.old_bare hx
    exact ⟨x', hx', hend.of_bare hbare⟩

lemma moved {home : Option NodeId} (h : g.Spans a e o c p name) (hm : g.Moved n r home g')
    (hr : r.kind ≠ .associationEnd) : g'.Spans a e o c p name := by
  apply h.along id
  · intro x hx
    refine ⟨Node.relocated n r home a x, by rw [hm.node, hx]; rfl, ?_, ?_⟩
    · exact (Node.bare_congr (Node.bare_relocated n a r x home)).1
    · exact Node.children_relocated_of_ne _ _ _ _ _ (slot_ne_connections hr)
  · rintro z x nav t title - hx hend
    obtain ⟨x', hx', hbare, -⟩ := hm.old_bare hx
    exact ⟨x', hx', hend.of_bare hbare⟩

lemma edited (h : g.Spans a e o c p name) (hr : g.node? n = some r) (hed : g.Editable r y)
    (hend : r.kind = .associationEnd → r.SameEnd y) (he : g.Edited n y g') :
    g'.Spans a e o c p name := by
  apply h.along id
  · intro x hx
    rw [he.node]
    split_ifs with hn
    · subst hn
      obtain rfl := Option.some.inj (hr.symm.trans hx)
      exact ⟨y, rfl, hed.place.kind, hed.place.children .connections⟩
    · exact ⟨x, hx, rfl, rfl⟩
  · rintro z x nav t title - hx hx'
    rw [he.node]
    split_ifs with hn
    · subst hn
      obtain rfl := Option.some.inj (hr.symm.trans hx)
      have hsame := hend hx'.kind
      exact ⟨y, rfl, hed.place.kind.trans hx'.kind, hed.association.trans hx'.association,
        hsame.isNavigable.trans hx'.isNavigable, hsame.type.trans hx'.type,
        hed.name.trans hx'.name⟩
    · exact ⟨x, hx, hx'⟩

/-- An association that stays keeps its ends and what they are typed by. -/
lemma removed {doomed : List NodeId} (h : g.Spans a e o c p name)
    (hd : g.DragClosed (· ∈ doomed)) (ha : a ∉ doomed) :
    (g.remove doomed).Spans a e o c p name := by
  have ends : ∀ {x r nav t title}, g.node? x = some r → r.IsEnd a nav t title →
      x ∉ doomed ∧ t ∉ doomed := fun hx hend =>
    ⟨fun hxd => ha (hd.whole _ _ a hxd hx hend.kind hend.association),
      fun htd => ha (hd.typed _ _ a _ hx hend.kind hend.association hend.type htd)⟩
  obtain ⟨x, hx, hfar⟩ := h.far
  obtain ⟨z, hz, hnear⟩ := h.near
  apply h.along id
  · intro r hr
    obtain ⟨ra, hra, -, hc⟩ := h.association
    obtain rfl := Option.some.inj (hr.symm.trans hra)
    refine ⟨_, node?_remove_eq_some.mpr ⟨ha, r, hr, rfl⟩, rfl, ?_⟩
    change r.connections.filter (· ∉ doomed) = r.connections
    rw [hc]
    simp [(ends hx hfar).1, (ends hz hnear).1]
  · rintro w r nav t title - hr hend
    obtain ⟨hw, ht⟩ := ends hr hend
    refine ⟨_, node?_remove_eq_some.mpr ⟨hw, r, hr, rfl⟩, hend.kind, hend.association,
      hend.isNavigable, ?_, hend.name⟩
    simp [Node.forget, hend.type, ht]

lemma superseded {old : NodeId} {ro : Node} (h : g.Spans a e o c p name)
    (hs : g.Superseded old ro r g') (hg : g.Regular) (hold : g.node? old = some ro)
    (hco : ro.kind.isClassifier = true) :
    g'.Spans a e o (reroute old g.next c) (reroute old g.next p) name := by
  have stays : ∀ {x y}, g.node? x = some y → y.kind = .association ∨ y.kind = .associationEnd →
      ∃ y', g'.node? x = some y' ∧ y'.bare = (y.redirect old g.next).bare ∧
        y'.children .connections = y.children .connections := by
    intro x y hx hk
    have hne : x ≠ old := by
      rintro rfl
      obtain rfl := Option.some.inj (hx.symm.trans hold)
      rcases hk with hk | hk <;> rw [hk] at hco <;> exact Bool.noConfusion hco
    have htag : x ∉ ro.taggedValues := by
      intro ht
      obtain ⟨z, hz, -, hslot⟩ := (hg.mem_children hold .taggedValues x).mp ht
      obtain rfl := Option.some.inj (hx.symm.trans hz)
      rcases hk with hk | hk <;> rw [hk] at hslot <;> exact absurd hslot (by decide)
    obtain ⟨y', hy', hbare, -, hchildren⟩ := hs.stay hx hne htag
    exact ⟨y', hy', hbare, hchildren _ (by decide)⟩
  apply h.along (reroute old g.next)
  · intro x hx
    obtain ⟨ra, hra, hk, -⟩ := h.association
    obtain rfl := Option.some.inj (hx.symm.trans hra)
    obtain ⟨y', hy', hbare, hchildren⟩ := stays hx (Or.inl hk)
    exact ⟨y', hy', (Node.bare_congr hbare).1, hchildren⟩
  · rintro z x nav t title - hx hend
    obtain ⟨y', hy', hbare, -⟩ := stays hx (Or.inr hend.kind)
    exact ⟨y', hy', (hend.redirect old g.next).of_bare hbare⟩

end Spans

namespace Associated

variable {ra : Node}

lemma kind?_old (h : g.Associated ra c p name g') (hm : g.isLive m = true) : g'.kind? m = g.kind? m := by
  obtain ⟨_, _, _, _, hb₁, hb₂, hb₃⟩ := h.built
  rw [hb₃.kind?_old (hb₂.live (hb₁.live hm)), hb₂.kind?_old (hb₁.live hm), hb₁.kind?_old hm]

lemma cases_live (h : g.Associated ra c p name g') (hm : g'.isLive m = true) :
    m = g.next ∨ g'.kind? m = some .associationEnd ∨ g.isLive m = true := by
  obtain ⟨_, _, _, _, hb₁, hb₂, hb₃⟩ := h.built
  rcases hb₃.isLive.mp hm with rfl | hm
  · rw [hb₃.kind?_new, hb₃.kind]
    exact Or.inr (Or.inl rfl)
  rcases hb₂.isLive.mp hm with rfl | hm₁
  · rw [hb₃.kind?_old hm, hb₂.kind?_new, hb₂.kind]
    exact Or.inr (Or.inl rfl)
  exact (hb₁.isLive.mp hm₁).imp_right Or.inr

lemma cases_bare (h : g.Associated ra c p name g') (hm : g'.node? m = some y) : y.kind.isJoint = true ∨
    ∃ x, g.node? m = some x ∧ y.bare = x.bare ∧ y.owner = x.owner := by
  obtain ⟨_, _, _, _, hb₁, hb₂, hb₃⟩ := h.built
  rcases hb₃.cases_bare hm with ⟨rfl, rfl⟩ | ⟨x₂, hx₂, hbare₂, ho₂⟩
  · rw [hb₃.kind]
    exact Or.inl rfl
  rcases hb₂.cases_bare hx₂ with ⟨rfl, rfl⟩ | ⟨x₁, hx₁, hbare₁, ho₁⟩
  · rw [(Node.bare_congr hbare₂).1, hb₂.kind]
    exact Or.inl rfl
  have hbare := hbare₂.trans hbare₁
  rcases hb₁.cases_bare hx₁ with ⟨rfl, rfl⟩ | ⟨x, hx, hbare₀, ho₀⟩
  · rw [(Node.bare_congr hbare).1, h.kind]
    exact Or.inl rfl
  · exact Or.inr ⟨x, hx, hbare.trans hbare₀, (ho₂.trans ho₁).trans ho₀⟩

/-- Associations that were there are not changed. -/
lemma spans_old {c' p' : NodeId} {title : String} (h : g.Associated ra c' p' title g')
    (hs : g.Spans a e o c p name) : g'.Spans a e o c p name := by
  obtain ⟨re, ro, g₁, g₂, hb₁, hb₂, hb₃⟩ := h.built
  have hne : a ≠ g.next := ne_next (isLive_of_kind? hs.kind?)
  have hs₁ := hs.built hb₁ fun hk => by rw [h.kind] at hk; exact absurd hk (by decide)
  have hs₂ := hs₁.built hb₂.toBuilt fun _ heq => hne (Option.some.inj (heq.symm.trans hb₂.owner))
  exact hs₂.built hb₃.toBuilt fun _ heq => hne (Option.some.inj (heq.symm.trans hb₃.owner))

end Associated

lemma NodeKind.ne_associationEnd {k : NodeKind} (h : k.isJoint = false) : k ≠ .associationEnd := by
  rintro rfl
  exact Bool.noConfusion h

namespace Sound

/-- Adding neither associations nor ends of them. -/
lemma spanned_built (h : g.Sound) (hj : r.kind.isJoint = false) (hb : g.Built r g')
    (ha : g'.kind? a = some .association) : ∃ e o c p name, g'.Spans a e o c p name := by
  rcases hb.isLive.mp (isLive_of_kind? ha) with rfl | hl
  · rw [hb.kind?_new] at ha
    rw [Option.some.inj ha] at hj
    exact Bool.noConfusion hj
  · rw [hb.kind?_old hl] at ha
    obtain ⟨e, o, c, p, name, hs⟩ := h.spanned ha
    exact ⟨e, o, c, p, name, hs.built hb fun hk => absurd hk (NodeKind.ne_associationEnd hj)⟩

/-- After a change, an association is one that was there or new and complete. -/
lemma spanned_step (h : g.Sound) (hs : g.Step change g') (ha : g'.kind? a = some .association) :
    ∃ e o c p name, g'.Spans a e o c p name := by
  have hl' := isLive_of_kind? ha
  cases hs with
  | build _ hj hb => exact h.spanned_built hj hb ha
  | move hr hmov hm =>
    rw [hm.kind?] at ha
    obtain ⟨e, o, c, p, name, hs⟩ := h.spanned ha
    exact ⟨e, o, c, p, name, hs.moved hm hmov.notEnd⟩
  | edit hr hed hend he =>
    rw [he.kind? hr hed.place.kind] at ha
    obtain ⟨e, o, c, p, name, hs⟩ := h.spanned ha
    exact ⟨e, o, c, p, _, hs.edited hr hed hend he⟩
  | @delete n r hr hnp =>
    obtain ⟨y, hy, hk⟩ := kind?_eq_some.mp ha
    obtain ⟨had, x, hx, rfl⟩ := node?_remove_eq_some.mp hy
    obtain ⟨e, o, c, p, name, hs⟩ := h.spanned ((kind?_eq hx).trans (congrArg some hk))
    have hclosed := doomedWith_closed (isLive_of_node? hr) h.toLinked
    exact ⟨e, o, c, p, name, hs.removed hclosed had⟩
  | @force r g₁ _ _ hc _ hb hm =>
    have hclass : r.kind ≠ .associationEnd := by
      rintro hk
      rw [hk] at hc
      exact Bool.noConfusion hc
    rcases hm.isLive.mp hl' with rfl | hl₁
    · rw [hm.kind?_new] at ha
      exact absurd (Option.some.inj ha) (by simp [Node.mark])
    rw [hm.kind?_old hl₁] at ha
    rcases hb.isLive.mp hl₁ with rfl | hl
    · rw [hb.kind?_new] at ha
      rw [Option.some.inj ha] at hc
      exact Bool.noConfusion hc
    rw [hb.kind?_old hl] at ha
    obtain ⟨e, o, c, p, name, hs⟩ := h.spanned ha
    have hs₁ := hs.built hb fun hk => absurd hk hclass
    exact ⟨e, o, c, p, name, hs₁.built hm fun hk => absurd hk (by simp [Node.mark])⟩
  | @supersede old ro r _ hold hco hc _ _ _ hs =>
    by_cases hn : a = g.next
    · rw [hn, hs.kind?_new] at ha
      rw [Option.some.inj ha] at hc
      exact Bool.noConfusion hc
    · obtain ⟨e, o, c, p, name, hspan⟩ := h.spanned (hs.kind?_old hn ha)
      exact ⟨e, o, _, _, name, hspan.superseded hs h.toRegular hold hco⟩
  | associate ha' =>
    rcases ha'.cases_live hl' with rfl | hend | hl
    · exact ⟨_, _, _, _, _, ha'.spans⟩
    · exact absurd (ha.symm.trans hend) (by simp)
    · rw [ha'.kind?_old hl] at ha
      obtain ⟨e, o, c, p, name, hs⟩ := h.spanned ha
      exact ⟨e, o, c, p, name, ha'.spans_old hs⟩

lemma regular_step (h : g.Regular) (hs : g.Step change g') : g'.Regular := by
  cases hs with
  | build ha _ hb => exact h.built ha hb
  | move hr ha hm => exact h.moved hr ha hm
  | edit hr ha _ he => exact h.edited hr ha he
  | delete hr hk => exact h.removed hr hk
  | force ha hc _ hb hm => exact h.forced ha hc hb hm
  | supersede hold hco hc hn ho he hs =>
    refine ⟨hs.coherent, hs.root_kind h hold hco, ?_, ?_⟩
    · intro m y hy
      by_cases hm : m = g.next
      · exact hs.proper_new h hold hco hc hn ho he (hm ▸ hy)
      · exact hs.proper_old h hold hco hc hm hy
    · exact fun hk hkc => hs.distinct h hold hco hc hn ho hk hkc
  | associate ha =>
    obtain ⟨_, _, _, _, hb₁, hb₂, hb₃⟩ := ha.built
    exact ((h.built ha.addable hb₁).built hb₂.addable hb₂.toBuilt).built hb₃.addable hb₃.toBuilt

lemma built (h : g.Sound) (ha : g.Addable r) (hj : r.kind.isJoint = false) (hb : g.Built r g') :
    g'.Sound :=
  ⟨h.toRegular.built ha hb, h.spanned_built hj hb⟩

lemma step (h : g.Sound) (hs : g.Step change g') : g'.Sound :=
  ⟨regular_step h.toRegular hs, h.spanned_step hs⟩

lemma steps (h : g.Sound) (hs : Steps P g g') : g'.Sound := by
  induction hs with
  | refl => exact h
  | step _ _ hs ih => exact ih.step hs

/-- A transitive relation between the graphs before and after holds of runs if it holds of the
permitted changes. -/
lemma relate {R : Graph → Graph → Prop} (h : g.Sound) (hs : Steps P g g') (hrefl : ∀ g, R g g)
    (htrans : ∀ {g₁ g₂ g₃}, R g₁ g₂ → R g₂ g₃ → R g₁ g₃)
    (hstep : ∀ {g₁ c g₂}, g₁.Sound → P g₁ c → g₁.Step c g₂ → R g₁ g₂) : R g g' := by
  induction hs with
  | refl => exact hrefl g
  | step hs hP hc ih => exact htrans ih (hstep (h.steps hs) hP hc)

end Sound

end Graph

end DeclGraph
