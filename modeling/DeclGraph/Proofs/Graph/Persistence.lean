import DeclGraph.Proofs.Graph.Association

/-! What changes never do: they give no handle to another element and turn no element into one of
another kind, and they leave packages where they are. -/

namespace DeclGraph

open DeclGraph.Graph

namespace Graph

variable {P : Graph → Change → Prop} {g g' : Graph} {n m p : NodeId} {k k' : NodeKind} {c : Change}

lemma Superseded.ages {old : NodeId} {ro r : Node} (h : g.Superseded old ro r g') : Ages g g' := by
  refine ⟨h.next.ge.trans' (Int.lt_succ g.next).le, fun m hmn hm => ?_⟩
  obtain ⟨y, hy⟩ := isLive_iff.mp hm
  exact (h.back hy).resolve_left hmn.ne

lemma Edited.ages {r r' : Node} (hr : g.node? n = some r) (h : g.Edited n r' g') : Ages g g' := by
  refine ⟨h.next.ge, fun m _ hm => ?_⟩
  obtain ⟨x, hx⟩ := isLive_iff.mp hm
  rw [h.node] at hx
  split_ifs at hx with hmn
  · exact hmn ▸ isLive_of_node? hr
  · exact isLive_of_node? hx

lemma Associated.ages {ra : Node} {c p : NodeId} {name : String} (h : g.Associated ra c p name g') : Ages g g' := by
  obtain ⟨_, _, _, _, hb₁, hb₂, hb₃⟩ := h.built
  exact (hb₁.ages.trans hb₂.ages).trans hb₃.ages

lemma Step.ages (hs : g.Step c g') : Ages g g' := by
  cases hs with
  | build _ _ hb _ => exact hb.ages
  | move _ _ hm _ => exact ⟨hm.next.ge, fun n _ hn => isLive_congr hm.node n ▸ hn⟩
  | edit hr _ _ he _ => exact he.ages hr
  | delete _ _ => exact ages_remove
  | force _ _ _ hb hm => exact hb.ages.trans hm.ages
  | supersede _ _ _ _ _ _ hs => exact hs.ages
  | associate ha => exact ha.ages

lemma Step.kind? (hs : g.Step c g') (hk : g.kind? m = some k) (hk' : g'.kind? m = some k') :
    k' = k := by
  have hl := isLive_of_kind? hk
  cases hs with
  | build _ _ hb =>
    rw [hb.kind?_old hl, hk] at hk'
    exact (Option.some.inj hk').symm
  | move _ _ hm =>
    rw [hm.kind?, hk] at hk'
    exact (Option.some.inj hk').symm
  | edit hr ha _ he =>
    rw [he.kind? hr ha.place.kind, hk] at hk'
    exact (Option.some.inj hk').symm
  | @delete n r hr hnp =>
    obtain ⟨y, hy, rfl⟩ := kind?_eq_some.mp hk'
    obtain ⟨hm, x, hx, rfl⟩ := node?_remove_eq_some.mp hy
    rw [kind?_eq hx] at hk
    exact Option.some.inj hk
  | force _ _ _ hb hm =>
    rw [hm.kind?_old (hb.live hl), hb.kind?_old hl, hk] at hk'
    exact (Option.some.inj hk').symm
  | supersede _ _ _ _ _ _ hs =>
    have := hs.kind?_of_live hl hk'
    exact Option.some.inj (this.symm.trans hk)
  | associate ha =>
    rw [ha.kind?_old hl, hk] at hk'
    exact (Option.some.inj hk').symm

lemma Steps.ages (hs : Steps P g g') : Ages g g' := by
  induction hs with
  | refl => exact Ages.refl g
  | step _ _ hc ih => exact ih.trans hc.ages

lemma Steps.kind? (hs : Steps P g g') (hk : g.kind? m = some k) (hk' : g'.kind? m = some k') :
    k' = k := by
  induction hs generalizing k' with
  | refl => exact Option.some.inj (hk'.symm.trans hk)
  | @step g₁ g₂ c hs _ hc ih =>
    have hn : m < g₁.next := (lt_next (isLive_of_kind? hk)).trans_le hs.ages.next
    obtain ⟨r, hr⟩ := isLive_iff.mp (hc.ages.live m hn (isLive_of_kind? hk'))
    rw [hc.kind? (kind?_eq hr) hk']
    exact ih (kind?_eq hr)

/-- The element `n` is there or was there once, and if it is, its kind has a property. -/
structure Once (g : Graph) (n : NodeId) (q : NodeKind → Prop) : Prop where
  old : n < g.next
  kind : ∀ {k}, g.kind? n = some k → q k

lemma once {q : NodeKind → Prop} (hk : g.kind? n = some k) (hq : q k) : g.Once n q :=
  ⟨lt_next (isLive_of_kind? hk), fun hk' => Option.some.inj (hk.symm.trans hk') ▸ hq⟩

namespace Once

variable {q q' : NodeKind → Prop}

lemma imp (h : g.Once n q) (hq : ∀ k, q k → q' k) : g.Once n q' :=
  ⟨h.old, fun hk => hq _ (h.kind hk)⟩

lemma steps (h : g.Once n q) (hs : Steps P g g') : g'.Once n q := by
  refine ⟨h.old.trans_le hs.ages.next, fun {k} hk => ?_⟩
  obtain ⟨r, hr⟩ := isLive_iff.mp (hs.ages.live n h.old (isLive_of_kind? hk))
  rw [hs.kind? (kind?_eq hr) hk]
  exact h.kind (kind?_eq hr)

end Once

/-- Packages stay. -/
lemma Sound.package_step (h : g.Sound) (hs : g.Step c g') (hp : g.kind? p = some k)
    (hk : k.isPackage = true) : g'.kind? p = some k := by
  have hl := isLive_of_kind? hp
  cases hs with
  | build _ _ hb => rw [hb.kind?_old hl, hp]
  | move _ _ hm => rw [hm.kind?, hp]
  | edit hr ha _ he => rw [he.kind? hr ha.place.kind, hp]
  | associate ha => rw [ha.kind?_old hl, hp]
  | @delete n r hr hnp =>
    rw [kind?_remove, hp]
    intro hd
    rcases h.doomedWith hd with hb | hu
    · obtain ⟨k', hk', hp'⟩ := h.isPackage_of_below hb hp hk
      rw [kind?_eq hr] at hk'
      rw [Option.some.inj hk', hp'] at hnp
      exact Bool.noConfusion hnp
    · have := hu hp
      rw [NodeKind.isDeclared, hk] at this
      exact Bool.noConfusion this
  | force _ _ _ hb hm => rw [hm.kind?_old (hb.live hl), hb.kind?_old hl, hp]
  | @supersede old ro r g' hold hco _ _ _ _ hs =>
    obtain ⟨x, hx, rfl⟩ := kind?_eq_some.mp hp
    have hne : p ≠ old := by
      rintro rfl
      obtain rfl := Option.some.inj (hx.symm.trans hold)
      revert hk hco
      cases x.kind <;> decide
    have ht : p ∉ ro.taggedValues := by
      intro ht
      have hkt := h.kind?_taggedValue hold ht
      rw [kind?_eq hx] at hkt
      rw [Option.some.inj hkt] at hk
      exact Bool.noConfusion hk
    obtain ⟨y, hy, hb, _⟩ := hs.stay hx hne ht
    rw [kind?_eq hy, (Node.bare_congr hb).1]
    rfl

lemma Sound.package_steps (h : g.Sound) (hs : Steps P g g') (hp : g.kind? p = some k)
    (hk : k.isPackage = true) : g'.kind? p = some k := by
  induction hs with
  | refl => exact hp
  | step hs _ hc ih => exact (h.steps hs).package_step hc ih hk

end Graph

end DeclGraph
