import DeclGraph.Graph.Export
import DeclGraph.Import.Resolution
import DeclGraph.Proofs.Graph.Rooting

/-! Walks along owners. In a rooted graph every way up ends, and no walk along it gives up before it
is there. -/

namespace DeclGraph

open DeclGraph.Graph

/-- A map that fails for no element of a list does not fail for the list. -/
lemma exists_mapM_eq_ok {ε α β : Type} {f : α → Except ε β} {xs : List α}
    (h : ∀ x ∈ xs, ∃ y, f x = .ok y) : ∃ ys, xs.mapM f = .ok ys := by
  induction xs with
  | nil => exact ⟨[], rfl⟩
  | cons x xs ih =>
    obtain ⟨y, hy⟩ := h x (by simp)
    obtain ⟨ys, hys⟩ := ih fun x hx => h x (by simp [hx])
    exact ⟨y :: ys, by rw [List.mapM_cons, hy, except_ok_bind, hys]; rfl⟩

/-- A selection that fails for no element of a list does not fail for the list. -/
lemma filterM_eq_ok {ε α : Type} {p : α → Except ε Bool} {q : α → Bool} {xs : List α}
    (h : ∀ x ∈ xs, p x = .ok (q x)) : xs.filterM p = .ok (xs.filter q) := by
  have aux : ∀ {xs acc : List α}, (∀ x ∈ xs, p x = .ok (q x)) →
      xs.filterAuxM p acc = .ok ((xs.filter q).reverse ++ acc) := by
    intro xs
    induction xs with
    | nil => intro acc _; rfl
    | cons x xs ih =>
      intro acc h
      rw [List.filterAuxM, h x (by simp), except_ok_bind, ih fun x hx => h x (by simp [hx])]
      cases hq : q x <;> simp [hq]
  rw [List.filterM, aux h, except_ok_bind, List.append_nil, List.reverse_reverse]
  rfl

namespace Graph

variable {g : Graph} {n m top : NodeId} {r : Node} {chain chain' : List NodeId} {steps : Nat}

/-- The elements from one up through its owners to one that has no owner. -/
inductive Ascends (g : Graph) : NodeId → List NodeId → Prop
  | top {n : NodeId} {r : Node} : g.node? n = some r → r.owner = none → Ascends g n [n]
  | up {n p : NodeId} {r : Node} {chain : List NodeId} : g.node? n = some r → r.owner = some p →
      Ascends g p chain → Ascends g n (n :: chain)

namespace Ascends

lemma unique (h : g.Ascends n chain) (h' : g.Ascends n chain') : chain = chain' := by
  induction h generalizing chain' with
  | top hr ho =>
    cases h' with
    | top => rfl
    | up hr' ho' => simp [← Option.some.inj (hr.symm.trans hr'), ho] at ho'
  | up hr ho _ ih =>
    cases h' with
    | top hr' ho' => simp [← Option.some.inj (hr.symm.trans hr'), ho] at ho'
    | up hr' ho' h' =>
      obtain rfl := Option.some.inj (hr.symm.trans hr')
      obtain rfl := Option.some.inj (ho.symm.trans ho')
      rw [ih h']

lemma suffix (h : g.Ascends n chain) (hm : m ∈ chain) :
    ∃ chain', chain' <:+ chain ∧ g.Ascends m chain' := by
  induction h with
  | top hr ho =>
    obtain rfl := List.mem_singleton.mp hm
    exact ⟨_, List.suffix_refl _, .top hr ho⟩
  | up hr ho h ih =>
    rcases List.mem_cons.mp hm with rfl | hm
    · exact ⟨_, List.suffix_refl _, .up hr ho h⟩
    · obtain ⟨chain', hs, h'⟩ := ih hm
      exact ⟨chain', hs.trans (List.suffix_cons _ _), h'⟩

/-- No element is met twice on the way up. -/
lemma nodup (h : g.Ascends n chain) : chain.Nodup := by
  induction h with
  | top => simp
  | @up n p r chain hr ho h ih =>
    refine List.nodup_cons.mpr ⟨fun hn => ?_, ih⟩
    obtain ⟨chain', hs, h'⟩ := h.suffix hn
    have hlen := hs.length_le
    rw [← (Ascends.up hr ho h).unique h', List.length_cons] at hlen
    omega

lemma live (h : g.Ascends n chain) : ∀ m ∈ chain, g.isLive m = true := by
  induction h with
  | top hr _ => simpa using isLive_of_node? hr
  | up hr _ _ ih => simpa using ⟨isLive_of_node? hr, ih⟩

lemma length_le (h : g.Ascends n chain) : chain.length ≤ g.slots.size := by
  have hsub : chain ⊆ g.handles := fun m hm => mem_handles.mpr (h.live m hm)
  have hlen : g.handles.length ≤ g.slots.size := by
    simpa [handles] using List.length_filter_le g.isLive ((List.range g.slots.size).map Int.ofNat)
  exact (h.nodup.subperm hsub).length_le.trans hlen

/-- Whether the profile package is met on the way up. -/
lemma inProfileWithin (h : g.Ascends n chain) (hs : chain.length ≤ steps) :
    g.inProfileWithin steps n = .ok (decide (profilePackage ∈ chain)) := by
  induction h generalizing steps with
  | @top n r hr ho =>
    obtain _ | steps := steps
    · simp at hs
    · rw [Graph.inProfileWithin]
      split_ifs with hn
      · simp [hn]
      · rw [get_of_node? hr, except_ok_bind, ho]
        simp [Ne.symm hn, pure, Except.pure]
  | @up n p r chain hr ho _ ih =>
    obtain _ | steps := steps
    · simp at hs
    · rw [Graph.inProfileWithin]
      split_ifs with hn
      · simp [hn]
      · rw [get_of_node? hr, except_ok_bind, ho]
        simp only [ih (Nat.le_of_succ_le_succ hs), List.mem_cons, Ne.symm hn, false_or]

/-- The namespaces around an element are those on the way up. -/
lemma namespacesWithin (hroot : ∀ {r}, g.node? root = some r → r.owner = none)
    (h : g.Ascends n chain) (hs : chain.length ≤ steps) : g.namespacesWithin steps n = .ok chain := by
  induction h generalizing steps with
  | @top n r hr ho =>
    obtain _ | steps := steps
    · simp at hs
    · rw [Graph.namespacesWithin]
      split_ifs with hn
      · rfl
      · simp [namespaceOf, get_of_node? hr, ho, pure, Except.pure]
  | @up n p r chain hr ho _ ih =>
    have hn : n ≠ root := by
      rintro rfl
      exact absurd ((hroot hr).symm.trans ho) (by simp)
    obtain _ | steps := steps
    · simp at hs
    · rw [Graph.namespacesWithin, if_neg hn]
      simp [namespaceOf, get_of_node? hr, ho, ih (Nat.le_of_succ_le_succ hs), pure, Except.pure]

/-- The outermost element on the way up is owned by the root or by nothing. -/
lemma outermostWithin (h : g.Ascends n chain) (hs : chain.length ≤ steps) :
    ∃ m ∈ chain, g.outermostWithin steps n = .ok m ∧
      ∀ {r}, g.node? m = some r → r.owner = none ∨ r.owner = some root := by
  induction h generalizing steps with
  | @top n r hr ho =>
    obtain _ | steps := steps
    · simp at hs
    · refine ⟨n, by simp, ?_, fun hr' => Or.inl (Option.some.inj (hr.symm.trans hr') ▸ ho)⟩
      simp [Graph.outermostWithin, namespaceOf, get_of_node? hr, ho, pure, Except.pure]
  | @up n p r chain hr ho _ ih =>
    obtain _ | steps := steps
    · simp at hs
    · by_cases hp : p = root
      · refine ⟨n, by simp, ?_, fun hr' => ?_⟩
        · simp [Graph.outermostWithin, namespaceOf, get_of_node? hr, ho, hp, pure, Except.pure]
        · exact Or.inr (Option.some.inj (hr.symm.trans hr') ▸ hp ▸ ho)
      · obtain ⟨m, hm, hrun, ho'⟩ := ih (Nat.le_of_succ_le_succ hs)
        refine ⟨m, List.mem_cons_of_mem _ hm, ?_, ho'⟩
        simp [Graph.outermostWithin, namespaceOf, get_of_node? hr, ho, hp, hrun]

end Ascends

/-- An element below one without owner has a way up that ends there. -/
lemma Below.ascends (h : g.Below top n) (hr : g.node? top = some r) (ho : r.owner = none) :
    ∃ chain, g.Ascends n chain ∧ chain.getLast? = some top := by
  induction h with
  | self => exact ⟨_, .top hr ho, rfl⟩
  | part _ hx hxo ih =>
    obtain ⟨chain, h, hlast⟩ := ih
    refine ⟨_, .up hx hxo h, ?_⟩
    rw [List.getLast?_cons, hlast]
    rfl

lemma Rooted.ascends (h : g.Rooted) (hg : g.Regular) (hr : g.node? n = some r)
    (hk : r.kind ≠ .elementResidence) : ∃ chain, g.Ascends n chain ∧
      (chain.getLast? = some root ∨ chain.getLast? = some profilePackage) := by
  rcases h.founded hr hk with hb | hb
  · obtain ⟨x, hx⟩ := isLive_iff.mp hg.root_live
    obtain ⟨chain, hc, hlast⟩ := hb.ascends hx (hg.root_owner hx)
    exact ⟨chain, hc, Or.inl hlast⟩
  · obtain ⟨x, hx, -, ho⟩ := h.profile
    obtain ⟨chain, hc, hlast⟩ := hb.ascends hx ho
    exact ⟨chain, hc, Or.inr hlast⟩

end Graph

end DeclGraph
