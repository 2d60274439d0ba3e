import DeclGraph.Proofs.Graph.Mutation

/-! What deleting an element removes and what it leaves of the rest. -/

namespace DeclGraph

open DeclGraph.Graph

/-- Deleting an element comes to an end, since the loops that look for what goes with it find nothing
more after as many turns as there are elements, and removes the least set that contains the element
and is closed under what goes along. Every other record stays as it is, but for the elements that are
gone: a type among them is dropped, and they are left out of the lists. -/
theorem delete_removes_least_closed {g : Graph} {n : NodeId} (hg : g.Intact)
    (hn : g.isLive n = true) :
    ∃ gone g', GraphM.delete n g = .ok () g' ∧
      (∀ steps rounds, g.size ≤ steps → g.size ≤ rounds → g.doomFor steps rounds [n] [] = gone) ∧
      (n ∈ gone ∧ g.DragClosed (· ∈ gone) ∧
        ∀ X : NodeId → Prop, X n → g.DragClosed X → ∀ m ∈ gone, X m) ∧
      (∀ m ∈ gone, g.isLive m = true) ∧
      (∀ m, g'.isLive m = true ↔ g.isLive m = true ∧ m ∉ gone) ∧
      (∀ m r, g.node? m = some r → m ∉ gone → g'.node? m = some { r with
        type := r.type.filter (· ∉ gone)
        stereotypes := r.stereotypes.filter (· ∉ gone)
        clients := r.clients.filter (· ∉ gone)
        suppliers := r.suppliers.filter (· ∉ gone)
        owned := r.owned.filter (· ∉ gone)
        features := r.features.filter (· ∉ gone)
        parameters := r.parameters.filter (· ∉ gone)
        connections := r.connections.filter (· ∉ gone)
        taggedValues := r.taggedValues.filter (· ∉ gone) }) ∧
      g'.next = g.next ∧ g'.profile = g.profile := by
  refine ⟨g.doomedWith n, g.remove (g.doomedWith n), GraphM.delete_ok hn, ?_, ?_, ?_, ?_, ?_, ?_,
    rfl⟩
  · intro steps rounds hs hr
    obtain ⟨steps', rfl⟩ := Nat.exists_eq_add_of_le hs
    obtain ⟨rounds', rfl⟩ := Nat.exists_eq_add_of_le hr
    exact hg.doomFor_of_le le_rfl (by simp) doomed_nil withParts_nil (by simpa using hn) _ _
  · exact ⟨self_mem_doomedWith hn, hg.doomedWith_closed hn,
      fun X hX hclosed m hm => doomedWith_subset hclosed hX hm⟩
  · exact fun m => doomedWith_live
  · exact fun m => isLive_remove
  · exact fun m r hr hm => node?_remove_eq_some.mpr ⟨hm, r, hr, rfl⟩
  · exact next_remove _

/-- With a class go its association and the ends of that. The class at the other end stays, and so
does its attribute, which loses its type. -/
theorem delete_removes_least_closed_of_class :
    let calls : List Mutation := [.create .classType (some "A") (some root),
      .create .classType (some "B") (some root), .buildAssociation 4 true 5 false none,
      .buildAttribute 5 (some 4) (some "x")]
    let g := Mutation.applyAll calls (.new "m" ⟨"p", ["long"], []⟩)
    g.Intact ∧ g.isLive 4 = true ∧ ∃ g', GraphM.delete 4 g = .ok () g' ∧
      (∀ m ∈ g.handles, g'.isLive m = true ↔ m ∉ [4, 6, 7, 8]) ∧
      g'.node? 9 = some { kind := .attr, name := some "x", owner := some 5 } := by
  intro calls g
  have ha : Mutation.Admissible (.new "m" ⟨"p", ["long"], []⟩) calls := by decide +kernel
  have hg : g.Intact := (Mutation.grown_applyAll (coherent_new _ _) calls ha).coherent.intact
  have hn : g.isLive 4 = true := by decide +kernel
  have hset : g.doomFor g.size g.size [4] [] = [8, 7, 6, 4] := by decide +kernel
  have hx : g.node? 9 = some { kind := .attr, name := some "x", owner := some 5, type := some 4 } :=
    by decide +kernel
  clear_value g
  obtain ⟨gone, g', hrun, hgone, -, -, hlive, hrest, -⟩ := delete_removes_least_closed hg hn
  obtain rfl : gone = [8, 7, 6, 4] := (hgone _ _ le_rfl le_rfl).symm.trans hset
  refine ⟨hg, hn, g', hrun, fun m hm => ?_, (hrest 9 _ hx (by decide)).trans (by decide)⟩
  rw [hlive, and_iff_right (mem_handles.mp hm)]
  simp only [List.mem_cons, List.not_mem_nil, or_false]
  tauto

end DeclGraph
