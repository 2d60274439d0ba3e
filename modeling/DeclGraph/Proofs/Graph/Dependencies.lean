import DeclGraph.Proofs.Graph.Groundwork

/-! The dependencies of a graph, in the order in which they were made. Describing elements and laying
groundwork makes none and takes none away. -/

namespace DeclGraph

open DeclGraph.Graph

namespace Graph

variable {g g' : Graph} {n : NodeId} {r : Node}

/-- The dependencies, abstractions among them. -/
def dependencies (g : Graph) : List NodeId := g.select (·.kind.isDependency)

lemma mem_dependencies :
    n ∈ g.dependencies ↔ (g.node? n).any (·.kind.isDependency) = true := by
  rw [dependencies, mem_select, Option.any_eq_true]

lemma sorted_dependencies (g : Graph) : g.dependencies.Pairwise (· < ·) :=
  List.Pairwise.filter _ g.handles_increasing

lemma lt_next_of_mem_dependencies (h : n ∈ g.dependencies) : n < g.next := by
  obtain ⟨r, hr, -⟩ := mem_select.mp h
  exact lt_next (isLive_of_node? hr)

/-- In their order, dependencies are told apart by which they are. -/
lemma dependencies_eq {ns : List NodeId} (hns : ns.Pairwise (· < ·))
    (h : ∀ n, (g.node? n).any (·.kind.isDependency) = true ↔ n ∈ ns) : g.dependencies = ns :=
  (sorted_dependencies g).eq_of_mem_iff hns fun n => mem_dependencies.trans (h n)

/-- No dependency has come or gone. -/
structure SameDependencies (g g' : Graph) : Prop where
  next : g.next ≤ g'.next
  dependencies : g'.dependencies = g.dependencies

lemma SameDependencies.of_node (hnext : g.next ≤ g'.next)
    (h : ∀ n, (g'.node? n).any (·.kind.isDependency) = (g.node? n).any (·.kind.isDependency)) :
    g.SameDependencies g' := by
  refine ⟨hnext, dependencies_eq (sorted_dependencies g) fun n => ?_⟩
  rw [h, mem_dependencies]

instance : Tolerates SameDependencies where
  refl g := ⟨le_rfl, rfl⟩
  trans _ _ _ h h' := ⟨h.next.trans h'.next, h'.dependencies.trans h.dependencies⟩
  add g r hk := by
    refine .of_node (by simp) fun n => ?_
    have hother : r.kind.isDependency = false := by
      revert hk
      cases r.kind <;> decide
    rw [node?_add]
    split_ifs with hn
    · have hdead : g.node? n = none := node?_of_not_isLive fun hl => ne_next hl hn
      simp [hdead, hother]
    · rfl
  modify g n f hf := by
    refine .of_node (by simp) fun m => ?_
    rw [node?_modify]
    split_ifs
    · cases g.node? m with
      | none => rfl
      | some r => simp [(hf r).kind]
    · rfl

/-- A new dependency comes last. -/
lemma Built.dependencies (h : g.Built r g') (hk : r.kind.isDependency = true) :
    g'.dependencies = g.dependencies ++ [g.next] := by
  apply dependencies_eq
  · refine List.pairwise_append.mpr ⟨sorted_dependencies g, List.pairwise_singleton _ _, ?_⟩
    intro n hn m hm
    rw [List.mem_singleton.mp hm]
    exact lt_next_of_mem_dependencies hn
  · intro n
    rw [List.mem_append, List.mem_singleton, mem_dependencies, h.node]
    by_cases hn : n = g.next
    · simp [hn, hk]
    · cases g.node? n with
      | none => simp [hn]
      | some x =>
        have hkind : (x.attach r.kind.slot g.next).kind = x.kind :=
          (Node.bare_congr (Node.bare_attach ..)).1
        by_cases ho : r.owner = some n <;> simp [hn, ho, hkind]

end Graph

end DeclGraph
