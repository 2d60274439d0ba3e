import DeclGraph.Import.Replay
import DeclGraph.Proofs.Graph.Refusal

/-! What an import asks of a graph is answered or refused, too. -/

namespace DeclGraph

namespace Graph

variable {g : Graph} {n : NodeId}

instance refuses_isPlaceholder : Refuses g (g.isPlaceholder n) := by
  unfold isPlaceholder
  infer_instance

instance refuses_importAmong? (deps : List NodeId) : Refuses g (g.importAmong? deps) := by
  induction deps with
  | nil => exact refuses_ok none
  | cons dep deps ih =>
    unfold importAmong?
    infer_instance

instance refuses_component? (name : Option String) : Refuses g (g.component? n name) := by
  unfold component?
  infer_instance

instance refuses_isConstructor (returnType name : Option String) :
    Refuses g (g.isConstructor n returnType name) := by
  unfold isConstructor
  cases returnType <;> dsimp only <;> infer_instance

instance refuses_namespacesWithin (steps : Nat) : Refuses g (g.namespacesWithin steps n) := by
  induction steps generalizing n with
  | zero => exact refuses_ok []
  | succ steps ih =>
    unfold namespacesWithin
    have : Refuses g (do
        match ← g.namespaceOf n with
        | none => return [n]
        | some owner => return n :: (← g.namespacesWithin steps owner)) :=
      .found refuses_namespaceOf inferInstance inferInstance
    exact refuses_ite

instance refuses_scopeNamespaces (s : ScopeStack) : Refuses g (g.scopeNamespaces s) := by
  unfold scopeNamespaces
  infer_instance

instance refuses_searchNamespaces (simple : String) (mode : ResolveMode) (ns : List NodeId) :
    Refuses g (g.searchNamespaces simple mode ns) := by
  induction ns with
  | nil => exact refuses_ok none
  | cons n ns ih =>
    unfold searchNamespaces
    refine .bind inferInstance fun owned => ?_
    cases g.findIn owned (fits simple mode) <;> dsimp only <;> infer_instance

instance refuses_searchClassifiers (simple : String) (mode : ResolveMode) (ns : List NodeId) :
    Refuses g (g.searchClassifiers simple mode ns) := by
  induction ns with
  | nil => exact refuses_ok none
  | cons n ns ih =>
    unfold searchClassifiers
    infer_instance

instance refuses_lookup (chain : ContextChain) (simple : String) (mode : ResolveMode) :
    Refuses g (g.lookup chain simple mode) := by
  unfold lookup
  exact .found inferInstance inferInstance inferInstance

end Graph

namespace GraphM

variable {n : NodeId}

instance sure_addDocumentation (doc : Option String) : Sure (addDocumentation n doc) := by
  unfold addDocumentation
  cases doc.bind DocComment.clean <;> dsimp only <;> infer_instance

end GraphM

end DeclGraph
