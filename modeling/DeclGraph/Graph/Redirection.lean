import DeclGraph.Graph.Property

/-!
Redirection: one element takes the place of another in all edges, and takes over its parts and
stereotypes. Tagged values stay with the element that has them.
-/

namespace DeclGraph

/-- The references of a record to one element turned to another. -/
def Node.redirect (r : Node) (old new : NodeId) : Node :=
  let turn : NodeId → NodeId := fun n => if n = old then new else n
  { r with
    type := r.type.map turn
    general := r.general.map turn
    specific := r.specific.map turn
    resident := r.resident.map turn
    container := r.container.map turn
    clients := r.clients.map turn
    suppliers := r.suppliers.map turn }

namespace GraphM

/-- The lists whose parts move along with the references. -/
def movedSlots : List Slot := [.owned, .features, .parameters, .connections]

/-- Turns every reference to `old` into one to `new` and moves parts and stereotypes over. -/
def replaceReferences (old new : NodeId) : GraphM Unit := do
  let r ← get old
  let _ ← get new
  modify (·.mapNodes fun n r => if n = old then r else r.redirect old new)
  for slot in movedSlots do
    for part in r.children slot do
      setNamespace part (some new)
  for st in r.stereotypes do
    addStereotype new st

end GraphM

end DeclGraph
