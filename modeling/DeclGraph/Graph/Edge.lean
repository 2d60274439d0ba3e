import DeclGraph.Graph.Property

/-!
Edges between elements: generalizations from child to parent, dependencies from client to
supplier, associations with an end at each side, and the residence of a classifier in a component.
-/

namespace DeclGraph

namespace Graph

def generalOf (g : Graph) (n : NodeId) : Except GraphFault (Option NodeId) :=
  (·.general) <$> g.get n
def specificOf (g : Graph) (n : NodeId) : Except GraphFault (Option NodeId) :=
  (·.specific) <$> g.get n
def clientsOf (g : Graph) (n : NodeId) : Except GraphFault (List NodeId) :=
  (·.clients) <$> g.get n
def suppliersOf (g : Graph) (n : NodeId) : Except GraphFault (List NodeId) :=
  (·.suppliers) <$> g.get n
def connectionsOf (g : Graph) (n : NodeId) : Except GraphFault (List NodeId) :=
  (·.connections) <$> g.get n
def associationOf (g : Graph) (n : NodeId) : Except GraphFault (Option NodeId) :=
  (·.association) <$> g.get n

/-- The generalizations with a given child. -/
def generalizationsOf (g : Graph) (child : NodeId) : List NodeId :=
  g.select fun r => r.kind = .generalization && r.specific = some child

/-- The first generalization from a child to a parent. -/
def generalizationBetween? (g : Graph) (child parent : NodeId) : Option NodeId :=
  g.findIn (g.generalizationsOf child) (·.general = some parent)

/-- The dependencies with a given client. -/
def clientDependencies (g : Graph) (client : NodeId) : Except GraphFault (List NodeId) := do
  let _ ← g.get client
  return g.select fun r => r.kind.isDependency && client ∈ r.clients

/-- The dependencies from a client to a supplier. -/
def dependenciesBetween (g : Graph) (supplier client : NodeId) :
    Except GraphFault (List NodeId) := do
  return g.selectIn (← g.clientDependencies client) (supplier ∈ ·.suppliers)

/-- The association ends typed by a classifier. -/
def associationEnds (g : Graph) (classifier : NodeId) : Except GraphFault (List NodeId) := do
  let _ ← g.get classifier
  return g.select fun r => r.kind = .associationEnd && r.type = some classifier

/-- The end at the other side of an end's association. -/
def nextEnd? (g : Graph) (n : NodeId) : Except GraphFault (Option NodeId) := do
  match (← g.get n).association with
  | none => return none
  | some association => return (← g.follow association).connections.find? (· ≠ n)

/-- The first end of an association that is typed by a classifier. -/
def associationEnd? (g : Graph) (classifier association : NodeId) :
    Except GraphFault (Option NodeId) := do
  g.followFirst (·.type = some classifier) (← g.connectionsOf association)

/-- The residences of an element. -/
def elementResidences (g : Graph) (n : NodeId) : Except GraphFault (List NodeId) := do
  let _ ← g.get n
  return g.select fun r => r.kind = .elementResidence && r.resident = some n

/-- What resides in a component. -/
def residentsOf (g : Graph) (container : NodeId) : List NodeId :=
  g.entries.filterMap fun (_, r) =>
    if r.kind = .elementResidence && r.container = some container then r.resident else none

end Graph

namespace GraphM

/-- Builds a generalization beside the child. -/
def buildGeneralization (child parent : NodeId) : GraphM NodeId := do
  let _ ← get parent
  let n ← create .generalization none (← query (·.namespaceOf child))
  modify (·.modify n ({ · with specific := some child, general := some parent }))
  return n

/-- Builds a dependency of the given kind beside the client. -/
def buildDependency (client supplier : NodeId) (kind : NodeKind) (name : Option String) :
    GraphM NodeId := do
  if !kind.isDependency then throw (.notDependency kind)
  let _ ← get supplier
  let n ← create kind name (← query (·.namespaceOf client))
  modify (·.modify n fun r =>
    { r with clients := r.clients ++ [client], suppliers := r.suppliers ++ [supplier] })
  return n

/-- Takes a client from a dependency. A dependency without clients is deleted. -/
def removeClientDependency (client dependency : NodeId) : GraphM Unit := do
  update dependency fun r => { r with clients := r.clients.erase client }
  if (← get dependency).clients.isEmpty then delete dependency

/-- Builds an end of an association. -/
def buildEnd (association type : NodeId) (isNavigable : Bool) : GraphM Unit := do
  let n ← create .associationEnd none (some association)
  modify (·.modify n ({ · with association := some association, isNavigable }))
  setType n (some type)

/-- Builds an association beside the source, with an end typed by the target and then one typed by
the source. -/
def buildAssociation (target : NodeId) (targetNavigable : Bool) (source : NodeId)
    (sourceNavigable : Bool) (name : Option String) : GraphM NodeId := do
  let n ← create .association name (← query (·.namespaceOf source))
  buildEnd n target targetNavigable
  buildEnd n source sourceNavigable
  return n

/-- Places an element in a component. Residences have no owner. -/
def buildResidence (resident container : NodeId) : GraphM NodeId := do
  let _ ← get resident
  let _ ← get container
  let n ← add .elementResidence none
  modify (·.modify n ({ · with resident := some resident, container := some container }))
  return n

end GraphM

end DeclGraph
