import DeclGraph.Graph.Ownership

/-!
Deletion. With an element goes everything that cannot be without it: its parts, the association of
an end, the edges that lose an endpoint, and the associations with an end typed by it. What
goes with an element is searched for in two loops: one follows parts, and when it comes to an end,
the other looks for what depends on the elements found so far.
-/

namespace DeclGraph

namespace Node

/-- The elements that go with an element as its parts. An association end takes its association
along. -/
def dependentParts (r : Node) : List NodeId :=
  r.parts ++ if r.kind = .associationEnd then r.association.toList else []

/-- Whether all of a nonempty list of endpoints are among the doomed. -/
def allDoomed (doomed : List NodeId) (ns : List NodeId) : Bool :=
  !ns.isEmpty && ns.all (· ∈ doomed)

/-- Whether an optional endpoint is among the doomed. -/
def isDoomed (doomed : List NodeId) (n : Option NodeId) : Bool :=
  n.any (· ∈ doomed)

/-- Whether an edge cannot stay when the doomed elements go. -/
def dangles (r : Node) (doomed : List NodeId) : Bool :=
  match r.kind with
  | .generalization => isDoomed doomed r.general || isDoomed doomed r.specific
  | .dependency | .abstraction => allDoomed doomed r.clients || allDoomed doomed r.suppliers
  | .elementResidence => isDoomed doomed r.resident || isDoomed doomed r.container
  | _ => false

/-- The record without its references to doomed elements. -/
def forget (r : Node) (doomed : List NodeId) : Node :=
  let keep : List NodeId → List NodeId := fun ns => ns.filter (· ∉ doomed)
  { r with
    type := r.type.filter (· ∉ doomed)
    stereotypes := keep r.stereotypes
    clients := keep r.clients
    suppliers := keep r.suppliers
    owned := keep r.owned
    features := keep r.features
    parameters := keep r.parameters
    connections := keep r.connections
    taggedValues := keep r.taggedValues }

end Node

namespace Graph

/-- The association of an end that is typed by a doomed element. -/
def associationLost (r : Node) (doomed : List NodeId) : Option NodeId :=
  if r.kind = .associationEnd && Node.isDoomed doomed r.type then r.association else none

/-- What goes with an element as its parts. -/
def partsOf (g : Graph) (n : NodeId) : List NodeId :=
  (g.node? n).elim [] (·.dependentParts)

/-- Dooms pending elements one after the other, each with its parts, for a number of steps. What is
doomed already or gone is passed over. -/
def doomParts (g : Graph) : Nat → List NodeId → List NodeId → List NodeId
  | 0, _, doomed => doomed
  | steps + 1, pending, doomed =>
    match pending.dropWhile fun n => n ∈ doomed || !g.isLive n with
    | [] => doomed
    | n :: pending => g.doomParts steps (g.partsOf n ++ pending) (n :: doomed)

/-- What else cannot stay when the doomed elements go: the edges that lose an endpoint, and the
associations with an end that loses its type. -/
def dependents (g : Graph) (doomed : List NodeId) : List NodeId :=
  (g.entries.filter (·.1 ∉ doomed)).filterMap fun (n, r) =>
    if r.dangles doomed then some n else associationLost r doomed

/-- Dooms pending elements with their parts, and then what depends on them, for a number of rounds
of so many steps, until nothing is pending. -/
def doomFor (g : Graph) (steps : Nat) : Nat → List NodeId → List NodeId → List NodeId
  | _, [], doomed => doomed
  | 0, _, doomed => doomed
  | rounds + 1, pending, doomed =>
    let doomed := g.doomParts steps pending doomed
    g.doomFor steps rounds ((g.dependents doomed).filter (· ∉ doomed)) doomed

/-- All elements that go with an element. Every step dooms one more, and so does every round, so
there are no more of them than elements. -/
def doomedWith (g : Graph) (n : NodeId) : List NodeId :=
  g.doomFor g.size g.size [n] []

/-- Takes elements out of the graph, and the references to them out of what stays. -/
def remove (g : Graph) (doomed : List NodeId) : Graph :=
  { g with
    slots := g.slots.mapIdx fun i r =>
      if (i : NodeId) ∈ doomed then none else r.map (·.forget doomed) }

end Graph

/-- Deletes an element with everything that cannot be without it. -/
def GraphM.delete (n : NodeId) : GraphM Unit := do
  let _ ← get n
  modify fun g => g.remove (g.doomedWith n)

end DeclGraph
