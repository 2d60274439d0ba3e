import DeclGraph.Graph.Node
import DeclGraph.Profile

/-!
The model graph: a table of records under handles. Handles are given out in increasing order and
never again; the record of a deleted element leaves an empty place behind. Operations that change
a graph run in `GraphM`, whose failures keep the changes made before them.
-/

namespace DeclGraph

/-- Why the graph refuses an operation. -/
inductive GraphFault where
  /-- The handle was never given out, or its element was deleted. -/
  | unknownHandle (node : NodeId)
  /-- A record refers to an element that is gone. -/
  | missingRecord (node : NodeId)
  | notStereotype (node : NodeId)
  | notDependency (kind : NodeKind)
  | notParameterOf (parameter operation : NodeId)
  deriving DecidableEq, Repr

def GraphFault.message : GraphFault → String
  | .unknownHandle n => "unknown or deleted model element handle " ++ toString n
  | .missingRecord n => toString n
  | .notStereotype n => "element " ++ toString n ++ " is not a stereotype"
  | .notDependency k => k.label.toUpper ++ " is not a dependency kind"
  | .notParameterOf p op =>
    "parameter " ++ toString p ++ " does not belong to operation " ++ toString op

/-- A model graph. The record under handle `n` is at index `n`; index zero is never used. -/
structure Graph where
  slots : Array (Option Node)
  profile : Profile
  deriving DecidableEq, Repr

/-- Changes of a graph. -/
abbrev GraphM := EStateM GraphFault Graph

namespace Graph

/-- The root of the model. -/
def root : NodeId := 1

/-- The package that holds what the profile brings along. It is not owned by the root. -/
def profilePackage : NodeId := 2

/-- The record under a handle, if its element is live. -/
def node? (g : Graph) : NodeId → Option Node
  | .ofNat i => g.slots[i]?.join
  | .negSucc _ => none

/-- Whether a handle names a live element. -/
def isLive (g : Graph) (n : NodeId) : Bool := (g.node? n).isSome

/-- The handles of the live elements, in increasing order. -/
def handles (g : Graph) : List NodeId :=
  ((List.range g.slots.size).map Int.ofNat).filter g.isLive

/-- The live elements with their records, in increasing order of handles. -/
def entries (g : Graph) : List (NodeId × Node) :=
  g.handles.filterMap fun n => (g.node? n).map (n, ·)

/-- The number of live elements. -/
def size (g : Graph) : Nat := g.handles.length

/-- The record of a live element. -/
def get (g : Graph) (n : NodeId) : Except GraphFault Node :=
  match g.node? n with
  | some r => .ok r
  | none => .error (.unknownHandle n)

/-- Changes the record under a handle, if there is one. -/
def modify (g : Graph) (n : NodeId) (f : Node → Node) : Graph :=
  { g with slots := g.slots.modify n.toNat fun r => if 0 ≤ n then r.map f else r }

/-- Changes every record. -/
def mapNodes (g : Graph) (f : NodeId → Node → Node) : Graph :=
  { g with slots := g.slots.mapIdx fun i r => r.map (f i) }

/-- Adds an element without owner under the next handle. -/
def add (g : Graph) (r : Node) : NodeId × Graph :=
  (g.slots.size, { g with slots := g.slots.push (some r) })

/-- The live elements whose record has a property, in increasing order of handles. -/
def select (g : Graph) (p : Node → Bool) : List NodeId :=
  g.handles.filter fun n => (g.node? n).any p

/-- The first handle of a list whose record has a property. -/
def findIn (g : Graph) (ns : List NodeId) (p : Node → Bool) : Option NodeId :=
  ns.find? fun n => (g.node? n).any p

/-- The handles of a list whose record has a property. -/
def selectIn (g : Graph) (ns : List NodeId) (p : Node → Bool) : List NodeId :=
  ns.filter fun n => (g.node? n).any p

/-- The record that a reference in another record leads to. -/
def follow (g : Graph) (n : NodeId) : Except GraphFault Node :=
  match g.node? n with
  | some r => .ok r
  | none => .error (.missingRecord n)

/-- The first of some references that leads to a record with a property. Those after it are not
followed. -/
def followFirst (g : Graph) (p : Node → Bool) : List NodeId → Except GraphFault (Option NodeId)
  | [] => .ok none
  | n :: ns => do
    if p (← g.follow n) then return some n
    g.followFirst p ns

/-- The references that lead to a record with a property. -/
def followAll (g : Graph) (p : Node → Bool) : List NodeId → Except GraphFault (List NodeId)
  | [] => .ok []
  | n :: ns => do
    let r ← g.follow n
    let rest ← g.followAll p ns
    return if p r then n :: rest else rest

end Graph

namespace GraphM

/-- Reads from the graph. -/
def query {α : Type} (f : Graph → Except GraphFault α) : GraphM α := fun g =>
  match f g with
  | .ok a => .ok a g
  | .error e => .error e g

/-- The record of a live element. -/
def get (n : NodeId) : GraphM Node := query (·.get n)

/-- Changes the record of a live element. -/
def update (n : NodeId) (f : Node → Node) : GraphM Unit := do
  let _ ← get n
  modify (·.modify n f)

/-- Adds an element without owner. -/
def add (kind : NodeKind) (name : Option String) : GraphM NodeId := fun g =>
  let (n, g') := g.add { kind, name }
  .ok n g'

end GraphM

end DeclGraph
