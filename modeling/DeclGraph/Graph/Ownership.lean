import DeclGraph.Graph.Basic

/-!
Ownership. Every element has at most one owner, which keeps it in the list that its kind selects;
changing the owner changes both lists. A new graph holds the root, the profile package and what
the profile brings along.
-/

namespace DeclGraph

namespace Node

/-- Adds a part at the end of a list unless it is there. -/
def attach (r : Node) (slot : Slot) (part : NodeId) : Node :=
  if part ∈ r.children slot then r else r.setChildren slot (r.children slot ++ [part])

/-- Takes a part out of a list. -/
def detach (r : Node) (slot : Slot) (part : NodeId) : Node :=
  r.setChildren slot ((r.children slot).erase part)

end Node

namespace GraphM

/-- Moves an element under another owner, at the end of its list, or leaves it without owner. The
element leaves its present owner even if the new one turns out not to be live. -/
def setNamespace (n : NodeId) (namespace? : Option NodeId) : GraphM Unit := do
  let r ← get n
  let slot := r.kind.slot
  if let some owner := r.owner then
    modify (·.modify owner (·.detach slot n))
  modify (·.modify n ({ · with owner := namespace? }))
  if let some owner := namespace? then
    update owner (·.attach slot n)

/-- Adds an element, in a namespace if one is given. -/
def create (kind : NodeKind) (name : Option String) (namespace? : Option NodeId) :
    GraphM NodeId := do
  let n ← add kind name
  if namespace?.isSome then setNamespace n namespace?
  return n

/-- Adds what a profile brings along. -/
def installProfile (profile : Profile) : GraphM Unit := do
  let package ← add .package (some profile.name)
  for name in profile.datatypes do
    let _ ← create .dataType (some name) (some package)
  for st in profile.stereotypes do
    let n ← create .stereotype (some st.name) (some package)
    modify (·.modify n ({ · with baseClasses := st.baseClasses }))

end GraphM

namespace Graph

/-- A graph with a root of the given name and what the profile brings along. -/
def new (name : String) (profile : Profile) : Graph :=
  let bare : Graph := ⟨#[none, some { kind := .model, name := some name }], profile⟩
  match GraphM.installProfile profile bare with
  | .ok _ g | .error _ g => g

/-- The name of the root unless another is asked for. -/
def defaultName : String := "untitledModel"

def empty : Graph := new defaultName .idl

def kindOf (g : Graph) (n : NodeId) : Except GraphFault NodeKind := (·.kind) <$> g.get n
def nameOf (g : Graph) (n : NodeId) : Except GraphFault (Option String) := (·.name) <$> g.get n
def namespaceOf (g : Graph) (n : NodeId) : Except GraphFault (Option NodeId) :=
  (·.owner) <$> g.get n
def isClassifier (g : Graph) (n : NodeId) : Except GraphFault Bool :=
  (·.kind.isClassifier) <$> g.get n
def ownedElements (g : Graph) (n : NodeId) : Except GraphFault (List NodeId) :=
  (·.owned) <$> g.get n

/-- The first owned element of a name. -/
def lookupIn (g : Graph) (n : NodeId) (name : Option String) :
    Except GraphFault (Option NodeId) := do
  g.followFirst (·.name = name) (← g.ownedElements n)

/-- The first owned element of a kind and name. -/
def childOfKind? (g : Graph) (n : NodeId) (name : Option String) (kind : NodeKind) :
    Except GraphFault (Option NodeId) := do
  return g.findIn (← g.ownedElements n) fun r => r.kind = kind && r.name = name

/-- The first owned classifier of a name. -/
def classifier? (g : Graph) (n : NodeId) (name : Option String) :
    Except GraphFault (Option NodeId) := do
  return g.findIn (← g.ownedElements n) fun r => r.name = name && r.kind.isClassifier

def innerClassifiers (g : Graph) (n : NodeId) : Except GraphFault (List NodeId) := do
  g.followAll (·.kind.isClassifier) (← g.ownedElements n)

/-- Whether the owners of an element lead to the profile package, followed for `steps` steps. -/
def inProfileWithin (g : Graph) : Nat → NodeId → Except GraphFault Bool
  | 0, _ => .ok false
  | steps + 1, n =>
    if n = profilePackage then .ok true
    else do
      match (← g.get n).owner with
      | none => return false
      | some owner => g.inProfileWithin steps owner

/-- Whether an element is the profile package or lies in it. Owners form no circle, so they end
after at most as many steps as there are places in the table. -/
def inProfile (g : Graph) (n : NodeId) : Except GraphFault Bool :=
  g.inProfileWithin (g.slots.size + 1) n

end Graph

end DeclGraph
