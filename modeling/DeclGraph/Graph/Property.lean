import DeclGraph.Graph.Deletion

/-!
Plain properties of elements, their stereotypes and their tagged values.
-/

namespace DeclGraph

namespace Graph

def visibilityOf (g : Graph) (n : NodeId) : Except GraphFault (Option Visibility) :=
  (·.visibility) <$> g.get n
def isPublic (g : Graph) (n : NodeId) : Except GraphFault Bool :=
  (fun r => r.visibility = some .pub) <$> g.get n
def multiplicityOf (g : Graph) (n : NodeId) : Except GraphFault (Option String) :=
  (·.multiplicity) <$> g.get n
def initialValueOf (g : Graph) (n : NodeId) : Except GraphFault (Option String) :=
  (·.initialValue) <$> g.get n
def typeOf (g : Graph) (n : NodeId) : Except GraphFault (Option NodeId) := (·.type) <$> g.get n
def directionOf (g : Graph) (n : NodeId) : Except GraphFault (Option Direction) :=
  (·.direction) <$> g.get n
def isAbstract (g : Graph) (n : NodeId) : Except GraphFault Bool := (·.isAbstract) <$> g.get n
def isLeaf (g : Graph) (n : NodeId) : Except GraphFault Bool := (·.isLeaf) <$> g.get n
def isReadOnly (g : Graph) (n : NodeId) : Except GraphFault Bool := (·.isReadOnly) <$> g.get n
def isNavigable (g : Graph) (n : NodeId) : Except GraphFault Bool := (·.isNavigable) <$> g.get n
def stereotypesOf (g : Graph) (n : NodeId) : Except GraphFault (List NodeId) :=
  (·.stereotypes) <$> g.get n
def baseClassesOf (g : Graph) (n : NodeId) : Except GraphFault (List String) :=
  (·.baseClasses) <$> g.get n

/-- Whether one of the stereotypes of an element has the given name. -/
def hasStereotype (g : Graph) (n : NodeId) (name : String) : Except GraphFault Bool := do
  return (← g.followFirst (·.name = some name) (← g.stereotypesOf n)).isSome

/-- The tagged value of an element for a tag, as an element. -/
def taggedValueNode? (g : Graph) (n : NodeId) (tag : String) :
    Except GraphFault (Option NodeId) := do
  g.followFirst (·.name = some tag) (← g.get n).taggedValues

/-- The text that an element carries for a tag. -/
def taggedValue? (g : Graph) (n : NodeId) (tag : String) :
    Except GraphFault (Option String) := do
  return (← g.taggedValueNode? n tag).bind fun tv => (g.node? tv).bind (·.value)

end Graph

namespace GraphM

def setName (n : NodeId) (name : Option String) : GraphM Unit :=
  update n ({ · with name })
def setVisibility (n : NodeId) (visibility : Visibility) : GraphM Unit :=
  update n ({ · with visibility := some visibility })
def setMultiplicity (n : NodeId) (multiplicity : Option String) : GraphM Unit :=
  update n ({ · with multiplicity })
def setInitialValue (n : NodeId) (initialValue : Option String) : GraphM Unit :=
  update n ({ · with initialValue })
def setAbstract (n : NodeId) (isAbstract : Bool) : GraphM Unit :=
  update n ({ · with isAbstract })
def setLeaf (n : NodeId) (isLeaf : Bool) : GraphM Unit :=
  update n ({ · with isLeaf })
def setRoot (n : NodeId) (isRoot : Bool) : GraphM Unit :=
  update n ({ · with isRoot })
def setReadOnly (n : NodeId) (isReadOnly : Bool) : GraphM Unit :=
  update n ({ · with isReadOnly })
def setNavigable (n : NodeId) (isNavigable : Bool) : GraphM Unit :=
  update n ({ · with isNavigable })

/-- Sets the type of an element, which has to be live. -/
def setType (n : NodeId) (type : Option NodeId) : GraphM Unit := do
  if let some t := type then
    let _ ← get t
  update n ({ · with type })

/-- Applies a stereotype, once. -/
def addStereotype (n stereotype : NodeId) : GraphM Unit := do
  if (← get stereotype).kind ≠ .stereotype then throw (.notStereotype stereotype)
  update n fun r =>
    if stereotype ∈ r.stereotypes then r
    else { r with stereotypes := r.stereotypes ++ [stereotype] }

/-- Adds a metaclass to those a stereotype extends, once. -/
def addBaseClass (stereotype : NodeId) (baseClass : String) : GraphM Unit :=
  update stereotype fun r =>
    if baseClass ∈ r.baseClasses then r
    else { r with baseClasses := r.baseClasses ++ [baseClass] }

/-- Sets the text that an element carries for a tag; gives the tagged value. -/
def setTaggedValue (n : NodeId) (tag value : String) : GraphM NodeId := do
  let tv ← match ← query (·.taggedValueNode? n tag) with
    | some tv => pure tv
    | none => create .taggedValue (some tag) (some n)
  modify (·.modify tv ({ · with value := some value }))
  return tv

/-- Deletes the tagged values of an element for a tag; gives their number. -/
def removeTaggedValues (n : NodeId) (tag : String) : GraphM Nat := do
  let r ← get n
  let victims ← query fun g => g.followAll (·.name = some tag) r.taggedValues
  victims.forM delete
  return victims.length

end GraphM

end DeclGraph
