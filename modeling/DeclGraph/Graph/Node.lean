/-!
The elements of a model. An element is named by a handle; its record says what kind of element it
is and holds its attributes, its edges and the lists of its parts.
-/

namespace DeclGraph

/-- A handle. Those that a graph gives out are positive. -/
abbrev NodeId := Int

inductive NodeKind where
  | model
  | package
  | classType
  | interfaceType
  | dataType
  | operation
  | attr
  | parameter
  | association
  | associationEnd
  | generalization
  | abstraction
  | dependency
  | stereotype
  | component
  | elementResidence
  | taggedValue
  deriving DecidableEq, Repr

namespace NodeKind

def all : List NodeKind :=
  [.model, .package, .classType, .interfaceType, .dataType, .operation, .attr, .parameter,
    .association, .associationEnd, .generalization, .abstraction, .dependency, .stereotype,
    .component, .elementResidence, .taggedValue]

def label : NodeKind → String
  | .model => "model"
  | .package => "package"
  | .classType => "class"
  | .interfaceType => "interface"
  | .dataType => "datatype"
  | .operation => "operation"
  | .attr => "attribute"
  | .parameter => "parameter"
  | .association => "association"
  | .associationEnd => "association_end"
  | .generalization => "generalization"
  | .abstraction => "abstraction"
  | .dependency => "dependency"
  | .stereotype => "stereotype"
  | .component => "component"
  | .elementResidence => "element_residence"
  | .taggedValue => "tagged_value"

def ofLabel? (label : String) : Option NodeKind :=
  all.find? (·.label = label)

def isClassifier : NodeKind → Bool
  | .classType | .interfaceType | .dataType => true
  | _ => false

/-- Edges from clients to suppliers. -/
def isDependency : NodeKind → Bool
  | .dependency | .abstraction => true
  | _ => false

end NodeKind

/-- Who may see an element. -/
inductive Visibility where
  | pub
  | pack
  | prot
  | priv
  deriving DecidableEq, Repr

namespace Visibility

def label : Visibility → String
  | .pub => "public"
  | .pack => "package"
  | .prot => "protected"
  | .priv => "private"

def ofLabel? (label : String) : Option Visibility :=
  [pub, pack, prot, priv].find? (·.label = label)

end Visibility

/-- The way a parameter passes values. -/
inductive Direction where
  | input
  | output
  | inout
  | result
  deriving DecidableEq, Repr

namespace Direction

def label : Direction → String
  | .input => "in"
  | .output => "out"
  | .inout => "inout"
  | .result => "return"

def ofLabel? (label : String) : Option Direction :=
  [input, output, inout, result].find? (·.label = label)

end Direction

/-- The lists in which an element keeps its parts. -/
inductive Slot where
  | owned
  | features
  | parameters
  | connections
  | taggedValues
  deriving DecidableEq, Repr

def Slot.all : List Slot := [.owned, .features, .parameters, .connections, .taggedValues]

/-- The list of its owner in which an element of a kind is kept. -/
def NodeKind.slot : NodeKind → Slot
  | .operation | .attr => .features
  | .parameter => .parameters
  | .associationEnd => .connections
  | .taggedValue => .taggedValues
  | _ => .owned

/-- The record of an element. What does not apply to its kind stays unset. -/
structure Node where
  kind : NodeKind
  name : Option String := none
  owner : Option NodeId := none
  visibility : Option Visibility := none
  /-- The type of an attribute, a parameter or an association end. -/
  type : Option NodeId := none
  multiplicity : Option String := none
  initialValue : Option String := none
  /-- The text of a tagged value. -/
  value : Option String := none
  direction : Option Direction := none
  isNavigable : Bool := false
  isAbstract : Bool := false
  isLeaf : Bool := false
  isRoot : Bool := false
  isReadOnly : Bool := false
  /-- The parent of a generalization. -/
  general : Option NodeId := none
  /-- The child of a generalization. -/
  specific : Option NodeId := none
  clients : List NodeId := []
  suppliers : List NodeId := []
  /-- The classifier that a residence places, and the component it places it in. -/
  resident : Option NodeId := none
  container : Option NodeId := none
  /-- The association that an association end was built for. -/
  association : Option NodeId := none
  stereotypes : List NodeId := []
  /-- The metaclasses that a stereotype extends. -/
  baseClasses : List String := []
  owned : List NodeId := []
  features : List NodeId := []
  parameters : List NodeId := []
  connections : List NodeId := []
  taggedValues : List NodeId := []
  deriving DecidableEq, Repr

namespace Node

/-- The parts in one list. -/
def children (r : Node) : Slot → List NodeId
  | .owned => r.owned
  | .features => r.features
  | .parameters => r.parameters
  | .connections => r.connections
  | .taggedValues => r.taggedValues

def setChildren (r : Node) (slot : Slot) (parts : List NodeId) : Node :=
  match slot with
  | .owned => { r with owned := parts }
  | .features => { r with features := parts }
  | .parameters => { r with parameters := parts }
  | .connections => { r with connections := parts }
  | .taggedValues => { r with taggedValues := parts }

@[simp] theorem children_setChildren (r : Node) (s t : Slot) (parts : List NodeId) :
    (r.setChildren s parts).children t = if t = s then parts else r.children t := by
  cases s <;> cases t <;> rfl

/-- All parts, list by list. -/
def parts (r : Node) : List NodeId :=
  Slot.all.flatMap r.children

end Node

end DeclGraph
