import DeclGraph.Graph.Node

/-!
What an import run can be told, and its two passes: the first lays down packages, components and
classifiers, the second builds what refers to them.
-/

namespace DeclGraph

inductive Pass where
  | skeleton
  | references
  deriving DecidableEq, Repr

namespace Pass

def all : List Pass := [skeleton, references]

def number : Pass → Int
  | skeleton => 0
  | references => 1

def ofNumber? (n : Int) : Option Pass :=
  all.find? (·.number = n)

/-- Whether features, inheritance and imports are built in a pass. -/
def buildsReferences (p : Pass) : Bool := p = references

/-- Whether the documentation of classifiers is written in a pass. -/
def recordsDocumentation (p : Pass) : Bool := p = skeleton

end Pass

/-- What becomes of a type name that resolves to nothing. -/
inductive UnresolvedPolicy where
  | fail
  | warn
  | force
  deriving DecidableEq, Repr

namespace UnresolvedPolicy

def all : List UnresolvedPolicy := [fail, warn, force]

def label : UnresolvedPolicy → String
  | fail => "fail"
  | warn => "warn"
  | force => "force"

def ofLabel? (label : String) : Option UnresolvedPolicy :=
  all.find? (·.label = label)

end UnresolvedPolicy

/-- The classifier kinds that a look-up accepts. -/
inductive ResolveMode where
  /-- Anything but an interface. -/
  | instantiable
  | interfaceOnly
  | any
  deriving DecidableEq, Repr

namespace ResolveMode

def all : List ResolveMode := [instantiable, interfaceOnly, any]

def label : ResolveMode → String
  | instantiable => "class"
  | interfaceOnly => "interface"
  | any => "any"

def ofLabel? (label : String) : Option ResolveMode :=
  all.find? (·.label = label)

def accepts : ResolveMode → NodeKind → Bool
  | instantiable, k => k = .classType || k = .dataType
  | interfaceOnly, k => k = .interfaceType
  | any, k => k.isClassifier

end ResolveMode

/-- What a classifier declaration asks for. An enumeration is a class with a stereotype. -/
inductive ClassifierKind where
  | classType
  | interfaceType
  | enumeration
  deriving DecidableEq, Repr

namespace ClassifierKind

def all : List ClassifierKind := [classType, interfaceType, enumeration]

def label : ClassifierKind → String
  | classType => "class"
  | interfaceType => "interface"
  | enumeration => "enumeration"

def nodeKind : ClassifierKind → NodeKind
  | interfaceType => .interfaceType
  | _ => .classType

end ClassifierKind

structure Settings where
  unresolvedPolicy : UnresolvedPolicy := .warn
  /-- Fields typed by a classifier other than a data type become associations. -/
  generateAssociations : Bool := true
  /-- Associations, abstractions and import dependencies are named after what they connect. -/
  generateNames : Bool := true
  /-- A field of an array type keeps the whole type and its multiplicity of one. -/
  arraysAsDatatype : Bool := false
  /-- Kept as a tagged value of outermost packages. -/
  srcPath : Option String := none
  /-- Missing stereotypes are made under the model root. -/
  synthesizeStereotypes : Bool := true
  deriving DecidableEq, Repr

end DeclGraph
