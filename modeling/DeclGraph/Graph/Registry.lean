import DeclGraph.Graph.Property

/-!
Stereotype registries. A stereotype is looked for in the profile, then among those under the model
root; if neither has it, it is made under the root where that is allowed. Answers are remembered
as long as their element lives.
-/

namespace DeclGraph

/-- A stereotype that is missing and may not be made. -/
structure MissingStereotype where
  name : String
  baseClass : Option String
  deriving DecidableEq, Repr

def MissingStereotype.message (m : MissingStereotype) : String :=
  let base := match m.baseClass with
    | none | some "" => ""
    | some b => " base: " ++ b
  "could not find a suitable stereotype <<" ++ m.name ++ ">>" ++ base

structure StereotypeRegistry where
  allowSynthesis : Bool
  /-- The remembered answers, the latest first. -/
  cache : List ((String × Option String) × NodeId) := []
  /-- The stereotypes this registry made, in order. -/
  synthesized : List NodeId := []
  deriving DecidableEq, Repr

namespace Graph

/-- Whether a record is that of a stereotype of the name that fits the base class: it declares no
base classes, or this one among them. -/
def fitsStereotype (name : String) (baseClass : Option String) (r : Node) : Bool :=
  r.kind = .stereotype && r.name = some name &&
    match baseClass with
    | none => true
    | some b => r.baseClasses.isEmpty || b ∈ r.baseClasses

/-- The first fitting stereotype in a namespace. -/
def stereotypeIn? (g : Graph) (n : NodeId) (name : String) (baseClass : Option String) :
    Except GraphFault (Option NodeId) := do
  return g.findIn (← g.ownedElements n) (fitsStereotype name baseClass)

/-- The fitting stereotype of the profile, else that of the model. -/
def stereotype? (g : Graph) (name : String) (baseClass : Option String) :
    Except GraphFault (Option NodeId) := do
  match ← g.stereotypeIn? profilePackage name baseClass with
  | some n => return some n
  | none => g.stereotypeIn? root name baseClass

end Graph

namespace StereotypeRegistry

/-- The remembered answer for a name and base class. -/
def remembered? (s : StereotypeRegistry) (name : String) (baseClass : Option String) :
    Option NodeId :=
  s.cache.lookup (name, baseClass)

def remember (s : StereotypeRegistry) (name : String) (baseClass : Option String) (n : NodeId) :
    StereotypeRegistry :=
  { s with cache := ((name, baseClass), n) :: s.cache }

/-- The stereotype of a name for a base class, with the registry after the search. -/
def resolve (s : StereotypeRegistry) (name : String) (baseClass : Option String) :
    GraphM (Except MissingStereotype NodeId × StereotypeRegistry) := do
  let g ← MonadState.get
  match (s.remembered? name baseClass).filter g.isLive with
  | some n => return (.ok n, s)
  | none =>
    match ← GraphM.query (·.stereotype? name baseClass) with
    | some n => return (.ok n, s.remember name baseClass n)
    | none =>
      if s.allowSynthesis then
        let n ← GraphM.create .stereotype (some name) (some Graph.root)
        if let some b := baseClass then GraphM.addBaseClass n b
        let s := { s with synthesized := s.synthesized ++ [n] }
        return (.ok n, s.remember name baseClass n)
      else return (.error ⟨name, baseClass⟩, s)

end StereotypeRegistry

end DeclGraph
