import DeclGraph.Import.Unit
import DeclGraph.QualifiedName

/-!
Packages and components. Packages are found or made segment by segment from the model root down;
the component of a unit moves into the unit's package.
-/

namespace DeclGraph

namespace Graph

/-- The package that segments lead to from a namespace. -/
def packageFrom? (g : Graph) : NodeId → List String → Except GraphFault (Option NodeId)
  | n, [] => .ok (some n)
  | n, segment :: rest => do
    match ← g.childOfKind? n (some segment) .package with
    | none => return none
    | some p => g.packageFrom? p rest

/-- The package of a qualified name, if all its segments exist. -/
def package? (g : Graph) (name : String) : Except GraphFault (Option NodeId) :=
  g.packageFrom? root (QualifiedName.segments name)

/-- The outermost package around an element, followed for `steps` steps. -/
def outermostWithin (g : Graph) : Nat → NodeId → Except GraphFault NodeId
  | 0, n => .ok n
  | steps + 1, n => do
    match ← g.namespaceOf n with
    | none => return n
    | some owner => if owner = root then return n else g.outermostWithin steps owner

/-- The last element before the root on the way up through the owners. -/
def outermost (g : Graph) (n : NodeId) : Except GraphFault NodeId :=
  g.outermostWithin (g.slots.size + 1) n

def component? (g : Graph) (n : NodeId) (name : Option String) :
    Except GraphFault (Option NodeId) :=
  g.childOfKind? n name .component

end Graph

namespace ImportM

/-- The package that segments lead to from a namespace; those that are missing are made. -/
def packageBelow : NodeId → List String → ImportM NodeId
  | n, [] => pure n
  | n, segment :: rest => do
    let p ← match ← query (·.childOfKind? n (some segment) .package) with
      | some p => pure p
      | none =>
        let p ← change (.create .package (some segment) (some n))
        register p
        emit (.packageCreated segment)
        pure p
    packageBelow p rest

/-- The package of a qualified name. -/
def getPackage (name : String) : ImportM NodeId :=
  packageBelow Graph.root (QualifiedName.segments name)

/-- The component of a name in a namespace; a new one goes under the model root. -/
def upsertComponent (n : NodeId) (name : String) : ImportM NodeId := do
  match ← query (·.component? n (some name)) with
  | some c => return c
  | none =>
    let c ← change (.create .component (some name) (some Graph.root))
    register c
    emit (.componentCreated name)
    return c

/-- Moves a component into a package. A component of the same name that the package already owns
takes its place. -/
def settleComponent (component package : NodeId) : ImportM NodeId := do
  let name ← query (·.nameOf component)
  let existing ← match name with
    | none => pure none
    | some _ => query (·.component? package name)
  match existing.filter (· ≠ component) with
  | some c =>
    change (.delete component)
    discard component
    emit (.componentReused (name.getD ""))
    return c
  | none =>
    change (.setNamespace component (some package))
    return component

/-- Starts a unit: its component is the one of its name in the current package. -/
def addComponent (u : UnitContext) : ImportM NodeId := do
  let c ← upsertComponent (← get).scopes.package u.name
  modify ({ · with component := some c })
  return c

/-- The tag under which outermost packages keep the place of their sources. -/
def srcPathTag : String := "src_path"

/-- A package clause: the package becomes the current one and the unit's component moves there. -/
def enterPackage (u : UnitContext) (name : String) : ImportM NodeId := do
  if (← get).scopes.depth ≠ 0 then throw (.misplaced (.packageInClassifier name))
  if let (outer :: _, some path) := (QualifiedName.segments name, u.settings.srcPath) then
    let package ← getPackage outer
    if (← query (·.taggedValue? package srcPathTag)).isNone then
      let _ ← change (.setTaggedValue package srcPathTag path)
  let package ← getPackage name
  let scopes ← placed ((← get).scopes.resetPackage package)
  modify ({ · with scopes })
  if let some component := (← get).component then
    let component ← settleComponent component package
    modify ({ · with component := some component })
  return package

end ImportM

end DeclGraph
