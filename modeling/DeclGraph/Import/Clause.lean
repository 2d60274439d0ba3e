import DeclGraph.Import.Classifier

/-!
Import clauses. A clause makes a package or a classifier visible to the look-ups of its unit and
becomes a dependency of the unit's component on it.
-/

namespace DeclGraph

namespace Graph

/-- The first of some dependencies that stands for an import clause. -/
def importAmong? (g : Graph) : List NodeId → Except GraphFault (Option NodeId)
  | [] => .ok none
  | dep :: rest => do
    if ← g.hasStereotype dep Profile.importStereotype then return some dep
    else g.importAmong? rest

end Graph

namespace ImportM

/-- Finds or builds the dependency of the unit's component on what it imports. -/
def buildImport (u : UnitContext) (target : NodeId) : ImportM NodeId := do
  match (← get).component with
  | none => throw (.misplaced .importBeforeComponent)
  | some component =>
    let dependencies ← query (·.dependenciesBetween target component)
    match ← query (·.importAmong? dependencies) with
    | some dep => return dep
    | none =>
      let name ← edgeName u component target
      let dep ← change (.buildDependency component target .dependency name)
      let st ← stereotype Profile.importStereotype none
      change (.addStereotype dep st)
      register dep
      emit (.importCreated (name.getD ""))
      return dep

/-- The simple name that stands for all of a package. -/
def wildcard : String := "*"

/-- An import clause. In the first pass it does nothing. -/
def addImport (u : UnitContext) (name : String) : ImportM (Option NodeId) := do
  if !u.pass.buildsReferences then return none
  let (qualifier, simple) := QualifiedName.split name
  if simple = wildcard then
    let package ← getPackage qualifier
    modifyScopes (·.addImportedPackage package)
    some <$> buildImport u package
  else
    match ← resolve u name .any "an imported classifier" with
    | none => return none
    | some n =>
      modifyScopes (·.addImportedClassifier n)
      some <$> buildImport u n

/-- The end of a unit, at which no classifier may be open. -/
def finish (u : UnitContext) : ImportM Unit := do
  let depth := (← get).scopes.depth
  if depth ≠ 0 then throw (.misplaced (.stillOpen depth u.name))

end ImportM

end DeclGraph
