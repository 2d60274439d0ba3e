import DeclGraph.DocComment
import DeclGraph.Graph.Edge
import DeclGraph.Graph.Feature
import DeclGraph.Graph.Redirection
import DeclGraph.Import.Resolution
import DeclGraph.Modifier

/-!
Classifier declarations. A declaration finds its element again or makes it, opens a scope for its
members, and in the second pass builds the edges to parents and interfaces. When the scope is
left, the members that were there before and were not declared again are deleted.
-/

namespace DeclGraph

/-- Only public declarations are seen outside their package. -/
def ModifierSet.visibility (s : ModifierSet) : Visibility :=
  if s.isPublic then .pub else .pack

/-- The tag of documentation. -/
def documentationTag : String := "documentation"

/-- Writes the documentation in a comment to an element; gives it if there is any. -/
def GraphM.addDocumentation (n : NodeId) (doc : Option String) : GraphM (Option String) := do
  match doc.bind DocComment.clean with
  | none => return none
  | some text =>
    let _ ← setTaggedValue n documentationTag text
    return some text

namespace ImportM

/-- Replaces an element by one of the kind that its declaration asks for. -/
def supersede (old : NodeId) (kind : ClassifierKind) (name : String) (home : NodeId) :
    ImportM NodeId := do
  let new ← change (.create kind.nodeKind (some name) (some home))
  change (.replaceReferences old new)
  change (.delete old)
  discard old
  register new
  emit (.placeholderReplaced kind.label name)
  return new

/-- The classifier of a name in a namespace. Outside the root, a placeholder of this name that a
reference left in the root is moved here. -/
def adoptClassifier (name : String) (home : NodeId) : ImportM (Option NodeId) := do
  match ← query (·.classifier? home (some name)) with
  | some n => return some n
  | none =>
    if home = Graph.root then return none
    match ← query (·.classifier? Graph.root (some name)) with
    | none => return none
    | some stray =>
      if ← query (·.isPlaceholder stray) then
        change (.setNamespace stray (some home))
        return some stray
      else return none

/-- The element of a declared classifier, of the kind that the declaration asks for and no longer
marked as a placeholder. -/
def upsertNode (kind : ClassifierKind) (name : String) (home : NodeId) : ImportM NodeId := do
  match ← adoptClassifier name home with
  | none =>
    let n ← change (.create kind.nodeKind (some name) (some home))
    register n
    emit (.classifierCreated name)
    return n
  | some n =>
    if (← query (·.kindOf n)) ≠ kind.nodeKind then supersede n kind name home
    else
      emit (.classifierFound name)
      let _ ← change (.removeTaggedValues n Graph.generatedTag)
      return n

/-- What a declaration of a kind says about its element besides name and visibility. -/
def describeClassifier (n : NodeId) (kind : ClassifierKind) (modifiers : ModifierSet) :
    ImportM Unit := do
  match kind with
  | .classType =>
    change (.setAbstract n modifiers.isAbstract)
    change (.setLeaf n modifiers.isFinal)
  | .enumeration =>
    let st ← stereotype Profile.enumerationStereotype (some "Class")
    change (.addStereotype n st)
    change (.setLeaf n true)
  | .interfaceType => return

/-- Opens the scope of a classifier. -/
def openScope (n : NodeId) : ImportM Unit := do
  let priorFeatures ← query (·.featuresOf n)
  let priorInner ← query (·.innerClassifiers n)
  modifyScopes (·.push { home := n, classifier := some n, priorFeatures, priorInner })

/-- A classifier declaration: its element in the enclosing classifier or the current package, with
the scope for its members open. Top-level classifiers reside in the unit's component. -/
def addClassifier (u : UnitContext) (kind : ClassifierKind) (name : String)
    (modifiers : ModifierSet) (doc : Option String) : ImportM NodeId := do
  let scopes := (← get).scopes
  let enclosing := scopes.classifier
  let n ← upsertNode kind name (enclosing.getD scopes.package)
  change (.setVisibility n modifiers.visibility)
  change (.setRoot n false)
  describeClassifier n kind modifiers
  modifyScopes (·.touch n)
  if let (none, some component) := (enclosing, (← get).component) then
    if (← query (·.elementResidences n)).isEmpty then
      let _ ← change (.buildResidence n component)
  if u.pass.recordsDocumentation then
    let _ ← change (.addDocumentation n doc)
  openScope n
  return n

/-- Finds or builds the generalization from child to parent, and puts it into the current
package. -/
def upsertGeneralization (child parent : NodeId) : ImportM NodeId := do
  let gen ← match (← get).graph.generalizationBetween? child parent with
    | some gen => pure gen
    | none =>
      let gen ← change (.buildGeneralization child parent)
      register gen
      let childName ← query (·.nameOf child)
      let parentName ← query (·.nameOf parent)
      emit (.generalizationCreated (QualifiedName.fromTo childName parentName))
      pure gen
  change (.setNamespace gen (some (← get).scopes.package))
  return gen

/-- The first of some dependencies that realizes a supplier. Those without suppliers that are met
on the way lose their client. -/
def findRealization (client supplier : NodeId) : List NodeId → ImportM (Option NodeId)
  | [] => return none
  | dep :: rest => do
    let suppliers ← query (·.suppliersOf dep)
    let realizes ← query (·.hasStereotype dep Profile.realizeStereotype)
    if suppliers.isEmpty then
      change (.removeClientDependency client dep)
      findRealization client supplier rest
    else if supplier ∈ suppliers && realizes then return some dep
    else findRealization client supplier rest

/-- The name of an edge, unless edges are to be left unnamed. -/
def edgeName (u : UnitContext) (source target : NodeId) : ImportM (Option String) := do
  if u.settings.generateNames then
    let sourceName ← query (·.nameOf source)
    let targetName ← query (·.nameOf target)
    return some (QualifiedName.fromTo sourceName targetName)
  else return none

/-- Finds or builds the realization of an interface by a client, and puts it into the current
package. -/
def upsertRealization (u : UnitContext) (client supplier : NodeId) : ImportM NodeId := do
  let dependencies ← query (·.clientDependencies client)
  let dep ← match ← findRealization client supplier dependencies with
    | some dep => pure dep
    | none =>
      let name ← edgeName u client supplier
      let dep ← change (.buildDependency client supplier .abstraction name)
      let st ← stereotype Profile.realizeStereotype (some "Abstraction")
      change (.addStereotype dep st)
      register dep
      emit (.abstractionCreated (name.getD ""))
      pure dep
  change (.setNamespace dep (some (← get).scopes.package))
  return dep

/-- Builds a generalization to the parent that a name means, if it means one. -/
def inheritFrom (u : UnitContext) (n : NodeId) (mode : ResolveMode) (name : String) :
    ImportM Unit := do
  if let some parent ← resolve u name mode "a generalization" then
    let _ ← upsertGeneralization n parent

/-- Builds a realization of the interface that a name means, if it means one. -/
def realize (u : UnitContext) (n : NodeId) (name : String) : ImportM Unit := do
  if let some interface ← resolve u name .interfaceOnly "an abstraction" then
    let _ ← upsertRealization u n interface

/-- The edges of a classifier to its parents and interfaces. -/
def addInheritance (u : UnitContext) (n : NodeId) (kind : ClassifierKind)
    (superclass : Option String) (interfaces : List String) : ImportM Unit := do
  if u.pass.buildsReferences then
    match kind with
    | .interfaceType => interfaces.forM (inheritFrom u n .interfaceOnly)
    | _ =>
      if let (.classType, some name) := (kind, superclass.filter (· ≠ "")) then
        inheritFrom u n .instantiable name
      interfaces.forM (realize u n)

/-- Deletes a member that was not declared again, if it is still there. -/
def evict (n : NodeId) : ImportM Unit := do
  if let some r := (← get).graph.node? n then
    emit (.staleRemoved r.kind.label (r.name.getD ""))
    change (.delete n)
    discard n

/-- The members a scope found and did not see declared again. Features are declared in the second
pass only. -/
def staleMembers (pass : Pass) (scope : Scope) : List NodeId :=
  let prior := scope.frame.priorInner ++
    if pass.buildsReferences then scope.frame.priorFeatures else []
  ascending (prior.filter (· ∉ scope.touched))

/-- Leaves the innermost classifier and deletes its stale members. -/
def popClassifier (u : UnitContext) : ImportM NodeId := do
  let (scope, scopes) ← placed (← get).scopes.pop
  modify ({ · with scopes })
  (staleMembers u.pass scope).forM evict
  match scope.frame.classifier with
  | some n => return n
  | none => throw .inconsistent

/-- A class declaration. -/
def addClass (u : UnitContext) (name : String) (modifiers : ModifierSet)
    (superclass : Option String) (interfaces : List String) (doc : Option String) :
    ImportM NodeId := do
  let n ← addClassifier u .classType name modifiers doc
  addInheritance u n .classType superclass interfaces
  return n

/-- An interface declaration. -/
def addInterface (u : UnitContext) (name : String) (modifiers : ModifierSet)
    (interfaces : List String) (doc : Option String) : ImportM NodeId := do
  let n ← addClassifier u .interfaceType name modifiers doc
  addInheritance u n .interfaceType none interfaces
  return n

/-- The head of an enumeration declaration. -/
def addEnumeration (u : UnitContext) (name : String) (modifiers : ModifierSet)
    (interfaces : List String) (doc : Option String) : ImportM NodeId := do
  let n ← addClassifier u .enumeration name modifiers doc
  addInheritance u n .enumeration none interfaces
  return n

end ImportM

end DeclGraph
