import DeclGraph.Import.Package

/-!
Names of types. An unqualified name is looked for from the innermost open classifier outwards,
then in the packages that imports made visible, then among the data types of the profile, and last
among the classifiers imported by name. A qualified name is looked for in its package alone. What
happens when nothing is found is a matter of policy.
-/

namespace DeclGraph

/-- The namespaces that a look-up goes through, in order, and the classifiers it sees besides. -/
structure ContextChain where
  namespaces : List NodeId
  classifiers : List NodeId := []
  deriving DecidableEq, Repr

namespace Graph

/-- Whether a record is that of a classifier of the name that the mode accepts. -/
def fits (simple : String) (mode : ResolveMode) (r : Node) : Bool :=
  r.name = some simple && mode.accepts r.kind

/-- The first fitting element that one of the namespaces owns. -/
def searchNamespaces (g : Graph) (simple : String) (mode : ResolveMode) :
    List NodeId → Except GraphFault (Option NodeId)
  | [] => .ok none
  | n :: rest => do
    match g.findIn (← g.ownedElements n) (fits simple mode) with
    | some found => return some found
    | none => g.searchNamespaces simple mode rest

/-- The first fitting one of some classifiers. -/
def searchClassifiers (g : Graph) (simple : String) (mode : ResolveMode) :
    List NodeId → Except GraphFault (Option NodeId)
  | [] => .ok none
  | n :: rest => do
    if fits simple mode (← g.get n) then return some n
    else g.searchClassifiers simple mode rest

/-- The classifier that a simple name means in a context. -/
def lookup (g : Graph) (chain : ContextChain) (simple : String) (mode : ResolveMode) :
    Except GraphFault (Option NodeId) := do
  match ← g.searchNamespaces simple mode chain.namespaces.eraseDups with
  | some n => return some n
  | none => g.searchClassifiers simple mode chain.classifiers

/-- An element and the namespaces around it, up to the root or an element without owner, followed
for `steps` steps. -/
def namespacesWithin (g : Graph) : Nat → NodeId → Except GraphFault (List NodeId)
  | 0, _ => .ok []
  | steps + 1, n =>
    if n = root then .ok [n]
    else do
      match ← g.namespaceOf n with
      | none => return [n]
      | some owner => return n :: (← g.namespacesWithin steps owner)

/-- The namespaces that a scope stack opens: classifiers, the package and those around it, and in
any case the root. -/
def scopeNamespaces (g : Graph) (s : ScopeStack) : Except GraphFault (List NodeId) := do
  let chain := s.enclosing ++ (← g.namespacesWithin (g.slots.size + 1) s.package)
  return if root ∈ chain then chain else chain ++ [root]

/-- The tag of classifiers that were made because something refers to them. -/
def generatedTag : String := "generated"

def isPlaceholder (g : Graph) (n : NodeId) : Except GraphFault Bool :=
  Option.isSome <$> g.taggedValue? n generatedTag

end Graph

namespace ImportM

def scopeNamespaces : ImportM (List NodeId) := do
  let s ← get
  query (·.scopeNamespaces s.scopes)

/-- Where a name is looked for, its simple part, and the package that a prefix names. -/
def contextFor (name : String) : ImportM (ContextChain × String × Option NodeId) := do
  match QualifiedName.split name with
  | ("", simple) =>
    let namespaces ← scopeNamespaces
    let scopes := (← get).scopes
    let chain : ContextChain :=
      { namespaces := namespaces ++ scopes.importedPackages ++ [Graph.profilePackage]
        classifiers := scopes.importedClassifiers }
    return (chain, simple, none)
  | (qualifier, simple) =>
    let package ← getPackage qualifier
    return ({ namespaces := [package] }, simple, some package)

/-- Makes a classifier that something refers to, marked as such. -/
def forceCreate (simple : String) (mode : ResolveMode) (package : Option NodeId)
    (context : String) : ImportM NodeId := do
  let kind : NodeKind := if mode = .interfaceOnly then .interfaceType else .classType
  let n ← change (.create kind (some simple) (some (package.getD Graph.root)))
  let _ ← change (.setTaggedValue n Graph.generatedTag "true")
  register n
  emit (.classifierForced kind.label simple context)
  return n

/-- The classifier that a name means, under a policy for names that mean nothing. -/
def resolveWith (u : UnitContext) (policy : UnresolvedPolicy) (name : String)
    (mode : ResolveMode) (context : String) : ImportM (Option NodeId) := do
  let (chain, simple, package) ← contextFor name
  match ← query (·.lookup chain simple mode) with
  | some n => return some n
  | none =>
    match policy with
    | .fail => throw (.classifierNotFound name (some context))
    | .warn =>
      warn u "unresolved" ("modeler cannot find classifier " ++ name ++ " for " ++ context)
      return none
    | .force => return some (← forceCreate simple mode package context)

/-- The classifier that a name means, under the policy of the settings. -/
def resolve (u : UnitContext) (name : String) (mode : ResolveMode) (context : String) :
    ImportM (Option NodeId) :=
  resolveWith u u.settings.unresolvedPolicy name mode context

end ImportM

end DeclGraph
