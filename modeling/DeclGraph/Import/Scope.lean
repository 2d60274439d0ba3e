import DeclGraph.Import.Error

/-!
Scopes of a unit: the current package, the classifiers that are open in it, and for each of them
the elements declared during its visit. Imports add packages and classifiers that look-ups see.
-/

namespace DeclGraph

/-- A set of handles as an increasing list. -/
def ascending (ns : List NodeId) : List NodeId :=
  ns.eraseDups.mergeSort (· ≤ ·)

/-- What is fixed when a classifier is opened. -/
structure ScopeFrame where
  /-- Where declarations go. -/
  home : NodeId
  classifier : Option NodeId := none
  /-- The features and inner classifiers there were before. -/
  priorFeatures : List NodeId := []
  priorInner : List NodeId := []
  deriving DecidableEq, Repr

/-- An open classifier with what was declared in it so far. -/
structure Scope where
  frame : ScopeFrame
  touched : List NodeId := []
  deriving DecidableEq, Repr

structure ScopeStack where
  package : NodeId
  /-- What was declared in the package. -/
  packageTouched : List NodeId := []
  /-- The open classifiers, innermost first. -/
  opened : List Scope := []
  importedPackages : List NodeId := []
  importedClassifiers : List NodeId := []
  deriving DecidableEq, Repr

namespace ScopeStack

/-- The number of open classifiers. -/
def depth (s : ScopeStack) : Nat := s.opened.length

/-- The innermost frame; without an open classifier, that of the package. -/
def current (s : ScopeStack) : ScopeFrame :=
  match s.opened with
  | scope :: _ => scope.frame
  | [] => { home := s.package }

/-- The innermost open classifier. -/
def classifier (s : ScopeStack) : Option NodeId := s.current.classifier

/-- The open classifiers, innermost first. -/
def enclosing (s : ScopeStack) : List NodeId := s.opened.filterMap (·.frame.classifier)

/-- What was declared in the innermost scope. -/
def touched (s : ScopeStack) : List NodeId :=
  match s.opened with
  | scope :: _ => scope.touched
  | [] => s.packageTouched

/-- Makes another package the current one. -/
def resetPackage (s : ScopeStack) (package : NodeId) : Except Misplacement ScopeStack :=
  match s.opened with
  | [] => .ok { s with package, packageTouched := [] }
  | _ :: _ => .error .packageWhileOpen

def push (s : ScopeStack) (frame : ScopeFrame) : ScopeStack :=
  { s with opened := { frame } :: s.opened }

def pop (s : ScopeStack) : Except Misplacement (Scope × ScopeStack) :=
  match s.opened with
  | [] => .error .nothingToLeave
  | scope :: rest => .ok (scope, { s with opened := rest })

/-- Notes an element as declared in the innermost scope. -/
def touch (s : ScopeStack) (n : NodeId) : ScopeStack :=
  match s.opened with
  | scope :: rest => { s with opened := { scope with touched := n :: scope.touched } :: rest }
  | [] => { s with packageTouched := n :: s.packageTouched }

def addImportedPackage (s : ScopeStack) (n : NodeId) : ScopeStack :=
  if n ∈ s.importedPackages then s else { s with importedPackages := s.importedPackages ++ [n] }

def addImportedClassifier (s : ScopeStack) (n : NodeId) : ScopeStack :=
  if n ∈ s.importedClassifiers then s
  else { s with importedClassifiers := s.importedClassifiers ++ [n] }

end ScopeStack

end DeclGraph
