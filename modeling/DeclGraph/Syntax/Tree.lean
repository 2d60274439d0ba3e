import DeclGraph.Graph.Node
import DeclGraph.Modifier

/-!
Compilation units as trees: a package clause, import clauses and classifier declarations with
their members. A declaration knows its place in the source and its documentation comment.
-/

namespace DeclGraph

/-- The extent of a piece of source text: line and column of its start, counted from one, and the
offsets of its start and its end. -/
structure Loc where
  line : Nat
  column : Nat
  start : Nat
  stop : Nat
  deriving DecidableEq, Repr

/-- A reference to a type, with its array dimensions and the mark of a variable number. -/
structure TypeRef where
  name : String
  dims : Nat := 0
  varargs : Bool := false
  deriving DecidableEq, Repr

/-- The type as one name. -/
def TypeRef.spelling (t : TypeRef) : String :=
  t.name ++ String.join (List.replicate t.dims "[]") ++ if t.varargs then "..." else ""

structure Param where
  name : String
  type : TypeRef
  direction : Direction := .input
  deriving DecidableEq, Repr

/-- What all declarations have. -/
structure Head where
  name : String
  modifiers : List Modifier
  loc : Loc
  /-- The documentation comment as written. -/
  doc : Option String := none
  deriving DecidableEq, Repr

structure AttributeDecl where
  head : Head
  type : TypeRef
  initializer : Option String := none
  deriving DecidableEq, Repr

structure OperationDecl where
  head : Head
  /-- Constructors return nothing. -/
  returnType : Option TypeRef
  params : List Param := []
  raises : List String := []
  deriving DecidableEq, Repr

/-- The classifiers that a class or an interface builds on. -/
inductive Heritage where
  | ofClass (superclass : Option String) (interfaces : List String)
  | ofInterface (parents : List String)
  deriving DecidableEq, Repr

mutual

/-- The declaration of a class or interface with its members, or of an enumeration. -/
inductive Classifier where
  | typed (head : Head) (heritage : Heritage) (members : List Member)
  | enumeration (head : Head) (interfaces literals : List String)

inductive Member where
  | attr (a : AttributeDecl)
  | operation (o : OperationDecl)
  | classifier (c : Classifier)

end

structure ImportClause where
  name : String
  wildcard : Bool
  loc : Loc
  deriving DecidableEq, Repr

/-- The name that is imported; a package is followed by an asterisk. -/
def ImportClause.target (i : ImportClause) : String :=
  if i.wildcard then i.name ++ ".*" else i.name

structure CompilationUnit where
  package : Option (String × Loc) := none
  imports : List ImportClause := []
  definitions : List Classifier := []
  file : Option String := none

namespace Classifier

def head : Classifier → Head
  | typed head .. => head
  | enumeration head .. => head

/-- Moves the end of a declaration. -/
def withStop (stop : Nat) : Classifier → Classifier
  | typed h heritage members => typed { h with loc.stop := stop } heritage members
  | enumeration h interfaces literals =>
    enumeration { h with loc.stop := stop } interfaces literals

end Classifier

end DeclGraph
