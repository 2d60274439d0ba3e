import DeclGraph.Graph.Registry
import DeclGraph.Syntax.Fault

/-!
What can go wrong in an import, cause by cause, and the records of files that failed.
-/

namespace DeclGraph

/-- Declarations in places where they cannot stand. -/
inductive Misplacement where
  /-- A package clause named here stands inside a classifier. -/
  | packageInClassifier (name : String)
  /-- The current package is to change while a classifier is open. -/
  | packageWhileOpen
  /-- A classifier is to be left, but none is open. -/
  | nothingToLeave
  | importBeforeComponent
  | operationOutside (name : String)
  | attributeOutside (name : String)
  | literalOutside (name : String)
  /-- A unit ends with classifiers still open. -/
  | stillOpen (depth : Nat) (unit : String)
  deriving DecidableEq, Repr

def Misplacement.message : Misplacement → String
  | packageInClassifier name => "package clause " ++ name ++ " inside a classifier"
  | packageWhileOpen => "package clause while a classifier scope is open"
  | nothingToLeave => "no classifier scope to leave"
  | importBeforeComponent => "import clause before the compilation unit's component"
  | operationOutside name => "operation " ++ name ++ " outside of a classifier"
  | attributeOutside name => "attribute " ++ name ++ " outside of a classifier"
  | literalOutside name => "enumeration literal " ++ name ++ " outside of an enumeration"
  | stillOpen depth unit =>
    toString depth ++ " classifier scope(s) still open at end of " ++ unit

/-- Why a unit could not be imported. -/
inductive ImportError where
  | source (e : SourceError)
  | misplaced (m : Misplacement)
  | missingStereotype (m : MissingStereotype)
  | graph (f : GraphFault)
  | classifierNotFound (name : String) (context : Option String)
  /-- The state of the unit contradicts itself, which no sequence of declarations leads to. -/
  | inconsistent
  deriving DecidableEq, Repr

/-- The classes of failures that reports tell apart. -/
inductive FailureKind where
  | source
  | misplaced
  | stereotype
  | graph
  | unresolved
  | io
  | other
  deriving DecidableEq, Repr

def FailureKind.code : FailureKind → String
  | source => "syntax"
  | misplaced => "parse-state"
  | stereotype => "stereotype"
  | graph => "host-graph"
  | unresolved => "unresolved"
  | io => "io"
  | other => "error"

namespace ImportError

def kind : ImportError → FailureKind
  | .source _ => .source
  | .misplaced _ => .misplaced
  | .missingStereotype _ => .stereotype
  | .graph (.missingRecord _) => .other
  | .graph _ => .graph
  | .classifierNotFound .. => .unresolved
  | .inconsistent => .other

/-- The message, without a place. -/
def message : ImportError → String
  | .source e => e.fault.message
  | .misplaced m => m.message
  | .missingStereotype m => m.message
  | .graph f => f.message
  | .classifierNotFound name context =>
    let place := match context with
      | none | some "" => ""
      | some c => " (" ++ c ++ ")"
    "classifier not found: " ++ name ++ place
  | .inconsistent => ""

/-- The place of an error in a source text. -/
def span : ImportError → Span
  | .source e => e.span
  | _ => {}

/-- The message, with the place in front if there is one. -/
def format (e : ImportError) : String :=
  e.span.locate e.message

end ImportError

/-- The record of a file that could not be imported. -/
structure FileFailure where
  reasonCode : String
  file : String
  message : String
  pass : Option Int := none
  line : Option Int := none
  column : Option Int := none
  deriving DecidableEq, Repr

/-- The record on one line. -/
def FileFailure.format (f : FileFailure) : String :=
  let place := match f.line, f.column with
    | none, _ => ""
    | some line, none => ":" ++ toString line
    | some line, some column => ":" ++ toString line ++ ":" ++ toString column
  let pass := match f.pass with
    | none => ""
    | some n => " (pass " ++ toString n ++ ")"
  "[" ++ f.reasonCode ++ "] " ++ f.file ++ place ++ " " ++ f.message ++ pass

/-- The record of a failure with its message; only faults of the source have a place. -/
def FileFailure.of (file : String) (pass : Int) (kind : FailureKind) (message : String)
    (span : Span) : FileFailure where
  reasonCode := kind.code
  file := file
  message := message
  pass := some pass
  line := if kind = .source then span.line else none
  column := if kind = .source then span.column else none

end DeclGraph
