import DeclGraph.Diagnostic

/-!
Events of an import run and the lines that a log shows of them.
-/

namespace DeclGraph

inductive Event where
  | packageCreated (name : String)
  | componentCreated (name : String)
  /-- A component gives way to the one its package already has. -/
  | componentReused (name : String)
  | placeholderReplaced (kind name : String)
  | classifierCreated (name : String)
  | classifierFound (name : String)
  | classifierForced (kind name context : String)
  | staleRemoved (kind name : String)
  | generalizationCreated (name : String)
  | abstractionCreated (name : String)
  | importCreated (name : String)
  | operationCreated (name : String)
  | operationFound (name : String)
  | attributeCreated (name : String)
  | associationCreated (name : String)
  | warned (d : Diagnostic)
  | fileStarted (path : String) (pass : Int)
  | fileFailed (path failure : String)
  | cancelled (visited planned : Nat)
  deriving DecidableEq, Repr

namespace Event

/-- Whether a log shows the event without being asked for details. -/
def isWarning : Event → Bool
  | .warned _ | .fileFailed .. => true
  | _ => false

/-- The part of the program that logs the event. -/
def source : Event → String
  | .packageCreated _ | .componentCreated _ | .componentReused _ => "reveng.modeler.packages"
  | .placeholderReplaced .. | .classifierCreated _ | .classifierFound _ | .staleRemoved ..
  | .generalizationCreated _ | .abstractionCreated _ => "reveng.modeler.classifiers"
  | .classifierForced .. => "reveng.modeler.context"
  | .importCreated _ => "reveng.modeler.imports"
  | .operationCreated _ | .operationFound _ | .attributeCreated _ | .associationCreated _ =>
    "reveng.modeler.features"
  | .warned _ => "reveng.modeler.session"
  | .fileStarted .. | .fileFailed .. | .cancelled .. => "reveng.importer"

def message : Event → String
  | .packageCreated name => "created package " ++ name
  | .componentCreated name => "created component " ++ name
  | .componentReused name => "reusing component " ++ name ++ " in its package"
  | .placeholderReplaced kind name => "replaced " ++ kind ++ " placeholder for " ++ name
  | .classifierCreated name => "created new classifier for " ++ name
  | .classifierFound name => "found existing classifier for " ++ name
  | .classifierForced kind name context =>
    "modeler forced creation of " ++ kind ++ " " ++ name ++ " for " ++ context
  | .staleRemoved kind name => "removing stale " ++ kind ++ " " ++ name
  | .generalizationCreated name => "created generalization " ++ name
  | .abstractionCreated name => "created abstraction " ++ name
  | .importCreated name => "created import dependency " ++ name
  | .operationCreated name => "creating a new operation " ++ name
  | .operationFound name => "getting the existing operation " ++ name
  | .attributeCreated name => "created attribute " ++ name
  | .associationCreated name => "created association " ++ name
  | .warned d => d.format
  | .fileStarted path pass => "importing " ++ path ++ " (pass " ++ toString pass ++ ")"
  | .fileFailed path failure => "import of " ++ path ++ " failed: " ++ failure
  | .cancelled visited planned =>
    "import cancelled after " ++ toString visited ++ " of " ++ toString planned ++ " file visits"

/-- The line of a log. -/
def line (e : Event) : String :=
  (if e.isWarning then "WARNING " else "INFO ") ++ e.source ++ ": " ++ e.message

end Event

end DeclGraph
