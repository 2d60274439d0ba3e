import DeclGraph.CommandLine.Options
import DeclGraph.Graph.Export
import DeclGraph.Import.Batch

/-!
The import command: imports the files into a new model, saves the model where asked, and prints
a summary or the model.
-/

namespace DeclGraph.CommandLine

/-- What the program prints, and its exit code. -/
structure Output where
  exitCode : Nat
  stdout : String := ""
  stderr : String := ""

/-- What ends the program without output. -/
inductive Breakdown where
  | file (e : FileError)
  | graph (f : GraphFault)
  deriving DecidableEq, Repr

def Breakdown.message : Breakdown → String
  | .file e => e.message
  | .graph f => f.message

/-- The outcome of the import command before anything is saved. -/
structure Outcome where
  report : BatchReport
  store : Store

/-- Imports the files of the command line into a new model. -/
def importNew (o : Options) (read : FileReader) : Except Breakdown Outcome :=
  let (report, store) := importFiles { read, settings := o.settings, files := o.files }
    { graph := Graph.empty }
  match report with
  | .ok report => .ok ⟨report, store⟩
  | .error e => .error (.file e)

namespace Outcome

/-- The text of the model file. -/
def modelText (r : Outcome) : Except GraphFault String :=
  (· ++ "\n") <$> r.store.graph.toJsonText false

/-- The log, without its details unless they are asked for. -/
def logText (r : Outcome) (verbose : Bool) : String :=
  String.join <| (r.store.log.reverse.filter fun e => verbose || e.isWarning).map
    fun e => e.line ++ "\n"

/-- The summary for readers. -/
def summaryText (r : Outcome) (files : Nat) : Except GraphFault String := do
  let counts ← r.store.graph.summarize
  return "imported " ++ toString r.report.imported.length ++ " of " ++ toString files
    ++ " file(s), " ++ toString r.store.session.created.length ++ " new element(s)\n"
    ++ String.join (counts.map fun (kind, n) => "  " ++ kind ++ ": " ++ toString n ++ "\n")

/-- The result for programs. -/
def jsonText (r : Outcome) (exitCode : Nat) : Except GraphFault String := do
  let model ← r.store.graph.toJson false
  return (Json.obj [("exit_code", .int exitCode),
    ("report", r.report.toJson r.store.session), ("model", model)]).pretty ++ "\n"

end Outcome

def errorLine (message : String) : String := "error: " ++ message ++ "\n"

/-- The line about a model that could not be saved. -/
def saveError (path : PathName) (f : FileFault) : String :=
  errorLine ("failed to save model to " ++ path.spelling ++ ": " ++ f.message)

/-- What the import command prints, given what went wrong with saving the model. -/
def outputOf (o : Options) (r : Outcome) (saveError : Option String) :
    Except GraphFault Output := do
  let exitCode := if r.report.ok && saveError.isNone then 0 else 1
  let errors := r.logText o.verbose ++ saveError.getD ""
  if o.json then
    return { exitCode, stdout := ← r.jsonText exitCode, stderr := errors }
  else
    let failures := String.join (r.report.failures.map fun f => errorLine f.format)
    return { exitCode, stdout := ← r.summaryText o.files.length, stderr := errors ++ failures }

/-- Saves the model where asked, given a way to write a text; gives the line about what went
wrong. -/
def save {m : Type → Type} [Monad m] (o : Options) (r : Outcome)
    (write : PathName → String → m (Except FileFault Unit)) :
    m (Except Breakdown (Option String)) := do
  match o.out with
  | none => return .ok none
  | some path =>
    match r.modelText with
    | .error f => return .ok (some (errorLine f.message))
    | .ok text =>
      if path.hasNul then return .error (.file .nulInName)
      match ← write path text with
      | .error f => return .ok (some (saveError path f))
      | .ok () => return .ok none

/-- Runs the import command, given a way to read files and a way to write a text. -/
def run {m : Type → Type} [Monad m] (o : Options) (read : FileReader)
    (write : PathName → String → m (Except FileFault Unit)) : m (Except Breakdown Output) := do
  match importNew o read with
  | .error e => return .error e
  | .ok r =>
    match ← save o r write with
    | .error e => return .error e
    | .ok saveError => return (outputOf o r saveError).mapError .graph

/-- Writes a text into a tree of files. -/
def writeText (path : PathName) (text : String) : StateM FileTree (Except FileFault Unit) :=
  fun tree =>
    match tree.write path text.toUTF8.toList with
    | .error f => (.error f, tree)
    | .ok tree => (.ok (), tree)

/-- Runs the import command on a tree of files; gives the tree afterwards. -/
def runIn (o : Options) (tree : FileTree) : Except Breakdown Output × FileTree :=
  (run o tree.read writeText).run tree

end DeclGraph.CommandLine
