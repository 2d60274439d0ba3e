import DeclGraph.FileTree
import DeclGraph.Import.Replay
import DeclGraph.Json
import DeclGraph.Text.Utf8

/-!
Batches of files imported into one model. All files go through the first pass before any goes
through the second, so that references between files resolve. A file that fails is reported and
left out from then on; what it and others did to the model stays. Only what cannot be put down to a
file breaks the batch off.
-/

namespace DeclGraph

/-- Why a file could not be imported. -/
inductive FileError where
  /-- The name holds a character that no file name has. -/
  | nulInName
  | unreadable (f : FileFault)
  | undecodable (f : Text.Utf8Fault)
  | refused (e : ImportError)
  deriving DecidableEq, Repr

namespace FileError

def kind : FileError → FailureKind
  | .nulInName => .other
  | .unreadable _ | .undecodable _ => .io
  | .refused e => e.kind

def message : FileError → String
  | .nulInName => "embedded null byte"
  | .unreadable f => f.message
  | .undecodable f => f.message
  | .refused e => e.message

def span : FileError → Span
  | .refused e => e.span
  | _ => {}

/-- Whether an error is put down to its file, so that the batch goes on without it. -/
def isContained (e : FileError) : Bool := e.kind ≠ .other

/-- The record of a file that failed in a pass. -/
def failure (e : FileError) (path : PathName) (pass : Pass) : FileFailure :=
  .of path.spelling pass.number e.kind e.message e.span

end FileError

/-- What a batch tells about its progress: the number of file visits to expect, and how many were
made. -/
inductive Progress where
  | planned (visits : Nat)
  | visited (visits : Nat)
  deriving DecidableEq, Repr

/-- A way to read files. -/
abbrev FileReader := PathName → Except FileFault (List UInt8)

/-- What is fixed for a batch. -/
structure BatchContext where
  read : FileReader
  settings : Settings := {}
  files : List PathName
  /-- Whether the import is to stop, given the number of visits made. -/
  isCancelled : Nat → Bool := fun _ => false

/-- Why a batch ends before its last visit. -/
inductive Halt where
  | cancelled
  | broken (e : FileError)
  deriving DecidableEq, Repr

/-- The state of a batch. -/
structure Batch where
  store : Store
  /-- The files that were parsed. -/
  units : List (PathName × CompilationUnit) := []
  failed : List PathName := []
  failures : List FileFailure := []
  visits : Nat := 0
  progress : List Progress := []
  halt : Option Halt := none

/-- The outcome of a batch. -/
structure BatchReport where
  imported : List PathName
  failures : List FileFailure
  cancelled : Bool
  progress : List Progress

def BatchReport.ok (r : BatchReport) : Bool := r.failures.isEmpty && !r.cancelled

/-- The text of a file: strict UTF-8, with line feeds for all kinds of line ends. -/
def decodeSource (bytes : List UInt8) : Except Text.Utf8Fault String :=
  (Text.decodeUtf8 bytes).map fun s => String.ofList (Text.unifyLineEnds s.toList)

namespace BatchContext

def planned (c : BatchContext) : Nat := c.files.length * Pass.all.length

/-- Reads and parses a file. -/
def load (c : BatchContext) (path : PathName) : Except FileError CompilationUnit := do
  if path.hasNul then throw .nulInName
  let bytes ← (c.read path).mapError .unreadable
  let source ← (decodeSource bytes).mapError .undecodable
  (parseSource source (some path.spelling)).mapError fun e => .refused (.source e)

end BatchContext

namespace Batch

def emit (b : Batch) (e : Event) : Batch :=
  { b with store := { b.store with log := e :: b.store.log } }

def beginPass (b : Batch) (pass : Pass) : Batch :=
  { b with store := { b.store with session := b.store.session.beginPass pass } }

/-- The unit of a file; it is read and parsed once. -/
def unitOf (c : BatchContext) (b : Batch) (path : PathName) :
    Except FileError CompilationUnit × Batch :=
  match b.units.lookup path with
  | some unit => (.ok unit, b)
  | none =>
    match c.load path with
    | .error e => (.error e, b)
    | .ok unit => (.ok unit, { b with units := (path, unit) :: b.units })

/-- Imports a file in a pass. -/
def importFile (c : BatchContext) (b : Batch) (pass : Pass) (path : PathName) :
    Except FileError Unit × Batch :=
  match b.unitOf c path with
  | (.error e, b) => (.error e, b)
  | (.ok unit, b) =>
    let b := b.emit (.fileStarted path.spelling pass.number)
    match StoreM.runPass path.baseName c.settings unit pass b.store with
    | .ok _ store => (.ok (), { b with store })
    | .error e store => (.error (.refused e), { b with store })

/-- Notes that a file failed. -/
def fail (b : Batch) (path : PathName) (f : FileFailure) : Batch :=
  let b := b.emit (.fileFailed path.spelling f.format)
  { b with failures := b.failures ++ [f], failed := path :: b.failed }

/-- Counts a visit. -/
def count (b : Batch) : Batch :=
  { b with visits := b.visits + 1, progress := b.progress ++ [.visited (b.visits + 1)] }

/-- Visits a file in a pass, unless it failed before or the import is to stop. -/
def visit (c : BatchContext) (pass : Pass) (b : Batch) (path : PathName) : Batch :=
  if b.halt.isSome then b
  else if c.isCancelled b.visits then
    { b.emit (.cancelled b.visits c.planned) with halt := some .cancelled }
  else if path ∈ b.failed then b.count
  else match b.importFile c pass path with
    | (.ok _, b) => b.count
    | (.error e, b) =>
      if e.isContained then (b.fail path (e.failure path pass)).count
      else { b with halt := some (.broken e) }

/-- Visits all files in a pass. -/
def runPass (c : BatchContext) (b : Batch) (pass : Pass) : Batch :=
  if b.halt.isSome then b else c.files.foldl (visit c pass) (b.beginPass pass)

def cancelled (b : Batch) : Bool := b.halt = some .cancelled

/-- The files that came through. After a stop those that were never parsed do not count. -/
def imported (c : BatchContext) (b : Batch) : List PathName :=
  c.files.filter fun p => p ∉ b.failed && (!b.cancelled || (b.units.lookup p).isSome)

/-- The outcome of a batch, unless it broke off. -/
def report (c : BatchContext) (b : Batch) : Except FileError BatchReport :=
  match b.halt with
  | some (.broken e) => .error e
  | _ => .ok ⟨b.imported c, b.failures, b.cancelled, b.progress⟩

end Batch

/-- Imports a batch of files. -/
def importFiles (c : BatchContext) (store : Store) : Except FileError BatchReport × Store :=
  let b := Pass.all.foldl (Batch.runPass c) { store, progress := [.planned c.planned] }
  (b.report c, b.store)

def FileFailure.toJson (f : FileFailure) : Json :=
  .obj [("reason_code", .str f.reasonCode), ("file", .str f.file), ("message", .str f.message),
    ("import_pass", .intOrNull f.pass), ("line", .intOrNull f.line),
    ("column", .intOrNull f.column)]

def Diagnostic.toJson (d : Diagnostic) : Json :=
  .obj [("severity", .str d.severity), ("code", .strOrNull d.code), ("unit", .strOrNull d.unit),
    ("message", .str d.message)]

/-- The report of a batch with the session it ran in. -/
def BatchReport.toJson (r : BatchReport) (session : Session) : Json :=
  .obj [("ok", .bool r.ok), ("cancelled", .bool r.cancelled),
    ("imported", .arr (r.imported.map (.str ·.spelling))),
    ("failures", .arr (r.failures.map (·.toJson))),
    ("new_elements", .int session.created.length),
    ("diagnostics", .arr (session.diagnostics.map (·.toJson)))]

end DeclGraph
