import DeclGraph.CommandLine.Run

/-!
The program: it reads the files that the command line names, imports them and prints the result.
-/

namespace DeclGraph.CommandLine

/-- The text about usage. -/
def usage : String := "usage: declgraph import [OPTION]... FILE...\n"

/-- Why the system refuses to open a file. -/
def causeOf : IO.Error → FileCause
  | .noFileOrDirectory .. => .missing
  | .inappropriateType _ 20 _ => .notDirectory
  | .inappropriateType _ 21 _ => .isDirectory
  | .invalidArgument _ 36 _ => .nameTooLong
  | .inappropriateType _ code text | .permissionDenied _ code text
  | .invalidArgument _ code text | .resourceExhausted _ code text => .other code.toNat text
  | e => .other 5 (toString e)

/-- Runs an action on a file. -/
def attempt {α : Type} (path : PathName) (action : IO α) : IO (Except FileFault α) := do
  match ← action.toBaseIO with
  | .ok a => return .ok a
  | .error e => return .error ⟨causeOf e, path⟩

/-- The bytes of a file. -/
def readFile (path : PathName) : IO (Except FileFault (List UInt8)) :=
  attempt path do
    return (← (← IO.FS.Handle.mk path.spelling .read).readBinToEnd).toList

/-- Writes a text as a file. -/
def writeFile (path : PathName) (text : String) : IO (Except FileFault Unit) :=
  attempt path (IO.FS.writeFile path.spelling text)

/-- Runs the import command on the files of the system. -/
def runOnDisk (o : Options) : IO (Except Breakdown Output) := do
  let contents ← o.files.mapM fun path => return (path, ← readFile path)
  run o (fun path => (contents.lookup path).getD (.error ⟨.missing, path⟩)) writeFile

/-- Does what the command line asks for; gives the exit code. -/
def execute (args : List String) : IO UInt32 := do
  match parseOptions args with
  | .error quit =>
    if quit = .help then IO.print usage else IO.eprint usage
    return quit.exitCode.toUInt32
  | .ok o =>
    match ← runOnDisk o with
    | .error e =>
      IO.eprint (errorLine e.message)
      return 1
    | .ok out =>
      IO.eprint out.stderr
      IO.print out.stdout
      return out.exitCode.toUInt32

end DeclGraph.CommandLine

def main (args : List String) : IO UInt32 :=
  DeclGraph.CommandLine.execute args
