import DeclGraph.Import.Settings
import DeclGraph.PathName
import DeclGraph.Text.Digit

/-!
The command line. A command is followed by file names and options. Long options may be cut short
as long as that is unambiguous and may have their value after an equals sign; short options may be
joined; after two dashes everything is a file name. All file names stand together.
-/

namespace DeclGraph.CommandLine

/-- Why the program does nothing but answer about its usage. -/
inductive Quit where
  | help
  | usageError
  deriving DecidableEq, Repr

def Quit.exitCode : Quit → Nat
  | help => 0
  | usageError => 2

inductive Switch where
  | help
  | srcPath
  | noAssociations
  | noGeneratedNames
  | arraysAsDatatype
  | unresolved
  | json
  | out
  | verbose
  deriving DecidableEq, Repr

/-- Whether an option is followed by a value. -/
def Switch.takesValue : Switch → Bool
  | .srcPath | .unresolved | .out => true
  | _ => false

/-- The spellings of the options of the program itself. -/
def programSwitches : List (String × Switch) := [("-h", .help), ("--help", .help)]

/-- The spellings of the options of the import command. -/
def importSwitches : List (String × Switch) :=
  programSwitches ++ [("--src-path", .srcPath), ("--no-associations", .noAssociations),
    ("--no-generated-names", .noGeneratedNames), ("--arrays-as-datatype", .arraysAsDatatype),
    ("--unresolved", .unresolved), ("--json", .json), ("--out", .out), ("-v", .verbose),
    ("--verbose", .verbose)]

/-- The name of the only command. -/
def importCommand : String := "import"

/-- What an argument holds besides the option: a value after the equals sign of a long option, or
what is joined to the letter of a short option, with or without an equals sign between them. -/
inductive Attached where
  | value (text : String)
  | joined (text : List Char)
  deriving DecidableEq, Repr

/-- What an argument is by its looks. -/
inductive ArgKind where
  | plain
  /-- The two dashes after which everything is plain. -/
  | dashes
  | switch (s : Switch) (attached : Option Attached)
  | unknownSwitch
  deriving DecidableEq, Repr

/-- Digits, at least one; a line feed may follow. -/
def isNumeral (s : List Char) : Bool :=
  s.head?.any Text.isDecimalDigit &&
    (s.dropWhile Text.isDecimalDigit = [] || s.dropWhile Text.isDecimalDigit = ['\n'])

/-- Whether an argument is a negative number, which is no option. The number may be a fraction,
with or without digits before its point. -/
def isNegativeNumber : List Char → Bool
  | '-' :: s =>
    isNumeral s ||
      match s.dropWhile Text.isDecimalDigit with
      | '.' :: fraction => isNumeral fraction
      | _ => false
  | _ => false

/-- The part before the first equals sign and, if there is one, the part after it. -/
def splitAtEquals (s : List Char) : List Char × Option (List Char) :=
  (s.takeWhile (· ≠ '='), ((s.dropWhile (· ≠ '=')).tail?))

/-- What follows the equals sign after an option. -/
def afterEquals (spelling text : List Char) : Attached :=
  if spelling.take 2 = ['-', '-'] then .value (String.ofList text) else .joined text

/-- The options that an argument with a dash may mean: a long option by the start of its name, a
short one by its letter, with the rest attached. -/
def candidates (switches : List (String × Switch)) (arg : List Char) : List ArgKind :=
  match arg with
  | '-' :: '-' :: _ =>
    let (start, attached) := splitAtEquals arg
    (switches.filter fun s => start.isPrefixOf s.1.toList).map fun (_, s) =>
      .switch s (attached.map fun text => .value (String.ofList text))
  | _ =>
    (switches.filter fun s => s.1.toList = arg.take 2).map fun (_, s) =>
      .switch s (some (.joined (arg.drop 2)))

/-- Tells what an argument is. -/
def classify (switches : List (String × Switch)) (arg : String) : Except Quit ArgKind :=
  let s := arg.toList
  if s.head? ≠ some '-' then .ok .plain
  else match switches.lookup arg with
    | some sw => .ok (.switch sw none)
    | none =>
      if s.length = 1 then .ok .plain
      else
        let (start, attached) := splitAtEquals s
        match attached, switches.lookup (String.ofList start) with
        | some text, some sw => .ok (.switch sw (some (afterEquals start text)))
        | _, _ =>
          match candidates switches s with
          | [k] => .ok k
          | _ :: _ :: _ => .error .usageError
          | [] => .ok <|
            if isNegativeNumber s || s.contains ' ' then .plain else .unknownSwitch

/-- Tells what all arguments are; those after two dashes are plain. -/
def classifyAll (switches : List (String × Switch)) :
    List String → Except Quit (List (String × ArgKind))
  | [] => .ok []
  | arg :: rest =>
    if arg = "--" then .ok ((arg, .dashes) :: rest.map (·, .plain))
    else do
      let k ← classify switches arg
      return (arg, k) :: (← classifyAll switches rest)

structure Options where
  files : List PathName := []
  settings : Settings := {}
  json : Bool := false
  out : Option PathName := none
  verbose : Bool := false
  deriving DecidableEq, Repr

namespace Options

/-- Applies an option without value. -/
def setFlag (o : Options) : Switch → Except Quit Options
  | .help => .error .help
  | .noAssociations => .ok { o with settings := { o.settings with generateAssociations := false } }
  | .noGeneratedNames => .ok { o with settings := { o.settings with generateNames := false } }
  | .arraysAsDatatype => .ok { o with settings := { o.settings with arraysAsDatatype := true } }
  | .json => .ok { o with json := true }
  | .verbose => .ok { o with verbose := true }
  | .srcPath | .unresolved | .out => .error .usageError

/-- Applies an option with its value. -/
def setValue (o : Options) (s : Switch) (value : String) : Except Quit Options :=
  match s with
  | .srcPath => .ok { o with settings := { o.settings with srcPath := some value } }
  | .out => .ok { o with out := some (.ofString value) }
  | .unresolved =>
    match UnresolvedPolicy.ofLabel? value with
    | some policy => .ok { o with settings := { o.settings with unresolvedPolicy := policy } }
    | none => .error .usageError
  | _ => .error .usageError

/-- The short options that are joined to one without value, at least one. -/
def joinedSwitches (switches : List (String × Switch)) (text : List Char) :
    Except Quit (List Switch) :=
  if text = [] then .error .usageError
  else text.mapM fun c =>
    match switches.lookup (String.ofList ['-', c]) with
    | some s => .ok s
    | none => .error .usageError

/-- Applies an option with what is attached to it: its value, or further short options. All of
them are known before the first is applied. -/
def applyAttached (o : Options) (switches : List (String × Switch)) (s : Switch) :
    Attached → Except Quit Options
  | .value text => o.setValue s text
  | .joined text =>
    if s.takesValue then o.setValue s (String.ofList text)
    else do (s :: (← joinedSwitches switches text)).foldlM setFlag o

end Options

/-- The import command under way: the options so far, whether the file names were read, and
whether something was left over. -/
structure Reading where
  options : Options := {}
  filesRead : Bool := false
  leftOver : Bool := false

/-- Reads the arguments of the import command from left to right. -/
def readArgs (r : Reading) (args : List (String × ArgKind)) : Except Quit Reading :=
  match args with
  | [] => .ok r
  | (_, .unknownSwitch) :: rest => readArgs { r with leftOver := true } rest
  | (_, .switch s (some attached)) :: rest => do
    readArgs { r with options := ← r.options.applyAttached importSwitches s attached } rest
  | (_, .switch s none) :: rest =>
    if s.takesValue then
      match rest with
      | (value, .plain) :: rest => do
        readArgs { r with options := ← r.options.setValue s value } rest
      | _ => .error .usageError
    else do readArgs { r with options := ← r.options.setFlag s } rest
  | (arg, kind) :: rest =>
    let isFile : String × ArgKind → Bool := fun a => a.2 = .plain || a.2 = .dashes
    let run := (arg, kind) :: rest.takeWhile isFile
    let after := rest.drop (rest.takeWhile isFile).length
    if r.filesRead || run.all (·.2 = .dashes) then readArgs { r with leftOver := true } after
    else
      let files := (run.filter (·.2 ≠ .dashes)).map fun a => PathName.ofString a.1
      readArgs { r with options := { r.options with files }, filesRead := true } after
termination_by args.length
decreasing_by
  all_goals simp only [List.length_cons, List.length_drop]
  all_goals omega

/-- Reads the arguments after the command. -/
def readImport (args : List String) : Except Quit Reading := do
  let r ← readArgs {} (← classifyAll importSwitches args)
  if r.filesRead then return r else throw .usageError

/-- Reads the arguments before the command, then the command and what follows it. -/
def readProgram (leftOver : Bool) : List (String × ArgKind) → Except Quit Options
  | [] => .error .usageError
  | (_, .unknownSwitch) :: rest => readProgram true rest
  | (_, .switch s attached) :: rest => do
    let _ ← match attached with
      | none => Options.setFlag {} s
      | some attached => Options.applyAttached {} programSwitches s attached
    readProgram leftOver rest
  | (_, .dashes) :: _ => .error .usageError
  | (command, .plain) :: rest =>
    if command ≠ importCommand then .error .usageError
    else do
      let r ← readImport (rest.map (·.1))
      if leftOver || r.leftOver then throw .usageError else return r.options

/-- Reads the arguments of the program. -/
def parseOptions (args : List String) : Except Quit Options := do
  readProgram false (← classifyAll programSwitches args)

end DeclGraph.CommandLine
