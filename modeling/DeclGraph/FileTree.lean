import DeclGraph.PathName
import DeclGraph.Text.Quoted

/-!
Trees of files around a current directory, with what reading and writing a file by name comes to.
-/

namespace DeclGraph

inductive FileCause where
  | missing
  | notDirectory
  | isDirectory
  | nameTooLong
  /-- Any other refusal of the system, with its number and text. -/
  | other (code : Nat) (text : String)
  deriving DecidableEq, Repr

/-- A file that cannot be opened, by the name that was asked for. -/
structure FileFault where
  cause : FileCause
  path : PathName
  deriving DecidableEq, Repr

def FileCause.message : FileCause → String
  | .missing => "[Errno 2] No such file or directory"
  | .notDirectory => "[Errno 20] Not a directory"
  | .isDirectory => "[Errno 21] Is a directory"
  | .nameTooLong => "[Errno 36] File name too long"
  | .other code text => "[Errno " ++ toString code ++ "] " ++ text

def FileFault.message (f : FileFault) : String :=
  f.cause.message ++ ": " ++ Text.quoted f.path.spelling

/-- The directories from which places are counted: those some levels above the current one, and
the root. -/
inductive Base where
  | above (levels : Nat)
  | root
  deriving DecidableEq, Repr

/-- A place in the tree, without dots in its components. -/
structure Spot where
  base : Base
  parts : List String := []
  deriving DecidableEq, Repr

inductive FileEntry where
  | file (bytes : List UInt8)
  | directory
  deriving DecidableEq, Repr

/-- The files and the directories that are known. Those from which places are counted are known
as well. -/
structure FileTree where
  entries : List (Spot × FileEntry) := []

namespace Spot

/-- The directory around a place. -/
def parent (s : Spot) : Spot :=
  match s.parts, s.base with
  | [], .above levels => { base := .above (levels + 1) }
  | [], .root => s
  | parts, _ => { s with parts := parts.dropLast }

/-- The place to which a component leads; two dots lead up. -/
def step (s : Spot) (part : String) : Spot :=
  if part = ".." then s.parent else { s with parts := s.parts ++ [part] }

/-- The directory from which a name is followed. -/
def start (p : PathName) : Spot :=
  { base := match p.root with
      | .relative => .above 0
      | _ => .root }

end Spot

namespace FileTree

/-- What is at a place. -/
def entry? (tree : FileTree) (s : Spot) : Option FileEntry :=
  match tree.entries.lookup s with
  | some e => some e
  | none => if s.parts.isEmpty then some .directory else none

/-- The most bytes that a component of a name may have. -/
def maxPart : Nat := 255

/-- The most bytes that a name may have. -/
def maxName : Nat := 4095

/-- Follows components from a place. All that are passed through have to be directories, and a
component that is too long is refused when it is come to. -/
def follow (tree : FileTree) : Spot → List String → Except FileCause Spot
  | s, [] => .ok s
  | s, part :: rest =>
    match tree.entry? s with
    | none => .error .missing
    | some (.file _) => .error .notDirectory
    | some .directory =>
      if maxPart < part.utf8ByteSize then .error .nameTooLong
      else tree.follow (s.step part) rest

/-- The place that a name leads to. -/
def locate (tree : FileTree) (p : PathName) : Except FileCause Spot :=
  if maxName < p.spelling.utf8ByteSize then .error .nameTooLong
  else tree.follow (.start p) p.parts

/-- The bytes of a file. -/
def read (tree : FileTree) (p : PathName) : Except FileFault (List UInt8) :=
  match tree.locate p with
  | .error cause => .error ⟨cause, p⟩
  | .ok s =>
    match tree.entry? s with
    | none => .error ⟨.missing, p⟩
    | some .directory => .error ⟨.isDirectory, p⟩
    | some (.file bytes) => .ok bytes

/-- The tree with something else at a place. -/
def put (tree : FileTree) (s : Spot) (e : FileEntry) : FileTree :=
  ⟨(s, e) :: tree.entries.filter (·.1 ≠ s)⟩

/-- Writes a file into a directory that exists. -/
def write (tree : FileTree) (p : PathName) (bytes : List UInt8) : Except FileFault FileTree :=
  match tree.locate p with
  | .error cause => .error ⟨cause, p⟩
  | .ok s =>
    match tree.entry? s with
    | some .directory => .error ⟨.isDirectory, p⟩
    | _ => .ok (tree.put s (.file bytes))

/-- Follows components from a place and makes the directories that are missing on the way. -/
def makeWay (tree : FileTree) (s : Spot) : List String → FileTree × Spot
  | [] => (tree, s)
  | part :: rest =>
    let tree := if (tree.entry? s).isNone then tree.put s .directory else tree
    tree.makeWay (s.step part) rest

/-- Adds an entry and the directories on the way to it. -/
def add (tree : FileTree) (p : PathName) (e : FileEntry) : FileTree :=
  let (tree, s) := tree.makeWay (.start p) p.parts
  tree.put s e

end FileTree

end DeclGraph
