/-!
Names of files. A name is a root and components; empty components and single dots between slashes
do not count, and two dots are kept as they stand.
-/

namespace DeclGraph

/-- Where a file name starts: at the current directory, at the root, or at the alternative root
that exactly two leading slashes name. -/
inductive PathRoot where
  | relative
  | root
  | doubleRoot
  deriving DecidableEq, Repr

def PathRoot.spelling : PathRoot → String
  | .relative => ""
  | .root => "/"
  | .doubleRoot => "//"

structure PathName where
  root : PathRoot
  parts : List String
  deriving DecidableEq, Repr

namespace PathName

def rootOf (s : List Char) : PathRoot :=
  match s.takeWhile (· == '/') with
  | [] => .relative
  | [_, _] => .doubleRoot
  | _ => .root

/-- Reads a file name. -/
def ofString (s : String) : PathName where
  root := rootOf s.toList
  parts := ((s.toList.splitOn '/').map String.ofList).filter fun p => p ≠ "" ∧ p ≠ "."

/-- The spelling of a file name; the empty name is a dot. -/
def spelling (p : PathName) : String :=
  match p.root.spelling ++ "/".intercalate p.parts with
  | "" => "."
  | s => s

/-- The last component, empty if there is none. -/
def baseName (p : PathName) : String :=
  p.parts.getLast?.getD ""

/-- Whether a name holds the character that ends names where they are handed to the system. No
file can be opened by such a name. -/
def hasNul (p : PathName) : Bool :=
  p.parts.any (·.toList.contains '\x00')

end PathName

end DeclGraph
