import DeclGraph.Syntax.Tree

/-!
Documentation comments find their declarations. A comment belongs to the first declaration that
starts after it; of several comments for one declaration the last one counts.
-/

namespace DeclGraph

/-- A documentation comment as written, with its extent. -/
structure DocToken where
  text : String
  start : Nat
  stop : Nat
  deriving DecidableEq, Repr

mutual

/-- The offsets at which a declaration and those in it start, in order. -/
def Classifier.starts : Classifier → List Nat
  | .typed head _ members => head.loc.start :: Member.startsOf members
  | .enumeration head .. => [head.loc.start]

def Member.starts : Member → List Nat
  | .attr a => [a.head.loc.start]
  | .operation o => [o.head.loc.start]
  | .classifier c => c.starts

def Member.startsOf : List Member → List Nat
  | [] => []
  | m :: rest => m.starts ++ Member.startsOf rest

end

/-- The head with the comment that a look-up gives for its start. -/
def Head.document (docs : Nat → Option String) (h : Head) : Head :=
  { h with doc := docs h.loc.start }

mutual

/-- Writes to every declaration the comment that a look-up gives for its start. -/
def Classifier.document (docs : Nat → Option String) : Classifier → Classifier
  | .typed head heritage members =>
    .typed (head.document docs) heritage (Member.documentAll docs members)
  | .enumeration head interfaces literals =>
    .enumeration (head.document docs) interfaces literals

def Member.document (docs : Nat → Option String) : Member → Member
  | .attr a => .attr { a with head := a.head.document docs }
  | .operation o => .operation { o with head := o.head.document docs }
  | .classifier c => .classifier (c.document docs)

def Member.documentAll (docs : Nat → Option String) : List Member → List Member
  | [] => []
  | m :: rest => m.document docs :: Member.documentAll docs rest

end

namespace CompilationUnit

/-- The offsets at which the declarations of a unit start. -/
def starts (u : CompilationUnit) : List Nat :=
  u.definitions.flatMap Classifier.starts

/-- The start of the first declaration after a comment. -/
def declarationAfter? (u : CompilationUnit) (d : DocToken) : Option Nat :=
  (u.starts.filter (d.stop ≤ ·)).min?

/-- The last of some comments that belong to the declaration that starts at an offset. -/
def docFor? (u : CompilationUnit) (docs : List DocToken) (start : Nat) : Option String :=
  ((docs.filter fun d => u.declarationAfter? d = some start).getLast?).map (·.text)

/-- Gives every declaration its comment. -/
def attachDocs (u : CompilationUnit) (docs : List DocToken) : CompilationUnit :=
  { u with definitions := u.definitions.map (·.document (u.docFor? docs)) }

end CompilationUnit

end DeclGraph
