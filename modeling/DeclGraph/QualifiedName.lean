import DeclGraph.Text.Blank

/-!
Qualified names. The segments of a name are separated by a dot, for which a pair of colons may
stand; a name splits at its last separator into the name of a package and a simple name.
-/

namespace DeclGraph.QualifiedName

/-- Writes every pair of colons, from left to right, as a dot. -/
def dotted : List Char → List Char
  | [] => []
  | ':' :: ':' :: rest => '.' :: dotted rest
  | c :: rest => c :: dotted rest

/-- A name without blanks at its ends, with dots as the only separators. -/
def normalize (name : String) : String :=
  String.ofList (dotted (Text.trim Text.isBlank name.toList))

/-- Splits at the last dot; without a dot the first part is empty. -/
def splitLast (s : List Char) : List Char × List Char :=
  let simple := (s.reverse.takeWhile (· ≠ '.')).reverse
  (s.take (s.length - simple.length - 1), simple)

/-- The package part and the simple part of a name. -/
def split (name : String) : String × String :=
  let (package, simple) := splitLast (normalize name).toList
  (String.ofList package, String.ofList simple)

/-- The nonempty segments of a name. -/
def segments (name : String) : List String :=
  (((normalize name).toList.splitOn '.').filter (· ≠ [])).map String.ofList

/-- The name of a directed edge that has none of its own. -/
def fromTo (source target : Option String) : String :=
  source.getD "" ++ " -> " ++ target.getD ""

end DeclGraph.QualifiedName
