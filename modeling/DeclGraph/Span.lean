/-!
Places in source texts, as messages name them.
-/

namespace DeclGraph

/-- Where something stands; whatever is not known is left out. -/
structure Span where
  file : Option String := none
  line : Option Int := none
  column : Option Int := none
  endLine : Option Int := none
  endColumn : Option Int := none
  deriving DecidableEq, Repr, Inhabited

namespace Span

/-- A reported position counts if it is not negative. -/
def known (position : Option Int) : Option Int :=
  position.filter (0 ≤ ·)

/-- A name that is present and not empty. -/
def nonempty (name : Option String) : Option String :=
  name.filter (· ≠ "")

/-- The span of a reported place. A file given by the caller, unless empty, goes before the file
that the report names. -/
def ofReport (report : Span) (file : Option String) : Span where
  file := nonempty file <|> report.file
  line := known report.line
  column := known report.column
  endLine := known report.endLine
  endColumn := known report.endColumn

/-- The place in the form `file:line:column`, as far as it is known. -/
def format (s : Span) : String :=
  match s.line with
  | none => (nonempty s.file).getD "<unknown>"
  | some line =>
    let column := match s.column with
      | none => ""
      | some column => ":" ++ toString column
    (nonempty s.file).getD "<input>" ++ ":" ++ toString line ++ column

/-- A message with its place in front, if the file or the line is known. -/
def locate (s : Span) (message : String) : String :=
  if s.line.isNone && s.file.isNone then message else s.format ++ ": " ++ message

end Span

end DeclGraph
