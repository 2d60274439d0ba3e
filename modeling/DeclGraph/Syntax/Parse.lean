import DeclGraph.Syntax.Documentation
import DeclGraph.Syntax.Fault
import DeclGraph.Syntax.Lexeme
import DeclGraph.Syntax.Reader

/-!
Reading a source text. Lexemes are taken off the text one after the other; what is tried next
depends on where the reader stands. The result is the unit with documentation attached, or the
first fault with its place.
-/

namespace DeclGraph

/-- The course of reading a text: the reader, the place reached, the start of the last token and
the documentation comments met, the latest first. -/
structure Course where
  reader : Reader := {}
  place : Place := {}
  lastToken : Place := {}
  docs : List DocToken := []

/-- A fault at a place, before the file is known. -/
abbrev Faulty := SourceFault × Place

namespace Course

/-- The fault at a place where nothing that is offered stands. -/
def strayFault (c : Char) (rest : List Char) : SourceFault :=
  match Lexeme.diagnose? (c :: rest) with
  | some (t, text) => .unexpectedToken t.label (String.ofList text)
  | none => .unexpectedChar c

/-- Goes on after a lexeme. -/
def take (s : Course) (kind : Lexeme.Kind) (text : List Char) : Except Faulty Course :=
  let place := s.place.advance text
  match kind with
  | .space => .ok { s with place }
  | .docComment =>
    .ok { s with place, docs := ⟨String.ofList text, s.place.offset, place.offset⟩ :: s.docs }
  | .token t =>
    match s.reader.step ⟨t, text, s.place, place.offset⟩ with
    | some reader => .ok { s with reader, place, lastToken := s.place }
    | none => .error (.unexpectedToken t.label (String.ofList text), s.place)

/-- Reads a text to its end. A lexeme is never empty: its first character is taken in any case. -/
def run (s : Course) (text : List Char) : Except Faulty Course :=
  match text with
  | [] => .ok s
  | c :: rest =>
    match Lexeme.next? s.reader.position.offers (c :: rest) with
    | none => .error (strayFault c rest, s.place)
    | some (kind, n) =>
      match s.take kind (c :: rest.take (n - 1)) with
      | .error e => .error e
      | .ok s => s.run (rest.drop (n - 1))
termination_by text.length
decreasing_by
  simp only [List.length_cons, List.length_drop]
  omega

end Course

/-- The unit in a source text, or the first fault in it and the place of that. -/
def readUnit (source : String) : Except Faulty CompilationUnit := do
  let s ← Course.run {} source.toList
  match s.reader.finish with
  | some u => return u.attachDocs s.docs.reverse
  | none => throw (.unexpectedEnd, s.lastToken)

/-- The span of a place in a file. -/
def Place.span (p : Place) (file : Option String) : Span :=
  Span.ofReport { line := some p.line, column := some p.column } file

/-- Reads the source text of a file. -/
def parseSource (source : String) (file : Option String) : Except SourceError CompilationUnit :=
  match readUnit source with
  | .ok u => .ok { u with file }
  | .error (fault, p) => .error ⟨fault, p.span file⟩

end DeclGraph
