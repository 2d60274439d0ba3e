import DeclGraph.Syntax.Terminal
import DeclGraph.Text.Blank

/-!
Lexemes: how much of a text a terminal or a comment takes from its start. Which terminals are
tried depends on where the reader is; blanks and comments are always tried. The first in a fixed
order that takes something wins, however long the others would be.
-/

namespace DeclGraph.Lexeme

def isNameStart (c : Char) : Bool := c.isAlpha || c = '_'
def isNameChar (c : Char) : Bool := c.isAlphanum || c = '_'

/-- The length of the identifier at the start of a text, zero if there is none. -/
def identifierLength : List Char → Nat
  | [] => 0
  | c :: rest => if isNameStart c then 1 + (rest.takeWhile isNameChar).length else 0

/-- The length of the separator at the start of a text: a dot or two colons. -/
def separatorLength : List Char → Nat
  | '.' :: _ => 1
  | ':' :: ':' :: _ => 2
  | _ => 0

/-- The length of the separated identifiers at the start of a text, separators included. -/
def segmentsLength (s : List Char) : Nat :=
  let sep := separatorLength s
  let ident := identifierLength (s.drop sep)
  if _h : sep = 0 ∨ ident = 0 then 0
  else sep + ident + segmentsLength (s.drop (sep + ident))
termination_by s.length
decreasing_by
  have : s ≠ [] := by
    rintro rfl
    simp [sep, separatorLength] at _h
  have := List.length_pos_iff.2 this
  simp only [List.length_drop]
  omega

/-- A qualified name. -/
def nameLength (s : List Char) : Nat :=
  let ident := identifierLength s
  if ident = 0 then 0 else ident + segmentsLength (s.drop ident)

/-- The length of what closes a string, from after its opening quote on. A backslash takes the
next character along, which must not be a line end. -/
def stringRest? (quote : Char) : List Char → Option Nat
  | [] => none
  | '\\' :: c :: rest => if c = '\n' then none else (· + 2) <$> stringRest? quote rest
  | c :: rest =>
    if c = quote then some 1
    else if c = '\\' then none
    else (· + 1) <$> stringRest? quote rest

/-- The length of the string or the single character with which an initializer goes on. -/
def valuePieceLength : List Char → Nat
  | [] => 0
  | c :: rest =>
    if c = '\x22' ∨ c = '\x27' then ((stringRest? c rest).map (· + 1)).getD 0
    else if c = ';' then 0
    else 1

/-- The text up to the next semicolon outside of strings, or up to a quote that opens no string. -/
def valueLength (s : List Char) : Nat :=
  let n := valuePieceLength s
  if _h : n = 0 then 0 else n + valueLength (s.drop n)
termination_by s.length
decreasing_by
  have : s ≠ [] := by
    rintro rfl
    simp [n, valuePieceLength] at _h
  have := List.length_pos_iff.2 this
  simp only [List.length_drop]
  omega

/-- An initializer, which does not start with a blank. -/
def initializerLength : List Char → Nat
  | [] => 0
  | c :: rest => if Text.isBlank c then 0 else valueLength (c :: rest)

/-- Brackets around an optional number. -/
def arrayLength : List Char → Nat
  | '[' :: rest =>
    let digits := rest.dropWhile Text.isBlank
    let close := (digits.dropWhile Char.isDigit).dropWhile Text.isBlank
    match close with
    | ']' :: after => 1 + rest.length - after.length
    | _ => 0
  | _ => 0

/-- The length of a text up to the end of a comment. -/
def commentRest? : List Char → Option Nat
  | [] => none
  | '*' :: '/' :: _ => some 2
  | _ :: rest => (· + 1) <$> commentRest? rest

/-- A documentation comment. A comment of two asterisks and nothing else is none. -/
def docCommentLength : List Char → Nat
  | '/' :: '*' :: '*' :: '/' :: _ => 0
  | '/' :: '*' :: '*' :: rest => ((commentRest? rest).map (· + 3)).getD 0
  | _ => 0

def blockCommentLength : List Char → Nat
  | '/' :: '*' :: rest => ((commentRest? rest).map (· + 2)).getD 0
  | _ => 0

def lineCommentLength : List Char → Nat
  | '/' :: '/' :: rest => 2 + (rest.takeWhile (· ≠ '\n')).length
  | _ => 0

def isSpace (c : Char) : Bool :=
  c = ' ' || c = '\t' || c = '\x0c' || c = '\r' || c = '\n'

def spaceLength (s : List Char) : Nat := (s.takeWhile isSpace).length

/-- The length of a fixed text at the start of another, zero if it is not there. -/
def literalLength (text : String) (s : List Char) : Nat :=
  if text.toList.isPrefixOf s then text.length else 0

/-- The terminal with the longest fixed text at the start of a text, and its length. -/
def longestLiteral? (ts : List Terminal) (s : List Char) : Option (Terminal × Nat) :=
  let candidates := ts.filterMap fun t =>
    (t.text?.map (literalLength · s)).bind fun n => if n = 0 then none else some (t, n)
  candidates.foldl (fun best c => match best with
    | some b => if b.2 < c.2 then some c else some b
    | none => some c) none

/-- The terminal with exactly the given text. -/
def withText? (ts : List Terminal) (text : List Char) : Option Terminal :=
  ts.find? fun t => t.text? = some (String.ofList text)

/-- What stands at the start of a text. -/
inductive Kind where
  | space
  | docComment
  | token (t : Terminal)
  deriving DecidableEq, Repr

/-- A lexeme that was tried, with its length. -/
def tried (kind : Kind) (n : Nat) : Option (Kind × Nat) :=
  if n = 0 then none else some (kind, n)

/-- A name where names are offered; it is a keyword if its whole text is that of a keyword that is
offered, too. -/
def name? (offered : List Terminal) (s : List Char) : Option (Kind × Nat) :=
  let n := nameLength s
  tried (.token ((withText? offered (s.take n)).getD .name)) n

/-- A terminal with a fixed text. Where names are offered, keywords are not tried by themselves. -/
def literal? (offered : List Terminal) (s : List Char) : Option (Kind × Nat) :=
  let ts := if .name ∈ offered then offered.filter fun t => t matches .mark _ else offered
  (longestLiteral? ts s).map fun (t, n) => (.token t, n)

/-- The lexeme at the start of a text where the given terminals are offered. -/
def next? (offered : List Terminal) (s : List Char) : Option (Kind × Nat) :=
  tried .docComment (docCommentLength s)
  <|> (if .initializer ∈ offered then tried (.token .initializer) (initializerLength s) else none)
  <|> (if .name ∈ offered then name? offered s else none)
  <|> (if .array ∈ offered then tried (.token .array) (arrayLength s) else none)
  <|> tried .space (blockCommentLength s)
  <|> tried .space (spaceLength s)
  <|> tried .space (lineCommentLength s)
  <|> literal? offered s

/-- What to call the text at a place where nothing that is offered stands: an initializer, unless
that is the whole text of a fixed terminal; a semicolon; or nothing at all. -/
def diagnose? (s : List Char) : Option (Terminal × List Char) :=
  match initializerLength s with
  | 0 => if s.head? = some ';' then some (.mark .semicolon, [';']) else none
  | n => some ((withText? Terminal.literals (s.take n)).getD .initializer, s.take n)

end DeclGraph.Lexeme
