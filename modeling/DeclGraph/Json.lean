import DeclGraph.Text.Hex

/-!
JSON values and their written form: two blanks of indentation a level, the keys of an object in
order of code points, and every character that is not printable ASCII as an escape.
-/

namespace DeclGraph

inductive Json where
  | null
  | bool (b : Bool)
  | int (n : Int)
  | str (s : String)
  | arr (items : List Json)
  | obj (fields : List (String × Json))
  deriving Inhabited, Repr

namespace Json

def ofOption {α : Type} (f : α → Json) : Option α → Json
  | none => null
  | some a => f a

def strOrNull : Option String → Json := ofOption str
def intOrNull : Option Int → Json := ofOption int

/-- One UTF-16 unit as an escape. -/
def escapeUnit (n : Nat) : List Char := '\\' :: 'u' :: Text.hexDigits 4 n

/-- How a character is written inside a string. Characters above the basic plane become a pair of
surrogate escapes. -/
def escapeChar (c : Char) : List Char :=
  match c with
  | '\x22' => ['\\', '\x22']
  | '\\' => ['\\', '\\']
  | '\n' => ['\\', 'n']
  | '\r' => ['\\', 'r']
  | '\t' => ['\\', 't']
  | '\x08' => ['\\', 'b']
  | '\x0c' => ['\\', 'f']
  | c =>
    let n := c.toNat
    if 0x20 ≤ n ∧ n < 0x7f then [c]
    else if n < 0x10000 then escapeUnit n
    else
      let high := 0xd800 + (n - 0x10000) / 0x400
      let low := 0xdc00 + (n - 0x10000) % 0x400
      escapeUnit high ++ escapeUnit low

def renderString (s : String) : String :=
  "\"" ++ String.ofList (s.toList.flatMap escapeChar) ++ "\""

/-- A line break and the indentation of a level. -/
def lineBreak (level : Nat) : String :=
  "\n" ++ String.ofList (List.replicate (2 * level) ' ')

/-- Fields in order of their keys. -/
def sortFields (fields : List (String × Json)) : List (String × Json) :=
  fields.mergeSort fun a b => a.1 ≤ b.1

mutual

/-- The same value with the fields of every object in order of their keys. -/
def sorted : Json → Json
  | arr items => arr (sortedItems items)
  | obj fields => obj (sortFields (sortedFields fields))
  | v => v

def sortedItems : List Json → List Json
  | [] => []
  | v :: rest => sorted v :: sortedItems rest

def sortedFields : List (String × Json) → List (String × Json)
  | [] => []
  | (k, v) :: rest => (k, sorted v) :: sortedFields rest

end

mutual

/-- Writes a value, its inner lines indented below `level`, with the fields in the order given. -/
def render (level : Nat) : Json → String
  | null => "null"
  | bool true => "true"
  | bool false => "false"
  | int n => toString n
  | str s => renderString s
  | arr [] => "[]"
  | arr items =>
    "[" ++ ",".intercalate (renderItems (level + 1) items) ++ lineBreak level ++ "]"
  | obj [] => "\x7b\x7d"
  | obj fields =>
    "\x7b" ++ ",".intercalate (renderFields (level + 1) fields) ++ lineBreak level ++ "\x7d"

def renderItems (level : Nat) : List Json → List String
  | [] => []
  | v :: rest => (lineBreak level ++ render level v) :: renderItems level rest

def renderFields (level : Nat) : List (String × Json) → List String
  | [] => []
  | (k, v) :: rest =>
    (lineBreak level ++ renderString k ++ ": " ++ render level v) :: renderFields level rest

end

/-- The written form of a value. -/
def pretty (v : Json) : String := render 0 v.sorted

end Json

end DeclGraph
