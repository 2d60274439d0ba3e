import DeclGraph.Text.UpperCase

/-!
Modifiers of declarations, and sets of them.
-/

namespace DeclGraph

inductive Modifier where
  | pub
  | priv
  | prot
  | static
  | abstract
  | final
  | readonly
  deriving DecidableEq, Repr

namespace Modifier

def all : List Modifier := [pub, priv, prot, static, abstract, final, readonly]

/-- The word of the notation. -/
def word : Modifier → String
  | pub => "public"
  | priv => "private"
  | prot => "protected"
  | static => "static"
  | abstract => "abstract"
  | final => "final"
  | readonly => "readonly"

/-- The name under which a word is looked up. -/
def label (m : Modifier) : String := Text.upper m.word

/-- Whether the modifier says who may see a declaration. -/
def isAccess : Modifier → Bool
  | pub | priv | prot => true
  | _ => false

end Modifier

/-- A set of modifiers. -/
structure ModifierSet where
  isPublic : Bool := false
  isPrivate : Bool := false
  isProtected : Bool := false
  isStatic : Bool := false
  isAbstract : Bool := false
  isFinal : Bool := false
  isReadOnly : Bool := false
  deriving DecidableEq, Repr

/-- A word that names no modifier; the fault keeps the upper case form that was looked up. -/
structure UnknownModifier where
  label : String
  deriving DecidableEq, Repr

namespace ModifierSet

def insert (s : ModifierSet) : Modifier → ModifierSet
  | .pub => { s with isPublic := true }
  | .priv => { s with isPrivate := true }
  | .prot => { s with isProtected := true }
  | .static => { s with isStatic := true }
  | .abstract => { s with isAbstract := true }
  | .final => { s with isFinal := true }
  | .readonly => { s with isReadOnly := true }

def ofList (ms : List Modifier) : ModifierSet :=
  ms.foldl insert {}

/-- The set that a declaration with the given modifiers has: without one for access, the declaration
is public. -/
def declared (ms : List Modifier) : ModifierSet :=
  if ms.any Modifier.isAccess then ofList ms else (ofList ms).insert .pub

/-- The set as a number, one bit a modifier in the order of `Modifier.all`. -/
def toNat (s : ModifierSet) : Nat :=
  s.isPublic.toNat + 2 * s.isPrivate.toNat + 4 * s.isProtected.toNat + 8 * s.isStatic.toNat +
    16 * s.isAbstract.toNat + 32 * s.isFinal.toNat + 64 * s.isReadOnly.toNat

/-- Adds the modifier of a word in any mixture of cases; the word `none` adds nothing. -/
def insertWord (s : ModifierSet) (word : String) : Except UnknownModifier ModifierSet :=
  let label := Text.upper word
  if label = "NONE" then .ok s
  else match Modifier.all.find? (·.label = label) with
    | some m => .ok (s.insert m)
    | none => .error ⟨label⟩

/-- The set that words name. -/
def ofWords (words : List String) : Except UnknownModifier ModifierSet :=
  words.foldlM insertWord {}

/-- The set that the words of a declaration stand for: without one of the lower case words for
access, a declaration is public. -/
def ofDeclaration (words : List String) : Except UnknownModifier ModifierSet := do
  let s ← ofWords words
  if words.any fun w => Modifier.all.any fun m => m.isAccess && m.word = w then return s
  else return s.insert .pub

end ModifierSet

end DeclGraph
