/-!
Places in a text: offset, line and column. Lines end at line feeds only; columns count characters.
-/

namespace DeclGraph

structure Place where
  offset : Nat := 0
  line : Nat := 1
  column : Nat := 1
  deriving DecidableEq, Repr

namespace Place

/-- The place after a character. -/
def next (p : Place) (c : Char) : Place :=
  if c = '\n' then ⟨p.offset + 1, p.line + 1, 1⟩ else ⟨p.offset + 1, p.line, p.column + 1⟩

/-- The place after a text. -/
def advance (p : Place) (text : List Char) : Place := text.foldl next p

@[simp] theorem offset_advance (p : Place) (text : List Char) :
    (p.advance text).offset = p.offset + text.length := by
  induction text generalizing p with
  | nil => rfl
  | cons c rest ih =>
    have h : (p.next c).offset = p.offset + 1 := by
      unfold next
      split <;> rfl
    simp only [advance, List.foldl_cons, List.length_cons] at ih ⊢
    rw [ih, h]
    omega

end Place

end DeclGraph
