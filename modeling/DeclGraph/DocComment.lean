import DeclGraph.Text.Blank

/-!
Documentation comments. Cleaning takes a comment as written and gives the documentation in it: the
delimiters and the column of asterisks at the left go, the text of the lines stays.
-/

namespace DeclGraph.DocComment

/-- Blanks and tabs, which may stand before the asterisk of a line. -/
def isIndent (c : Char) : Bool := c = ' ' || c = '\t'

/-- A text up to and with its first line end, and what follows. -/
def splitLine : List Char → List Char × List Char
  | [] => ([], [])
  | c :: rest =>
    if c = '\n' then ([c], rest)
    else (c :: (splitLine rest).1, (splitLine rest).2)

theorem append_splitLine (s : List Char) : (splitLine s).1 ++ (splitLine s).2 = s := by
  induction s with
  | nil => rfl
  | cons c rest ih =>
    by_cases h : c = '\n'
    · simp [splitLine, h]
    · simpa [splitLine, h] using ih

theorem length_splitLine_snd_lt (c : Char) (rest : List Char) :
    (splitLine (c :: rest)).2.length < (c :: rest).length := by
  by_cases h : c = '\n'
  · simp [splitLine, h]
  · have := congrArg List.length (append_splitLine rest)
    simp only [List.length_append] at this
    simp [splitLine, h]
    omega

/-- The text without its decoration. Asterisks at the start of a line are dropped with the
indentation before them; from the first other character on, the line is kept. `starred` tells
whether an asterisk was seen on this line: blanks after it belong to the text. -/
def undecorate (starred : Bool) (s : List Char) : List Char :=
  match s with
  | [] => []
  | c :: rest =>
    if c = '*' then undecorate true rest
    else if isIndent c && !starred then undecorate false rest
    else if (c :: rest).all isIndent then []
    else (splitLine (c :: rest)).1 ++ undecorate false (splitLine (c :: rest)).2
termination_by s.length
decreasing_by
  · simp
  · simp
  · exact length_splitLine_snd_lt c rest

/-- Drops the end of the comment, or the slash that is left of it. -/
def dropTerminator (s : List Char) : List Char :=
  match s.reverse with
  | '/' :: '*' :: rest => rest.reverse
  | '/' :: rest => rest.reverse
  | _ => s

/-- Drops the start of the comment. -/
def dropOpening : List Char → List Char
  | '/' :: '*' :: '*' :: rest => rest
  | s => s

/-- The least number of characters, blanks at the ends not counted, of a comment that says
something. -/
def leastLength : Nat := 5

/-- The documentation in a comment, if there is any. -/
def clean (text : String) : Option String :=
  if (Text.trim Text.isBlank text.toList).length < leastLength then none
  else
    let body := Text.trimRight Text.isBlank (undecorate true (dropOpening text.toList))
    match Text.trim Text.isBlank (dropTerminator body) with
    | [] => none
    | s => some (String.ofList s)

end DeclGraph.DocComment
