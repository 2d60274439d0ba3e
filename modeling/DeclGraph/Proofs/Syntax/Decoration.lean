import DeclGraph.DocComment
import Mathlib.Data.List.Infix

/-!
Decorated documentation: lines with blanks and asterisks before them, between the delimiters of a
comment. Cleaning such a comment gives back the lines.
-/

namespace DeclGraph

namespace Text

variable {p : Char → Bool}

lemma dropWhile_of_head {s : List Char} (h : ∀ c ∈ s.head?, p c = false) : s.dropWhile p = s := by
  cases s with
  | nil => rfl
  | cons c s => exact List.dropWhile_cons_of_neg (by simp [h c rfl])

lemma trimRight_of_last {s : List Char} (h : ∀ c ∈ s.getLast?, p c = false) :
    trimRight p s = s := by
  rw [trimRight, dropWhile_of_head (by simpa using h), List.reverse_reverse]

lemma trim_of_ends {s : List Char} (hfirst : ∀ c ∈ s.head?, p c = false)
    (hlast : ∀ c ∈ s.getLast?, p c = false) : trim p s = s := by
  rw [trim, dropWhile_of_head hfirst]
  exact trimRight_of_last hlast

lemma trim_append_blank {c : Char} (hc : p c = true) (s : List Char) :
    trim p (s ++ [c]) = trim p s := by
  have hnone : [c].dropWhile p = [] := List.dropWhile_cons_of_pos hc
  rw [trim, trim, List.dropWhile_append, hnone]
  split
  · next h => rw [List.isEmpty_iff.1 h]
  · rw [List.reverse_append, List.reverse_singleton, List.singleton_append,
      List.dropWhile_cons_of_pos hc]

end Text

namespace DocComment

/-- A line of documentation and its decoration: blanks and tabs, then asterisks. Without asterisks
the text cannot start with a blank, which would be taken for decoration. -/
structure DecoratedLine where
  indent : String
  stars : Nat
  text : String
  indent_blank : ∀ c ∈ indent.toList, isIndent c = true
  text_line : '\n' ∉ text.toList
  text_star : text.toList.head? ≠ some '*'
  text_blank : stars = 0 → ∀ c ∈ text.toList.head?, isIndent c = false

/-- The line as it is written. -/
def DecoratedLine.written (l : DecoratedLine) : String :=
  l.indent ++ String.ofList (List.replicate l.stars '*') ++ l.text

/-- The end of a comment on a line of its own: blanks, asterisks and a slash. -/
def closing (blanks : String) (stars : Nat) : String :=
  blanks ++ String.ofList (List.replicate stars '*') ++ "/"

/-- A comment with a first line, decorated lines and its end on the last line. -/
def decorated (first : String) (lines : List DecoratedLine) (last : String) : String :=
  "\n".intercalate (("/**" ++ first) :: (lines.map DecoratedLine.written ++ [last]))

variable {s rest : List Char}

lemma undecorate_indent (h : ∀ c ∈ s, isIndent c = true) (rest : List Char) :
    undecorate false (s ++ rest) = undecorate false rest := by
  induction s with
  | nil => rfl
  | cons c s ih =>
    obtain ⟨hc, hs⟩ := List.forall_mem_cons.1 h
    have hstar : c ≠ '*' := by
      rintro rfl
      exact absurd hc (by decide)
    rw [List.cons_append, undecorate, if_neg hstar, if_pos (by simp [hc]), ih hs]

lemma undecorate_stars (starred : Bool) (k : Nat) (rest : List Char) :
    undecorate starred (List.replicate k '*' ++ rest)
      = undecorate (starred || decide (0 < k)) rest := by
  induction k generalizing starred with
  | zero => simp
  | succ k ih =>
    rw [List.replicate_succ, List.cons_append, undecorate, if_pos rfl, ih]
    simp

lemma splitLine_line (h : '\n' ∉ s) (rest : List Char) :
    splitLine (s ++ '\n' :: rest) = (s ++ ['\n'], rest) := by
  induction s with
  | nil => rfl
  | cons c s ih =>
    obtain ⟨hc, hs⟩ := not_or.1 (mt List.mem_cons.2 h)
    rw [List.cons_append, splitLine, if_neg (Ne.symm hc), ih hs]
    rfl

/-- The text of a line is kept with the line end. -/
lemma undecorate_text {starred : Bool} (hline : '\n' ∉ s) (hstar : s.head? ≠ some '*')
    (hblank : starred = false → ∀ c ∈ s.head?, isIndent c = false) (rest : List Char) :
    undecorate starred (s ++ '\n' :: rest) = s ++ '\n' :: undecorate false rest := by
  have hsplit := splitLine_line hline rest
  obtain ⟨c, t, hs⟩ : ∃ c t, s ++ '\n' :: rest = c :: t :=
    List.exists_cons_of_ne_nil (by simp)
  have hfirst : c ≠ '*' ∧ (isIndent c && !starred) = false := by
    cases s with
    | nil =>
      obtain ⟨rfl, -⟩ := List.cons.inj hs
      exact ⟨by decide, rfl⟩
    | cons d s =>
      obtain ⟨rfl, -⟩ := List.cons.inj hs
      refine ⟨fun h => hstar (by rw [h]; rfl), ?_⟩
      cases starred with
      | true => simp
      | false => simp [hblank rfl d rfl]
  have hsome : (c :: t).all isIndent = false := by
    rw [← hs]
    simp [isIndent]
  rw [hs] at hsplit ⊢
  rw [undecorate, if_neg hfirst.1, if_neg (by simp [hfirst.2]), if_neg (by simp [hsome]), hsplit,
    List.append_assoc]
  rfl

lemma undecorate_written (l : DecoratedLine) (rest : List Char) :
    undecorate false (l.written.toList ++ '\n' :: rest)
      = l.text.toList ++ '\n' :: undecorate false rest := by
  have hwritten : l.written.toList ++ '\n' :: rest = l.indent.toList
      ++ (List.replicate l.stars '*' ++ (l.text.toList ++ '\n' :: rest)) := by
    simp [DecoratedLine.written]
  rw [hwritten, undecorate_indent l.indent_blank, undecorate_stars]
  exact undecorate_text l.text_line l.text_star (fun h => l.text_blank (by simpa using h)) rest

lemma toList_closing (blanks : String) (stars : Nat) :
    (closing blanks stars).toList = blanks.toList ++ List.replicate stars '*' ++ ['/'] := by
  simp [closing]

lemma undecorate_closing {blanks : String} (h : ∀ c ∈ blanks.toList, isIndent c = true)
    (k : Nat) : undecorate false (closing blanks (k + 1)).toList = ['/'] := by
  have hslash : undecorate true ['/'] = ['/'] := by
    simp [undecorate, splitLine, isIndent]
  rw [toList_closing, List.append_assoc, undecorate_indent h, undecorate_stars]
  simpa using hslash

/-- Texts of which each ends a line. -/
def ended (lines : List String) : List Char := lines.flatMap fun l => l.toList ++ ['\n']

lemma intercalate_concat (lines : List String) (last : String) :
    ("\n".intercalate (lines ++ [last])).toList = ended lines ++ last.toList := by
  rw [String.toList_intercalate]
  induction lines with
  | nil => simp [ended]
  | cons l lines ih =>
    obtain ⟨m, ms, hms⟩ := List.exists_cons_of_ne_nil
      (List.append_ne_nil_of_right_ne_nil lines (List.cons_ne_nil last []))
    rw [hms] at ih
    rw [List.cons_append, hms, List.map_cons, List.map_cons, List.intercalate_cons_cons,
      ← List.map_cons, ih]
    simp [ended]

lemma ended_cons (l : String) (lines : List String) :
    ended (l :: lines) = ("\n".intercalate (l :: lines)).toList ++ ['\n'] := by
  rw [← List.dropLast_concat_getLast (List.cons_ne_nil l lines), intercalate_concat]
  simp [ended]

/-- Of the end of a comment on a line of its own only the slash is left. -/
lemma dropTerminator_ended (l : String) (lines : List String) :
    dropTerminator (ended (l :: lines) ++ ['/']) = ended (l :: lines) := by
  simp [dropTerminator, ended_cons]

lemma undecorate_lines (lines : List DecoratedLine) (rest : List Char) :
    undecorate false (ended (lines.map DecoratedLine.written) ++ rest)
      = ended (lines.map DecoratedLine.text) ++ undecorate false rest := by
  induction lines with
  | nil => rfl
  | cons l lines ih =>
    have hrest := undecorate_written l (ended (lines.map DecoratedLine.written) ++ rest)
    rw [ih] at hrest
    simpa [ended] using hrest

lemma toList_decorated (first : String) (lines : List DecoratedLine) (last : String) :
    (decorated first lines last).toList = '/' :: '*' :: '*' :: (first.toList ++ '\n' ::
      (ended (lines.map DecoratedLine.written) ++ last.toList)) := by
  rw [decorated, ← List.cons_append, intercalate_concat]
  simp [ended]

/-- A comment starts and ends with a slash, so that no blanks are cut from it. -/
lemma length_trim_decorated (first blanks : String) (lines : List DecoratedLine) (k : Nat) :
    leastLength ≤
      (Text.trim Text.isBlank (decorated first lines (closing blanks (k + 1))).toList).length := by
  have hslash : Text.isBlank '/' = false := by decide
  let inner := '*' :: '*' :: (first.toList ++ '\n' :: (ended (lines.map DecoratedLine.written)
    ++ (blanks.toList ++ List.replicate (k + 1) '*')))
  have htext : (decorated first lines (closing blanks (k + 1))).toList
      = ('/' :: inner) ++ ['/'] := by
    rw [toList_decorated, toList_closing]
    simp [inner]
  rw [htext, Text.trim_of_ends]
  · simp [inner, leastLength]
    omega
  · simp [hslash]
  · rw [List.getLast?_concat]
    simp [hslash]

/-- What cleaning a comment leaves is the documentation in the lines, without the blanks around
it; there is none if nothing else is in them. -/
theorem clean_decorated {first blanks : String} (hline : '\n' ∉ first.toList)
    (hstar : first.toList.head? ≠ some '*') (lines : List DecoratedLine)
    (hblanks : ∀ c ∈ blanks.toList, isIndent c = true) (k : Nat) :
    clean (decorated first lines (closing blanks (k + 1))) =
      let doc := Text.strip ("\n".intercalate (first :: lines.map DecoratedLine.text))
      if doc = "" then none else some doc := by
  have hbody : undecorate true (dropOpening (decorated first lines (closing blanks (k + 1))).toList)
      = ended (first :: lines.map DecoratedLine.text) ++ ['/'] := by
    rw [toList_decorated, dropOpening, undecorate_text hline hstar (by simp), undecorate_lines,
      undecorate_closing hblanks]
    simp [ended]
  have hright : Text.trimRight Text.isBlank (ended (first :: lines.map DecoratedLine.text) ++ ['/'])
      = ended (first :: lines.map DecoratedLine.text) ++ ['/'] :=
    Text.trimRight_of_last (by simp [Text.isBlank])
  have hdoc : Text.trim Text.isBlank (dropTerminator (Text.trimRight Text.isBlank
        (undecorate true (dropOpening (decorated first lines (closing blanks (k + 1))).toList))))
      = Text.trim Text.isBlank
        ("\n".intercalate (first :: lines.map DecoratedLine.text)).toList := by
    rw [hbody, hright, dropTerminator_ended, ended_cons, Text.trim_append_blank (by decide)]
  rw [clean, if_neg (length_trim_decorated first blanks lines k).not_gt]
  dsimp only
  rw [hdoc, Text.strip]
  generalize Text.trim Text.isBlank _ = s
  cases s <;> simp

/-- Lines with one asterisk, with several after a tab, without any, and with nothing at all. -/
def margins : List DecoratedLine :=
  [⟨" ", 1, " One.", List.all_eq_true.1 rfl, by decide, by decide, fun h => absurd h (by decide)⟩,
    ⟨"\t ", 2, "a/ *", List.all_eq_true.1 rfl, by decide, by decide,
      fun h => absurd h (by decide)⟩,
    ⟨" ", 0, "b */", List.all_eq_true.1 rfl, by decide, by decide,
      fun _ _ hc => Option.some_inj.1 hc ▸ rfl⟩,
    ⟨"", 0, "", List.all_eq_true.1 rfl, by decide, by decide, by rintro - c ⟨⟩⟩]

theorem clean_decorated_margins : ('\n' ∉ "".toList ∧ "".toList.head? ≠ some '*'
      ∧ ∀ c ∈ " \t".toList, isIndent c = true)
    ∧ clean (decorated "" margins (closing " \t" 2)) = some "One.\na/ *\nb */" := by
  have hfirst : '\n' ∉ "".toList ∧ "".toList.head? ≠ some '*' := by decide
  have hblanks : ∀ c ∈ " \t".toList, isIndent c = true := List.all_eq_true.1 rfl
  refine ⟨⟨hfirst.1, hfirst.2, hblanks⟩, ?_⟩
  rw [clean_decorated hfirst.1 hfirst.2 margins hblanks 1]
  decide

end DocComment

end DeclGraph
