import DeclGraph.Proofs.Import.Stability
import DeclGraph.Proofs.Syntax.RoundTrip
import Mathlib.Data.List.TakeWhile

/-! What becomes of the spelling of a type where its name is looked for. Brackets after a name are
part of its last segment, and after a mark of a variable number the last segment is empty. -/

namespace DeclGraph

namespace Lexeme

/-- What a name may be made of. -/
def isNamePart (c : Char) : Bool := isNameChar c || c = '.' || c = ':'

lemma isBlank_of_isNamePart {c : Char} (h : isNamePart c = true) : Text.isBlank c = false := by
  have hrange : 46 ≤ c.toNat ∧ c.toNat ≤ 122 := by
    simp only [isNamePart, isNameChar, Char.isAlphanum, Char.isAlpha, Char.isUpper, Char.isLower,
      Char.isDigit, Bool.or_eq_true, Bool.and_eq_true, decide_eq_true_eq, ge_iff_le,
      UInt32.le_iff_toNat_le] at h
    change ((((65 ≤ c.toNat ∧ c.toNat ≤ 90 ∨ 97 ≤ c.toNat ∧ c.toNat ≤ 122) ∨
      48 ≤ c.toNat ∧ c.toNat ≤ 57) ∨ c = '_') ∨ c = '.') ∨ c = ':' at h
    rcases h with ((((h | h) | h) | rfl) | rfl) | rfl
    iterate 3 omega
    all_goals decide
  simp only [Text.isBlank, Bool.or_eq_false_iff, Bool.and_eq_false_imp, decide_eq_true_eq,
    decide_eq_false_iff_not, beq_eq_false_iff_ne]
  omega

lemma take_identifierLength (s : List Char) :
    ∀ c ∈ s.take (identifierLength s), isNameChar c = true := by
  cases s with
  | nil => simp
  | cons c rest =>
    cases hc : isNameStart c with
    | false => simp [identifierLength, hc]
    | true =>
      simp only [identifierLength, hc, if_true]
      rw [Nat.add_comm, List.take_succ_cons,
        ← List.prefix_iff_eq_take.mp (List.takeWhile_prefix isNameChar)]
      intro d hd
      rcases List.mem_cons.mp hd with rfl | hd
      exacts [isNameChar_of_isNameStart hc, List.mem_takeWhile_imp hd]

lemma take_separatorLength (s : List Char) :
    ∀ c ∈ s.take (separatorLength s), c = '.' ∨ c = ':' := by
  unfold separatorLength
  split <;> simp

/-- Segments with their separators, none of which comes last. -/
structure Segmented (s : List Char) : Prop where
  parts : ∀ c ∈ s, isNamePart c = true
  last : ∀ c ∈ s.getLast?, isNameChar c = true

lemma segmented_of_isNameChar {s : List Char} (h : ∀ c ∈ s, isNameChar c = true) : Segmented s where
  parts c hc := by simp [isNamePart, h c hc]
  last c hc := h c (List.mem_of_getLast? hc)

lemma Segmented.append {s t : List Char} (hs : Segmented s) (ht : Segmented t) :
    Segmented (s ++ t) where
  parts c hc := (List.mem_append.mp hc).elim (hs.parts c) (ht.parts c)
  last c hc := by
    rw [List.getLast?_append, Option.mem_def, Option.or_eq_some_iff] at hc
    rcases hc with hc | ⟨-, hc⟩
    exacts [ht.last c hc, hs.last c hc]

lemma Segmented.after {s t : List Char} (ht : Segmented t) (hne : t ≠ [])
    (hs : ∀ c ∈ s, isNamePart c = true) : Segmented (s ++ t) where
  parts c hc := (List.mem_append.mp hc).elim (hs c) (ht.parts c)
  last := by
    rw [List.getLast?_append_of_ne_nil _ hne]
    exact ht.last

lemma segmented_of_segmentsLength {s : List Char} (h : segmentsLength s = s.length) :
    Segmented s := by
  induction s using segmentsLength.induct with
  | case1 s sep ident hz =>
    rw [segmentsLength, dif_pos hz] at h
    obtain rfl := List.length_eq_zero_iff.mp h.symm
    exact ⟨by simp, by simp⟩
  | case2 s sep ident hz ih =>
    have hlen := separatorLength_le s
    have hle : ident ≤ (s.drop sep).length := identifierLength_le (s.drop sep)
    replace h : sep + ident + segmentsLength (s.drop (sep + ident)) = s.length := by
      rw [segmentsLength, dif_neg hz] at h
      exact h
    have hrest : segmentsLength (s.drop (sep + ident)) = (s.drop (sep + ident)).length := by
      rw [List.length_drop]
      omega
    have hsplit : s = s.take sep ++ ((s.drop sep).take ident ++ s.drop (sep + ident)) := by
      rw [← List.drop_drop, List.take_append_drop, List.take_append_drop]
    have hident : ((s.drop sep).take ident).length = ident := List.length_take_of_le hle
    have hne : (s.drop sep).take ident ≠ [] := by
      intro hnil
      rw [hnil] at hident
      exact hz (Or.inr hident.symm)
    rw [hsplit]
    refine ((segmented_of_isNameChar (take_identifierLength _)).append (ih hrest)).after
      (List.append_ne_nil_of_left_ne_nil hne _) fun c hc => ?_
    rcases take_separatorLength s c hc with rfl | rfl <;> rfl

lemma IsName.segmented {s : String} (h : IsName s) : Segmented s.toList := by
  have hlen : s.toList.length = s.length := rfl
  have hwhole := h.whole
  simp only [nameLength] at hwhole
  split_ifs at hwhole with hz
  · exact absurd (String.length_eq_zero_iff.mp hwhole.symm) h.ne
  have hrest : segmentsLength (s.toList.drop (identifierLength s.toList)) =
      (s.toList.drop (identifierLength s.toList)).length := by
    rw [List.length_drop]
    omega
  rw [← List.take_append_drop (identifierLength s.toList) s.toList]
  exact (segmented_of_isNameChar (take_identifierLength _)).append
    (segmented_of_segmentsLength hrest)

end Lexeme

namespace QualifiedName

open Lexeme

lemma dotted_append (s : List Char) {t : List Char} (ht : t.head? ≠ some ':') :
    dotted (s ++ t) = dotted s ++ dotted t := by
  induction s using dotted.induct with
  | case1 => rfl
  | case2 rest ih => simp [dotted, ih]
  | case3 c rest hpair ih =>
    have hpair' : ∀ rest', c = ':' → rest ++ t = ':' :: rest' → False := by
      rintro rest' rfl heq
      cases rest with
      | nil => exact ht (by rw [show t = ':' :: rest' from heq]; rfl)
      | cons d rest => exact hpair rest rfl (by rw [(List.cons.inj heq).1])
    rw [List.cons_append, dotted.eq_3 _ _ hpair', dotted.eq_3 _ _ hpair, ih]
    rfl

lemma dotted_of_not_mem {s : List Char} (h : ':' ∉ s) : dotted s = s := by
  induction s with
  | nil => rfl
  | cons c s ih =>
    have hc : c ≠ ':' := fun hc => h (by simp [hc])
    rw [dotted_cons hc, ih fun hs => h (by simp [hs])]

lemma trim_of_all {p : Char → Bool} {s : List Char} (h : ∀ c ∈ s, p c = false) :
    Text.trim p s = s := by
  have hfirst : s.dropWhile p = s := List.dropWhile_eq_self_iff.mpr fun hlen => by
    simpa using h _ (List.getElem_mem hlen)
  have hlast : s.reverse.dropWhile p = s.reverse := List.dropWhile_eq_self_iff.mpr fun hlen => by
    simpa using h _ (List.mem_reverse.mp (List.getElem_mem hlen))
  rw [Text.trim, hfirst, hlast, List.reverse_reverse]

/-- The last segment of a text without separators at its end is not empty. -/
lemma splitLast_ne_nil {s : List Char} {c : Char} (hc : c ≠ '.') :
    (splitLast (s ++ [c])).2 ≠ [] := by
  simp [splitLast, hc]

lemma splitLast_append {s t : List Char} (ht : '.' ∉ t) :
    (splitLast (s ++ t)).2 = (splitLast s).2 ++ t := by
  have hall : ∀ c ∈ t.reverse, (decide (c ≠ '.')) = true := by
    intro c hc
    rw [decide_eq_true_eq]
    rintro rfl
    exact ht (List.mem_reverse.mp hc)
  simp only [splitLast, List.reverse_append]
  rw [List.takeWhile_append_of_pos hall, List.reverse_append, List.reverse_reverse]

lemma splitLast_dot (s : List Char) : (splitLast (s ++ ['.'])).2 = [] := by
  simp [splitLast]

/-- The simple part of a name. -/
def simplePart (s : List Char) : List Char := (splitLast (dotted s)).2

lemma simplePart_append (s : List Char) {t : List Char} (hcolon : ':' ∉ t) (hdot : '.' ∉ t) :
    simplePart (s ++ t) = simplePart s ++ t := by
  have hhead : t.head? ≠ some ':' := fun hc => hcolon (List.mem_of_head? hc)
  rw [simplePart, dotted_append s hhead, dotted_of_not_mem hcolon, splitLast_append hdot]
  rfl

lemma simplePart_varargs (s : List Char) : simplePart (s ++ varargsMark) = [] := by
  rw [simplePart, dotted_append s (by decide), dotted_of_not_mem (s := varargsMark) (by decide)]
  simpa [varargsMark] using splitLast_dot (dotted s ++ ['.', '.'])

lemma simplePart_ne_nil {s : List Char} (h : Segmented s) (hne : s ≠ []) : simplePart s ≠ [] := by
  obtain ⟨front, c, rfl⟩ : ∃ front c, s = front ++ [c] :=
    ⟨_, _, (List.dropLast_append_getLast hne).symm⟩
  have hc : isNameChar c = true := h.last c (by simp)
  have hcolon : c ≠ ':' := by
    rintro rfl
    exact absurd hc (by decide)
  rw [simplePart, dotted_append front (by simpa using hcolon),
    dotted_of_not_mem (s := [c]) (by simpa using hcolon.symm)]
  refine splitLast_ne_nil ?_
  rintro rfl
  exact absurd hc (by decide)

lemma split_simple {name : String} (h : ∀ c ∈ name.toList, Text.isBlank c = false) :
    (split name).2 = String.ofList (simplePart name.toList) := by
  unfold split normalize simplePart
  rw [trim_of_all h, String.toList_ofList]

end QualifiedName

open Lexeme QualifiedName

/-- Where a type may stand. -/
inductive TypePosition where
  | field
  | result
  | parameter
  deriving DecidableEq, Repr

namespace TypeRef

/-- The name that is looked up for a type. -/
def sought (r : TypeRef) : TypePosition → String
  | .field => (elementType false r.spelling).1
  | .result => r.spelling
  | .parameter => (withoutVarargs? r.spelling).getD r.spelling

/-- A type of which nothing but the name is looked up: brackets are taken off fields with all that
follows them, and marks of a variable number are taken off parameters. -/
def isBare (r : TypeRef) : TypePosition → Bool
  | .field => r.dims ≠ 0 || !r.varargs
  | .result => r.dims = 0 && !r.varargs
  | .parameter => r.dims = 0

def brackets (n : Nat) : List Char := (List.replicate n ['[', ']']).flatten

lemma mem_brackets {n : Nat} {c : Char} (h : c ∈ brackets n) : c = '[' ∨ c = ']' := by
  obtain ⟨l, hl, hc⟩ := List.mem_flatten.mp h
  rw [List.eq_of_mem_replicate hl] at hc
  simpa using hc

lemma brackets_eq_cons {n : Nat} (h : n ≠ 0) : ∃ rest, brackets n = '[' :: rest := by
  obtain ⟨m, rfl⟩ := Nat.exists_eq_succ_of_ne_zero h
  exact ⟨_, by rw [brackets, List.replicate_succ]; rfl⟩

lemma spelling_toList (r : TypeRef) : r.spelling.toList =
    r.name.toList ++ brackets r.dims ++ if r.varargs then varargsMark else [] := by
  have hjoin : (String.join (List.replicate r.dims "[]")).toList = brackets r.dims := by
    rw [String.toList_join, List.flatMap_replicate]
    rfl
  unfold spelling
  rw [String.toList_append, String.toList_append, hjoin]
  split_ifs <;> rfl

variable {r : TypeRef} {position : TypePosition}

lemma Proper.not_isBlank (hr : r.Proper) (n : Nat) :
    ∀ c ∈ r.name.toList ++ brackets n, Text.isBlank c = false := by
  intro c hc
  rcases List.mem_append.mp hc with hc | hc
  · exact isBlank_of_isNamePart (hr.segmented.parts c hc)
  · rcases mem_brackets hc with rfl | rfl <;> rfl

lemma Proper.bracket_not_mem (hr : r.Proper) : '[' ∉ r.name.toList :=
  fun hin => absurd (hr.segmented.parts _ hin) (by decide)

/-- Neither a name nor a bracket ends like the mark of a variable number. -/
lemma Proper.getLast?_ne (hr : r.Proper) (n : Nat) :
    (r.name.toList ++ brackets n).getLast? ≠ some '.' := by
  intro hlast
  rw [List.getLast?_append, Option.or_eq_some_iff] at hlast
  rcases hlast with hlast | ⟨-, hlast⟩
  · rcases mem_brackets (List.mem_of_getLast? hlast) with h | h <;> exact absurd h (by decide)
  · exact absurd (hr.segmented.last _ hlast) (by decide)

lemma withoutVarargs?_append (s : List Char) :
    withoutVarargs? (String.ofList (s ++ varargsMark)) = some (String.ofList s) := by
  simp [withoutVarargs?]

lemma withoutVarargs?_of_getLast? {type : String} (h : type.toList.getLast? ≠ some '.') :
    withoutVarargs? type = none := by
  unfold withoutVarargs?
  refine if_neg fun hsuffix => ?_
  obtain ⟨front, hfront⟩ := List.isSuffixOf_iff_suffix.mp hsuffix
  rw [← hfront] at h
  exact h (by simp [varargsMark])

/-- Marks of a variable number are taken off parameters, and brackets are not. -/
lemma sought_parameter (hr : r.Proper) :
    r.sought .parameter = String.ofList (r.name.toList ++ brackets r.dims) := by
  have hlist := r.spelling_toList
  unfold sought
  cases hv : r.varargs with
  | true =>
    rw [hv] at hlist
    rw [← String.ofList_toList (s := r.spelling), hlist]
    simp only [if_true, withoutVarargs?_append]
    rfl
  | false =>
    rw [hv] at hlist
    simp only [Bool.false_eq_true, if_false, List.append_nil] at hlist
    rw [withoutVarargs?_of_getLast? (hlist ▸ hr.getLast?_ne r.dims), ← hlist]
    exact String.ofList_toList.symm

lemma spelling_of_not_varargs (hv : r.varargs = false) :
    r.spelling = String.ofList (r.name.toList ++ brackets r.dims) := by
  have hlist := r.spelling_toList
  rw [hv, if_neg (by decide), List.append_nil] at hlist
  rw [← hlist, String.ofList_toList]

/-- Of fields, all is taken off from the first bracket on. -/
lemma sought_field (hr : r.Proper) :
    r.sought .field = if r.dims = 0 then r.spelling else r.name := by
  have hlist := r.spelling_toList
  unfold sought elementType
  split_ifs with hcontains hdims hdims
  · rfl
  · obtain ⟨rest, hrest⟩ := brackets_eq_cons hdims
    rw [hrest] at hlist
    simp [hlist] at hcontains
  · rw [hdims] at hlist
    have hmarks : '[' ∉ (if r.varargs then varargsMark else [] : List Char) := by
      split_ifs <;> decide
    simp [hlist, brackets, hr.bracket_not_mem, hmarks] at hcontains
  · obtain ⟨rest, hrest⟩ := brackets_eq_cons hdims
    have hname : ∀ c ∈ r.name.toList, decide (c ≠ '[') = true := by
      intro c hc
      rw [decide_eq_true_eq]
      rintro rfl
      exact hr.bracket_not_mem hc
    rw [hlist, hrest, List.append_assoc, List.takeWhile_append_of_pos hname, List.cons_append,
      List.takeWhile_cons_of_neg (by decide), List.append_nil, Text.strip, String.toList_ofList,
      trim_of_all fun c hc => isBlank_of_isNamePart (hr.segmented.parts c hc),
      String.ofList_toList]

lemma sought_of_isBare (hr : r.Proper) (h : r.isBare position = true) :
    r.sought position = r.name := by
  have plain : r.dims = 0 → r.varargs = false → r.spelling = r.name := by
    intro hdims hv
    rw [spelling_of_not_varargs hv, hdims]
    simp [brackets]
  cases position with
  | field =>
    rw [sought_field hr]
    split_ifs with hdims
    · exact plain hdims (by simpa [isBare, hdims] using h)
    · rfl
  | result =>
    obtain ⟨hdims, hv⟩ : r.dims = 0 ∧ r.varargs = false := by simpa [isBare] using h
    exact plain hdims hv
  | parameter =>
    rw [sought_parameter hr, show r.dims = 0 by simpa [isBare] using h]
    simp [brackets]

/-- Otherwise something is looked up that is called nothing like what the name means. -/
lemma split_sought_ne (hr : r.Proper) (h : r.isBare position = false) :
    (split (r.sought position)).2 ≠ (split r.name).2 := by
  have hblank := fun n => hr.not_isBlank n
  have hname : (split r.name).2 = String.ofList (simplePart r.name.toList) :=
    split_simple fun c hc => hblank 0 c (by simp [hc])
  have bracketed : r.dims ≠ 0 →
      (split (String.ofList (r.name.toList ++ brackets r.dims))).2 ≠ (split r.name).2 := by
    intro hdims heq
    obtain ⟨rest, hrest⟩ := brackets_eq_cons hdims
    have hcolon : ':' ∉ brackets r.dims := fun hc =>
      (mem_brackets hc).elim (absurd · (by decide)) (absurd · (by decide))
    have hdot : '.' ∉ brackets r.dims := fun hc =>
      (mem_brackets hc).elim (absurd · (by decide)) (absurd · (by decide))
    rw [hname, split_simple (by simpa using hblank r.dims), String.toList_ofList,
      simplePart_append _ hcolon hdot, hrest, String.ofList_inj] at heq
    simpa using congrArg List.length heq
  have marked : r.varargs = true → (split r.spelling).2 ≠ (split r.name).2 := by
    intro hv heq
    have hlist := r.spelling_toList
    rw [hv, if_pos rfl] at hlist
    have hmarks : ∀ c ∈ r.spelling.toList, Text.isBlank c = false := by
      intro c hc
      rw [hlist] at hc
      rcases List.mem_append.mp hc with hc | hc
      · exact hblank r.dims c hc
      · obtain rfl : c = '.' := by simpa [varargsMark] using hc
        rfl
    rw [hname, split_simple hmarks, hlist, simplePart_varargs, String.ofList_inj] at heq
    refine simplePart_ne_nil hr.segmented (fun hnil => hr.ne ?_) heq.symm
    rw [← String.ofList_toList (s := r.name), hnil]
  cases position with
  | field =>
    obtain ⟨hdims, hv⟩ : r.dims = 0 ∧ r.varargs = true := by simpa [isBare] using h
    rw [sought_field hr, if_pos hdims]
    exact marked hv
  | result =>
    cases hv : r.varargs with
    | true => exact marked hv
    | false =>
      rw [sought, spelling_of_not_varargs hv]
      exact bracketed (by simpa [isBare, hv] using h)
  | parameter =>
    rw [sought_parameter hr]
    exact bracketed (by simpa [isBare] using h)

end TypeRef

end DeclGraph
