import DeclGraph.Syntax.Lexeme
import DeclGraph.Syntax.Printer
import Mathlib.Data.List.Nodup
import Mathlib.Data.List.Infix

/-!
Words as lexemes: what stands in front of a blank is taken off a text as the word that was written,
wherever its terminal is offered.
-/

namespace DeclGraph

namespace Lexeme

/-- Texts that leave what stands before them alone: they are empty or start with a blank. -/
def Apart (rest : List Char) : Prop := ∀ c ∈ rest.head?, c = ' '

@[simp] lemma apart_nil : Apart [] := by simp [Apart]

@[simp] lemma apart_blank (rest : List Char) : Apart (' ' :: rest) := by simp [Apart]

lemma Apart.cases {rest : List Char} (h : Apart rest) : rest = [] ∨ ∃ s, rest = ' ' :: s := by
  cases rest with
  | nil => exact Or.inl rfl
  | cons c s => exact Or.inr ⟨s, by rw [h c rfl]⟩

/-- Names as the terminal for them describes them, keywords excepted. -/
structure IsName (s : String) : Prop where
  ne : s ≠ ""
  whole : nameLength s.toList = s.length
  free : ∀ k : Keyword, s ≠ k.text

/-- Initializers as the terminal for them describes them, without blanks at the end, that no
documentation comment hides. -/
structure IsInitializer (s : String) : Prop where
  ne : s ≠ ""
  whole : initializerLength s.toList = s.length
  trimmed : ∀ c ∈ s.toList.getLast?, Text.isBlank c = false
  plain : ¬['/', '*', '*'] <+: s.toList

section Names

lemma takeWhile_append_stop {p : Char → Bool} (s : List Char) {rest : List Char}
    (hr : ∀ c ∈ rest.head?, p c = false) : (s ++ rest).takeWhile p = s.takeWhile p := by
  have hstop : rest.takeWhile p = [] := by
    cases rest with
    | nil => rfl
    | cons c t => exact List.takeWhile_cons_of_neg (by simp [hr c rfl])
  rw [List.takeWhile_append, hstop]
  split
  · next h => rw [List.append_nil, (List.takeWhile_prefix p).eq_of_length h]
  · rfl

/-- Texts with which no name goes on. -/
def Severs (rest : List Char) : Prop :=
  ∀ c ∈ rest.head?, isNameChar c = false ∧ c ≠ '.' ∧ c ≠ ':'

lemma Apart.severs {rest : List Char} (h : Apart rest) : Severs rest := by
  intro c hc
  rw [h c hc]
  decide

lemma isNameChar_of_isNameStart {c : Char} (h : isNameStart c = true) : isNameChar c = true := by
  simp only [isNameStart, isNameChar, Char.isAlphanum, Bool.or_eq_true] at h ⊢
  exact h.imp_left Or.inl

lemma identifierLength_severed (s : List Char) {rest : List Char} (hr : Severs rest) :
    identifierLength (s ++ rest) = identifierLength s := by
  cases s with
  | nil =>
    cases rest with
    | nil => rfl
    | cons c t =>
      have hc : isNameStart c = false := by
        by_contra h
        exact absurd (isNameChar_of_isNameStart (by simpa using h)) (by simp [(hr c rfl).1])
      simp [identifierLength, hc]
  | cons c s =>
    simp only [List.cons_append, identifierLength,
      takeWhile_append_stop s fun c hc => (hr c hc).1]

lemma separatorLength_severed (s : List Char) {rest : List Char} (hr : Severs rest) :
    separatorLength (s ++ rest) = separatorLength s := by
  cases rest with
  | nil => rw [List.append_nil]
  | cons d t =>
    obtain ⟨-, hdot, hcolon⟩ := hr d rfl
    match s with
    | [] => simp [separatorLength, hdot, hcolon]
    | [c] =>
      by_cases hc : c = '.'
      · rw [hc]; rfl
      · simp [separatorLength, hc, hcolon]
    | c :: c' :: s =>
      simp only [List.cons_append, separatorLength]
      split <;> simp_all

lemma identifierLength_le (s : List Char) : identifierLength s ≤ s.length := by
  cases s with
  | nil => exact le_rfl
  | cons c s =>
    have := (List.takeWhile_prefix isNameChar (l := s)).length_le
    simp only [identifierLength, List.length_cons]
    split <;> omega

lemma separatorLength_le (s : List Char) : separatorLength s ≤ s.length := by
  unfold separatorLength
  split <;> simp

lemma segmentsLength_severed (s : List Char) {rest : List Char} (hr : Severs rest) :
    segmentsLength (s ++ rest) = segmentsLength s := by
  have hdrop (s : List Char) : (s ++ rest).drop (separatorLength s)
      = s.drop (separatorLength s) ++ rest :=
    List.drop_append_of_le_length (separatorLength_le s)
  induction s using segmentsLength.induct with
  | case1 s sep ident h =>
    rw [segmentsLength, segmentsLength.eq_def s, separatorLength_severed s hr, hdrop,
      identifierLength_severed _ hr, dif_pos h, dif_pos h]
  | case2 s sep ident h ih =>
    have hle : sep + ident ≤ s.length := by
      have h₁ := separatorLength_le s
      have h₂ := identifierLength_le (s.drop sep)
      rw [List.length_drop] at h₂
      omega
    rw [segmentsLength, segmentsLength.eq_def s, separatorLength_severed s hr, hdrop,
      identifierLength_severed _ hr, dif_neg h, dif_neg h, List.drop_append_of_le_length hle, ih]

lemma nameLength_severed (s : List Char) {rest : List Char} (hr : Severs rest) :
    nameLength (s ++ rest) = nameLength s := by
  simp only [nameLength, identifierLength_severed s hr,
    List.drop_append_of_le_length (identifierLength_le s), segmentsLength_severed _ hr]

end Names

section Initializers

lemma stringRest?_append {quote : Char} (hq : quote ≠ '\\') {s : List Char} {n : Nat}
    (h : stringRest? quote s = some n) (rest : List Char) :
    stringRest? quote (s ++ rest) = some n := by
  induction s using stringRest?.induct quote generalizing n with
  | case1 => simp [stringRest?] at h
  | case2 s => simp [stringRest?] at h
  | case3 c s hc ih =>
    simp only [stringRest?, if_neg hc, Option.map_eq_map, Option.map_eq_some_iff] at h
    obtain ⟨m, hm, rfl⟩ := h
    simp [stringRest?, hc, ih hm]
  | case4 s hs =>
    simp only [stringRest?, if_pos] at h
    simp [stringRest?, hq, h]
  | case5 s hs hc => simp [stringRest?, hc] at h
  | case6 c s hs hc hd ih =>
    simp only [stringRest?, if_neg hc, if_neg hd, Option.map_eq_map, Option.map_eq_some_iff] at h
    obtain ⟨m, hm, rfl⟩ := h
    simp [stringRest?, hc, hd, ih hm]

lemma valuePieceLength_append {s : List Char} (h : valuePieceLength s ≠ 0) (rest : List Char) :
    valuePieceLength (s ++ rest) = valuePieceLength s := by
  cases s with
  | nil => simp [valuePieceLength] at h
  | cons c s =>
    by_cases hc : c = '\x22' ∨ c = '\x27'
    · have hq : c ≠ '\\' := by rcases hc with rfl | rfl <;> decide
      cases hs : stringRest? c s with
      | none => simp [valuePieceLength, hc, hs] at h
      | some n => simp [valuePieceLength, hc, hs, stringRest?_append hq hs]
    · simp [valuePieceLength, hc]

lemma valueLength_append {s : List Char} (h : valueLength s = s.length) (rest : List Char) :
    valueLength (s ++ rest) = s.length + valueLength rest := by
  induction s using valueLength.induct with
  | case1 s n hn =>
    rw [valueLength, dif_pos hn] at h
    rw [List.eq_nil_of_length_eq_zero h.symm, List.nil_append, List.length_nil, Nat.zero_add]
  | case2 s n hn ih =>
    replace h : n + valueLength (s.drop n) = s.length := by rwa [valueLength, dif_neg hn] at h
    have hle : n ≤ s.length := by omega
    have hrest : valueLength (s.drop n) = (s.drop n).length := by
      rw [List.length_drop]
      omega
    have hn' : ¬valuePieceLength (s ++ rest) = 0 := by rwa [valuePieceLength_append hn]
    rw [valueLength, dif_neg hn', valuePieceLength_append hn]
    change n + valueLength ((s ++ rest).drop n) = _
    rw [List.drop_append_of_le_length hle, ih hrest, List.length_drop]
    omega

lemma IsInitializer.cons {s : String} (hs : IsInitializer s) : ∃ c cs, s.toList = c :: cs
    ∧ Text.isBlank c = false ∧ valueLength (c :: cs) = (c :: cs).length := by
  have hwhole := hs.whole
  rw [← String.length_toList] at hwhole
  cases hl : s.toList with
  | nil => exact absurd (String.toList_eq_nil_iff.1 hl) hs.ne
  | cons c cs =>
    rw [hl, initializerLength] at hwhole
    split at hwhole
    · simp at hwhole
    · next hc => exact ⟨c, cs, rfl, by simpa using hc, hwhole⟩

/-- An initializer takes the blank along that parts it from the semicolon. -/
lemma IsInitializer.length {s : String} (hs : IsInitializer s) (rest : List Char) :
    initializerLength (s.toList ++ ' ' :: ';' :: rest) = s.length + 1 := by
  have hblank : valueLength (' ' :: ';' :: rest) = 1 := by
    rw [valueLength, valueLength]
    simp [valuePieceLength]
  obtain ⟨c, cs, hl, hc, hvalue⟩ := hs.cons
  rw [← String.length_toList, hl, List.cons_append, initializerLength, if_neg (by simp [hc]),
    ← List.cons_append, valueLength_append hvalue, hblank]

/-- What is left of it without the blanks around it is the initializer again. -/
lemma IsInitializer.trim {s : String} (hs : IsInitializer s) :
    Text.trim Text.isBlank (s.toList ++ [' ']) = s.toList := by
  have hblank : Text.isBlank ' ' = true := rfl
  have hlast : s.toList.reverse.dropWhile Text.isBlank = s.toList.reverse := by
    cases hr : s.toList.reverse with
    | nil => rfl
    | cons d ds =>
      have hd := hs.trimmed d (by rw [← List.head?_reverse, hr]; rfl)
      exact List.dropWhile_cons_of_neg (by simp [hd])
  obtain ⟨c, cs, hl, hc, _⟩ := hs.cons
  have hfirst : (s.toList ++ [' ']).dropWhile Text.isBlank = s.toList ++ [' '] := by
    rw [hl]
    exact List.dropWhile_cons_of_neg (by simp [hc])
  rw [Text.trim, hfirst, List.reverse_append, List.reverse_singleton, List.singleton_append,
    List.dropWhile_cons_of_pos hblank, hlast, List.reverse_reverse]

end Initializers

section Fixed

lemma mem_literals {t : Terminal} {s : String} (h : t.text? = some s) : t ∈ Terminal.literals := by
  match t with
  | .keyword (.modifier m) => cases m <;> decide
  | .keyword .packageKw | .keyword .importKw | .keyword .interfaceKw | .keyword .classKw
  | .keyword .extendsKw | .keyword .implementsKw | .keyword .enumKw | .keyword .attributeKw
  | .keyword .raisesKw | .keyword .inKw | .keyword .outKw | .keyword .inoutKw => decide
  | .mark m => cases m <;> decide

/-- No two terminals have the same fixed text. -/
lemma text?_inj {t u : Terminal} {s : String} (ht : t.text? = some s) (hu : u.text? = some s) :
    t = u := by
  have hnodup : (Terminal.literals.map Terminal.text?).Nodup := by decide
  exact List.inj_on_of_nodup_map hnodup (mem_literals ht) (mem_literals hu) (ht.trans hu.symm)

lemma text_solid {t : Terminal} {s : String} (h : t.text? = some s) :
    s ≠ "" ∧ ' ' ∉ s.toList := by
  have hall : ∀ t ∈ Terminal.literals, ∀ s ∈ t.text?, s ≠ "" ∧ ' ' ∉ s.toList := by decide
  exact hall t (mem_literals h) s h

lemma text_slashless {t : Terminal} {s : String} (h : t.text? = some s) : '/' ∉ s.toList := by
  have hall : ∀ t ∈ Terminal.literals, ∀ s ∈ t.text?, '/' ∉ s.toList := by decide
  exact hall t (mem_literals h) s h

/-- Texts without a character end before it. -/
lemma prefix_of_stop {c : Char} {l s rest : List Char} (hl : c ∉ l) (hr : ∀ d ∈ rest.head?, d = c)
    (h : l <+: s ++ rest) : l <+: s := by
  cases rest with
  | nil => rwa [List.append_nil] at h
  | cons d t =>
    obtain rfl := hr d rfl
    obtain hle | hlt := Nat.lt_or_ge s.length l.length
    · have hstop : s ++ [d] <+: l := by
        apply List.prefix_of_prefix_length_le _ h (by simpa using Nat.succ_le_of_lt hle)
        exact ⟨t, by simp⟩
      exact absurd (hstop.subset (by simp)) hl
    · exact List.prefix_of_prefix_length_le h (List.prefix_append s _) hlt

/-- The step of the search for the longest fixed text. -/
private def longer (best : Option (Terminal × Nat)) (c : Terminal × Nat) :
    Option (Terminal × Nat) :=
  match best with
  | some b => if b.2 < c.2 then some c else some b
  | none => some c

lemma foldl_longer_of_max {b : Terminal × Nat} {cs : List (Terminal × Nat)}
    (h : ∀ c ∈ cs, c.2 ≤ b.2) : cs.foldl longer (some b) = some b := by
  induction cs with
  | nil => rfl
  | cons c cs ih =>
    have hc : ¬b.2 < c.2 := by simpa using h c List.mem_cons_self
    rw [List.foldl_cons, longer, if_neg hc, ih fun d hd => h d (List.mem_cons_of_mem c hd)]

lemma foldl_longer {b : Terminal × Nat} {cs : List (Terminal × Nat)}
    (h : ∀ c ∈ cs, c = b ∨ c.2 < b.2) (hb : b ∈ cs) {a : Option (Terminal × Nat)}
    (ha : ∀ c ∈ a, c.2 < b.2) : cs.foldl longer a = some b := by
  have hmax : ∀ c ∈ cs, c.2 ≤ b.2 := fun c hc => by
    rcases h c hc with rfl | hlt
    · exact le_rfl
    · exact hlt.le
  induction cs generalizing a with
  | nil => simp at hb
  | cons c cs ih =>
    have hrest : ∀ d ∈ cs, d.2 ≤ b.2 := fun d hd => hmax d (List.mem_cons_of_mem c hd)
    rw [List.foldl_cons]
    rcases h c List.mem_cons_self with rfl | hlt
    · have hstep : longer a c = some c := by
        cases a with
        | none => rfl
        | some d => exact if_pos (ha d rfl)
      rw [hstep, foldl_longer_of_max hrest]
    · have hmem : b ∈ cs := by
        rcases List.mem_cons.1 hb with rfl | hmem
        · exact absurd hlt (lt_irrefl _)
        · exact hmem
      refine ih (fun d hd => h d (List.mem_cons_of_mem c hd)) hmem ?_ hrest
      intro d hd
      cases a with
      | none =>
        cases hd
        exact hlt
      | some e =>
        simp only [longer] at hd
        split at hd
        · cases hd
          exact hlt
        · cases hd
          exact ha _ rfl

lemma foldl_longer_spec {a : Option (Terminal × Nat)} {b : Terminal × Nat}
    {cs : List (Terminal × Nat)} (h : cs.foldl longer a = some b) :
    (b ∈ cs ∨ b ∈ a) ∧ ∀ c, c ∈ cs ∨ c ∈ a → c.2 ≤ b.2 := by
  induction cs generalizing a with
  | nil =>
    refine ⟨Or.inr h, ?_⟩
    rintro c (hc | hc)
    · cases hc
    · exact (Option.mem_unique hc h).symm ▸ le_rfl
  | cons d cs ih =>
    obtain ⟨hmem, hmax⟩ := ih h
    cases a with
    | none =>
      refine ⟨Or.inl (hmem.elim (List.mem_cons_of_mem d) fun hb => ?_), ?_⟩
      · exact Option.some_inj.1 hb ▸ List.mem_cons_self
      · rintro c (hc | hc)
        · exact hmax c ((List.mem_cons.1 hc).elim (fun hc => Or.inr (hc ▸ rfl)) Or.inl)
        · cases hc
    | some e =>
      by_cases hlt : e.2 < d.2
      · rw [longer, if_pos hlt] at hmem hmax
        have hd := hmax d (Or.inr rfl)
        refine ⟨Or.inl (hmem.elim (List.mem_cons_of_mem d) fun hb => ?_), ?_⟩
        · exact Option.some_inj.1 hb ▸ List.mem_cons_self
        · rintro c (hc | hc)
          · exact hmax c ((List.mem_cons.1 hc).elim (fun hc => Or.inr (hc ▸ rfl)) Or.inl)
          · exact Option.some_inj.1 hc ▸ hlt.le.trans hd
      · rw [longer, if_neg hlt] at hmem hmax
        have he := hmax e (Or.inr rfl)
        refine ⟨hmem.imp_left (List.mem_cons_of_mem d), ?_⟩
        rintro c (hc | hc)
        · rcases List.mem_cons.1 hc with rfl | hc
          · exact (not_lt.1 hlt).trans he
          · exact hmax c (Or.inl hc)
        · exact hmax c (Or.inr hc)

/-- The fixed texts at the start of a text, with their lengths. -/
private def fixedAt (ts : List Terminal) (s : List Char) : List (Terminal × Nat) :=
  ts.filterMap fun t =>
    (t.text?.map (literalLength · s)).bind fun n => if n = 0 then none else some (t, n)

private lemma mem_fixedAt {ts : List Terminal} {s : List Char} {c : Terminal × Nat} :
    c ∈ fixedAt ts s
      ↔ c.1 ∈ ts ∧ ∃ w, c.1.text? = some w ∧ w.toList <+: s ∧ c.2 = w.length := by
  obtain ⟨t, n⟩ := c
  constructor
  · intro hc
    obtain ⟨u, hu, hc⟩ := List.mem_filterMap.1 hc
    obtain ⟨m, hm, hc⟩ := Option.bind_eq_some_iff.1 hc
    obtain ⟨w, hw, rfl⟩ := Option.map_eq_some_iff.1 hm
    by_cases hp : w.toList <+: s
    · rw [literalLength, if_pos (List.isPrefixOf_iff_prefix.2 hp)] at hc
      split at hc
      · cases hc
      · cases hc
        exact ⟨hu, w, hw, hp, rfl⟩
    · simp [literalLength, List.isPrefixOf_iff_prefix, hp] at hc
  · rintro ⟨ht, w, hw, hp, rfl⟩
    have hlength : w.length ≠ 0 := by simpa using (text_solid hw).1
    refine List.mem_filterMap.2 ⟨t, ht, ?_⟩
    simp only [hw, Option.map_some, Option.bind_some, literalLength,
      if_pos (List.isPrefixOf_iff_prefix.2 hp), if_neg hlength]

/-- A fixed text is found where it is the longest that is there. -/
lemma longestLiteral?_of_longest {ts : List Terminal} {t : Terminal} {w : String} {s : List Char}
    (ht : t.text? = some w) (hmem : t ∈ ts) (hp : w.toList <+: s)
    (hmax : ∀ u ∈ ts, ∀ v, u.text? = some v → v.toList <+: s → v.length ≤ w.length) :
    longestLiteral? ts s = some (t, w.length) := by
  change (fixedAt ts s).foldl longer none = _
  apply foldl_longer
  · rintro ⟨u, n⟩ hc
    obtain ⟨hu, v, hv, hvp, rfl⟩ := mem_fixedAt.1 hc
    obtain heq | hlt := (hmax u hu v hv hvp).eq_or_lt
    · have hvw : v.toList = w.toList := by
        apply (List.prefix_of_prefix_length_le hvp hp _).eq_of_length
        · simpa [String.length_toList] using heq
        · simpa [String.length_toList] using heq.le
      obtain rfl := String.toList_inj.1 hvw
      obtain rfl : u = t := text?_inj hv ht
      exact Or.inl rfl
    · exact Or.inr hlt
  · exact mem_fixedAt.2 ⟨hmem, w, ht, hp, rfl⟩
  · simp

/-- What is found is the longest fixed text that is there. -/
lemma longestLiteral?_spec {ts : List Terminal} {t : Terminal} {n : Nat} {s : List Char}
    (h : longestLiteral? ts s = some (t, n)) :
    (t ∈ ts ∧ ∃ w, t.text? = some w ∧ w.toList <+: s ∧ n = w.length)
      ∧ ∀ u ∈ ts, ∀ v, u.text? = some v → v.toList <+: s → v.length ≤ n := by
  obtain ⟨hmem, hmax⟩ := foldl_longer_spec h
  refine ⟨mem_fixedAt.1 (hmem.elim id fun h => by cases h), fun u hu v hv hp => ?_⟩
  exact hmax (u, v.length) (Or.inl (mem_fixedAt.2 ⟨hu, v, hv, hp, rfl⟩))

lemma longestLiteral?_text {ts : List Terminal} {t : Terminal} {s : String} {rest : List Char}
    (ht : t.text? = some s) (hmem : t ∈ ts) (hr : Apart rest) :
    longestLiteral? ts (s.toList ++ rest) = some (t, s.length) := by
  refine longestLiteral?_of_longest ht hmem (List.prefix_append _ _) fun u _ v hv hp => ?_
  simpa [String.length_toList] using (prefix_of_stop (text_solid hv).2 hr hp).length_le

end Fixed

section Starts

variable {c : Char} {s : List Char}

lemma docCommentLength_cons (h : c ≠ '/') : docCommentLength (c :: s) = 0 := by
  simp [docCommentLength, h]

lemma blockCommentLength_cons (h : c ≠ '/') : blockCommentLength (c :: s) = 0 := by
  simp [blockCommentLength, h]

lemma lineCommentLength_cons (h : c ≠ '/') : lineCommentLength (c :: s) = 0 := by
  simp [lineCommentLength, h]

lemma arrayLength_cons (h : c ≠ '[') : arrayLength (c :: s) = 0 := by
  simp [arrayLength, h]

lemma nameLength_cons (h : isNameStart c = false) : nameLength (c :: s) = 0 := by
  simp [nameLength, identifierLength, h]

lemma spaceLength_cons (h : isSpace c = false) : spaceLength (c :: s) = 0 := by
  simp [spaceLength, h]

lemma nameLength_of_identifier (h : identifierLength s = s.length) : nameLength s = s.length := by
  rw [nameLength, h, List.drop_length, segmentsLength]
  split
  · next h => exact h.symm
  · rfl

lemma isNameStart_of_whole {s : String} (hne : s ≠ "") (h : nameLength s.toList = s.length) :
    ∃ c cs, s.toList = c :: cs ∧ isNameStart c = true := by
  rw [← String.length_toList] at h
  cases hs : s.toList with
  | nil => exact absurd (String.toList_eq_nil_iff.1 hs) hne
  | cons c cs =>
    refine ⟨c, cs, rfl, ?_⟩
    by_contra hc
    rw [hs, nameLength_cons (by simpa using hc)] at h
    simp at h

lemma isBlank_of_isSpace (h : isSpace c = true) : Text.isBlank c = true := by
  simp only [isSpace, Bool.or_eq_true, decide_eq_true_eq] at h
  rcases h with (((rfl | rfl) | rfl) | rfl) | rfl <;> decide

/-- A character with which names start opens no comment and no brackets and is no blank. -/
lemma isNameStart_apart (h : isNameStart c = true) : c ≠ '/' ∧ c ≠ '[' ∧ isSpace c = false := by
  refine ⟨?_, ?_, ?_⟩
  · rintro rfl
    revert h
    decide
  · rintro rfl
    revert h
    decide
  · by_contra hc
    simp only [isSpace, Bool.not_eq_false, Bool.or_eq_true, decide_eq_true_eq] at hc
    rcases hc with (((rfl | rfl) | rfl) | rfl) | rfl <;> revert h <;> decide

end Starts

/-- Identifiers that are no keywords are names. -/
lemma isName_of_identifier {s : String} (hne : s ≠ "") (hs : identifierLength s.toList = s.length)
    (hfree : ∀ t ∈ Terminal.literals, t.text? ≠ some s) : IsName s where
  ne := hne
  whole := by
    rw [← String.length_toList] at hs ⊢
    exact nameLength_of_identifier hs
  free k hk := hfree (.keyword k) (mem_literals rfl) (congrArg some hk.symm)

variable {offered : List Terminal} {rest : List Char}

/-- What a text is read as that names might be written as. -/
lemma next?_whole {s : String} (hne : s ≠ "") (hwhole : nameLength s.toList = s.length)
    (hi : .initializer ∉ offered) (hn : .name ∈ offered) (hr : Apart rest) :
    next? offered (s.toList ++ rest)
      = some (.token ((withText? offered s.toList).getD .name), s.length) := by
  have hlength : s.length ≠ 0 := by simpa using hne
  have hname : name? offered (s.toList ++ rest)
      = some (.token ((withText? offered s.toList).getD .name), s.length) := by
    rw [name?, nameLength_severed _ hr.severs, hwhole, ← String.length_toList, List.take_left, tried,
      if_neg (by rwa [String.length_toList])]
  obtain ⟨c, cs, hs, hc⟩ := isNameStart_of_whole hne hwhole
  have hdoc : docCommentLength (s.toList ++ rest) = 0 := by
    rw [hs]
    exact docCommentLength_cons (isNameStart_apart hc).1
  rw [next?, hdoc, if_neg hi, if_pos hn, hname]
  rfl

lemma next?_name {s : String} (hs : IsName s) (hi : .initializer ∉ offered) (hn : .name ∈ offered)
    (hr : Apart rest) : next? offered (s.toList ++ rest) = some (.token .name, s.length) := by
  have hnone : withText? offered s.toList = none := by
    apply List.find?_eq_none.2
    intro t _
    rw [String.ofList_toList, decide_eq_true_eq]
    intro ht
    match t with
    | .keyword k => exact hs.free k (Option.some_inj.1 ht).symm
    | .mark m =>
      have hm : nameLength m.text.toList = 0 := by cases m <;> exact nameLength_cons rfl
      rw [← Option.some_inj.1 ht] at hs
      exact hs.ne (String.length_eq_zero_iff.1 (hs.whole.symm.trans hm))
  rw [next?_whole hs.ne hs.whole hi hn hr, hnone]
  rfl

lemma next?_literal {c : Char} {s : List Char} (hslash : c ≠ '/') (hbracket : c ≠ '[')
    (hspace : isSpace c = false) (hi : .initializer ∉ offered)
    (hn : .name ∈ offered → isNameStart c = false) :
    next? offered (c :: s) = literal? offered (c :: s) := by
  have hname : (if .name ∈ offered then name? offered (c :: s) else none) = none := by
    split
    · next h => simp [name?, nameLength_cons (hn h), tried]
    · rfl
  have harray : (if .array ∈ offered then tried (.token .array) (arrayLength (c :: s)) else none)
      = none := by
    rw [arrayLength_cons hbracket]
    split <;> rfl
  rw [next?, docCommentLength_cons hslash, if_neg hi, hname, harray, blockCommentLength_cons hslash,
    spaceLength_cons hspace, lineCommentLength_cons hslash]
  rfl

lemma keyword_whole (k : Keyword) : k.text ≠ "" ∧ nameLength k.text.toList = k.text.length := by
  have hident : identifierLength k.text.toList = k.text.toList.length := by
    cases k with
    | modifier m => cases m <;> decide
    | _ => decide
  exact ⟨(text_solid (t := .keyword k) rfl).1,
    (nameLength_of_identifier hident).trans String.length_toList⟩

lemma mark_start (m : Mark) : ∃ c cs, m.text.toList = c :: cs ∧ c ≠ '/' ∧ c ≠ '['
    ∧ isSpace c = false ∧ isNameStart c = false := by
  cases m <;> exact ⟨_, _, rfl, by decide, by decide, by decide, by decide⟩

/-- A keyword is one where it is offered, whether names are or not. -/
lemma next?_keyword {k : Keyword} (hi : .initializer ∉ offered) (hk : .keyword k ∈ offered)
    (hr : Apart rest) :
    next? offered (k.text.toList ++ rest) = some (.token (.keyword k), k.text.length) := by
  obtain ⟨hne, hwhole⟩ := keyword_whole k
  by_cases hn : .name ∈ offered
  · have hfound : withText? offered k.text.toList = some (.keyword k) := by
      cases hf : withText? offered k.text.toList with
      | none =>
        have := List.find?_eq_none.1 hf (.keyword k) hk
        simp [Terminal.text?] at this
      | some t =>
        have ht := List.find?_some hf
        rw [String.ofList_toList, decide_eq_true_eq] at ht
        rw [text?_inj (u := .keyword k) ht rfl]
    rw [next?_whole hne hwhole hi hn hr, hfound]
    rfl
  · obtain ⟨c, cs, hs, hc⟩ := isNameStart_of_whole hne hwhole
    obtain ⟨hslash, hbracket, hspace⟩ := isNameStart_apart hc
    have hliteral := longestLiteral?_text (t := .keyword k) rfl hk hr
    rw [hs, List.cons_append] at hliteral ⊢
    rw [next?_literal hslash hbracket hspace hi fun h => absurd h hn, literal?, if_neg hn, hliteral]
    rfl

lemma next?_mark {m : Mark} (hi : .initializer ∉ offered) (hm : .mark m ∈ offered)
    (hr : Apart rest) :
    next? offered (m.text.toList ++ rest) = some (.token (.mark m), m.text.length) := by
  obtain ⟨c, cs, hs, hslash, hbracket, hspace, hc⟩ := mark_start m
  have hliteral : literal? offered (m.text.toList ++ rest)
      = some (.token (.mark m), m.text.length) := by
    refine Option.map_eq_some_iff.2
      ⟨(.mark m, m.text.length), longestLiteral?_text (t := .mark m) rfl ?_ hr, rfl⟩
    split
    · exact List.mem_filter.2 ⟨hm, rfl⟩
    · exact hm
  rw [hs, List.cons_append] at hliteral ⊢
  rw [next?_literal hslash hbracket hspace hi fun _ => hc, hliteral]

lemma next?_brackets (hi : .initializer ∉ offered) (ha : .array ∈ offered) :
    next? offered ("[]".toList ++ rest) = some (.token .array, 2) := by
  have harray : arrayLength ('[' :: ']' :: rest) = 2 := by
    have hclose : Text.isBlank ']' = false ∧ Char.isDigit ']' = false := by decide
    simp [arrayLength, hclose]
    omega
  have hname : (if .name ∈ offered then name? offered ('[' :: ']' :: rest) else none) = none := by
    have hlength : nameLength ('[' :: ']' :: rest) = 0 := nameLength_cons rfl
    split
    · simp [name?, hlength, tried]
    · rfl
  change next? offered ('[' :: ']' :: rest) = _
  rw [next?, docCommentLength_cons (by decide), if_neg hi, hname, if_pos ha, harray]
  rfl

lemma next?_initializer {s : String} (hs : IsInitializer s) (hi : .initializer ∈ offered) :
    next? offered (s.toList ++ ' ' :: ';' :: rest) = some (.token .initializer, s.length + 1) := by
  have hdoc : docCommentLength (s.toList ++ ' ' :: ';' :: rest) = 0 := by
    have hplain : ¬['/', '*', '*'] <+: s.toList ++ ' ' :: ';' :: rest :=
      fun h => hs.plain (prefix_of_stop (by decide) (apart_blank _) h)
    unfold docCommentLength
    split
    · rfl
    · next heq => exact absurd ⟨_, heq.symm⟩ hplain
    · rfl
  rw [next?, hdoc, if_pos hi, hs.length]
  rfl

/-- A blank before another character is taken off by itself. -/
lemma next?_blank {c : Char} {s : List Char} (hc : isSpace c = false) :
    next? offered (' ' :: c :: s) = some (.space, 1) := by
  have hspace : spaceLength (' ' :: c :: s) = 1 := by
    have hblank : isSpace ' ' = true := rfl
    rw [spaceLength, List.takeWhile_cons_of_pos hblank, List.takeWhile_cons_of_neg (by simp [hc])]
    rfl
  have hinit : initializerLength (' ' :: c :: s) = 0 := by
    have hblank : Text.isBlank ' ' = true := rfl
    rw [initializerLength, if_pos hblank]
  have hname : nameLength (' ' :: c :: s) = 0 := nameLength_cons rfl
  rw [next?, docCommentLength_cons (by decide), hinit, name?, hname, arrayLength_cons (by decide),
    blockCommentLength_cons (by decide), hspace]
  simp [tried]

end Lexeme

namespace Word

open Lexeme

/-- Words whose text is one of their terminal. -/
def Proper (w : Word) : Prop :=
  match w.terminal with
  | .name => IsName w.text
  | .initializer => IsInitializer w.text
  | .array => w.text = "[]"
  | .keyword k => w.text = k.text
  | .mark m => w.text = m.text

/-- What is taken off a text for a word: with an initializer goes the blank after it. -/
def lexeme (w : Word) : List Char :=
  if w.terminal = .initializer then w.text.toList ++ [' '] else w.text.toList

/-- Words with a blank before each. -/
def spaced (ws : List Word) : List Char := ws.flatMap fun w => ' ' :: w.text.toList

/-- Words with a blank between two of them. -/
def line : List Word → List Char
  | [] => []
  | w :: ws => w.text.toList ++ spaced ws

lemma intercalate_cons {α : Type} (sep x : List α) (xs : List (List α)) :
    List.intercalate sep (x :: xs) = x ++ xs.flatMap (sep ++ ·) := by
  induction xs generalizing x with
  | nil => simp [List.intercalate]
  | cons y ys ih =>
    have hstep : List.intercalate sep (x :: y :: ys) =
        x ++ (sep ++ List.intercalate sep (y :: ys)) := by simp [List.intercalate]
    rw [hstep, ih, List.flatMap_cons, List.append_assoc sep]

/-- The line of words is the text in which they are written. -/
lemma toList_intercalate (ws : List Word) :
    (" ".intercalate (ws.map (·.text))).toList = line ws := by
  rw [String.toList_intercalate, List.map_map]
  cases ws with
  | nil => rfl
  | cons w ws =>
    rw [List.map_cons, intercalate_cons, List.flatMap_map]
    rfl

lemma spaced_cons (w : Word) (ws : List Word) : spaced (w :: ws) = ' ' :: line (w :: ws) := rfl

lemma spaced_apart (ws : List Word) : Apart (spaced ws) := by
  cases ws with
  | nil => exact apart_nil
  | cons w ws => exact apart_blank _

/-- Sequences of proper words in which a semicolon follows every initializer. -/
def Legible : List Word → Prop
  | [] => True
  | w :: ws =>
    w.Proper ∧ (w.terminal = .initializer → ws.head? = some (.mark .semicolon)) ∧ Legible ws

variable {w : Word} {ws : List Word}

/-- A proper word starts with a character that is no blank. -/
lemma Proper.start (hw : w.Proper) : ∃ c cs, w.text.toList = c :: cs ∧ isSpace c = false := by
  obtain ⟨t, s⟩ := w
  cases t with
  | name =>
    obtain ⟨c, cs, hs, hc⟩ := isNameStart_of_whole hw.ne hw.whole
    exact ⟨c, cs, hs, (isNameStart_apart hc).2.2⟩
  | initializer =>
    obtain ⟨c, cs, hs, hc, _⟩ := IsInitializer.cons hw
    refine ⟨c, cs, hs, ?_⟩
    by_contra hspace
    rw [isBlank_of_isSpace (by simpa using hspace)] at hc
    exact absurd hc (by simp)
  | array => exact ⟨'[', [']'], by rw [show s = "[]" from hw]; rfl, by decide⟩
  | keyword k =>
    obtain ⟨c, cs, hs, hc⟩ := isNameStart_of_whole (keyword_whole k).1 (keyword_whole k).2
    exact ⟨c, cs, by rw [show s = k.text from hw]; exact hs, (isNameStart_apart hc).2.2⟩
  | mark m =>
    obtain ⟨c, cs, hs, _, _, hspace, _⟩ := mark_start m
    exact ⟨c, cs, by rw [show s = m.text from hw]; exact hs, hspace⟩

lemma Proper.lexeme_ne (hw : w.Proper) : w.lexeme ≠ [] := by
  obtain ⟨c, cs, hs, _⟩ := hw.start
  unfold lexeme
  split <;> simp [hs]

/-- A proper word is the next lexeme wherever its terminal is offered. Only an initializer takes
the blank after it along. -/
lemma Legible.next? {offered : List Terminal} (h : Legible (w :: ws))
    (hmem : w.terminal ∈ offered) (hi : .initializer ∈ offered → offered = [.initializer]) :
    ∃ rest, (rest = spaced ws ∨ rest = line ws) ∧ line (w :: ws) = w.lexeme ++ rest
      ∧ Lexeme.next? offered (line (w :: ws)) = some (.token w.terminal, w.lexeme.length) := by
  obtain ⟨hw, hsemi, _⟩ := h
  obtain ⟨t, s⟩ := w
  by_cases ht : t = .initializer
  · subst ht
    obtain ⟨v, vs, rfl⟩ := List.exists_cons_of_ne_nil (l := ws) (by rintro rfl; simp at hsemi)
    obtain rfl : v = .mark .semicolon := by simpa using hsemi rfl
    refine ⟨line (.mark .semicolon :: vs), Or.inr rfl, ?_, ?_⟩
    · simp [line, lexeme, spaced_cons]
    · have hlexeme : (lexeme ⟨.initializer, s⟩).length = s.length + 1 := by
        simp [lexeme, String.length_toList]
      rw [hlexeme]
      exact next?_initializer hw hmem
  · have hni : .initializer ∉ offered := fun h => ht (by simpa [hi h] using hmem)
    have hlexeme : lexeme ⟨t, s⟩ = s.toList := if_neg ht
    refine ⟨spaced ws, Or.inl rfl, by rw [hlexeme]; rfl, ?_⟩
    rw [hlexeme, String.length_toList]
    have hr := spaced_apart ws
    cases t with
    | name => exact next?_name hw hni hmem hr
    | initializer => exact absurd rfl ht
    | array =>
      obtain rfl : s = "[]" := hw
      exact next?_brackets hni hmem
    | keyword k =>
      obtain rfl : s = k.text := hw
      exact next?_keyword hni hmem hr
    | mark m =>
      obtain rfl : s = m.text := hw
      exact next?_mark hni hmem hr

end Word

end DeclGraph
