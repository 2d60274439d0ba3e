import DeclGraph.Proofs.Syntax.Scanning

/-!
What a lexeme depends on. A text that goes on with a slash behind what was looked at has the same
lexeme at its start: blanks, names and fixed texts end before a slash, brackets and comments by
themselves, and an initializer before its semicolon.
-/

namespace DeclGraph

namespace Lexeme

variable {s r q : List Char} {n : Nat}

section Lists

variable {p : Char → Bool}

lemma takeWhile_of_le (h : ((s ++ r).takeWhile p).length ≤ s.length) :
    (s ++ r).takeWhile p = s.takeWhile p := by
  rw [List.takeWhile_append] at h ⊢
  split at h
  · next hall =>
    rw [List.length_append] at h
    have hnone : r.takeWhile p = [] := List.eq_nil_of_length_eq_zero (by omega)
    rw [if_pos hall, hnone, List.append_nil, (List.takeWhile_prefix p).eq_of_length hall]
  · next hall => rw [if_neg hall]

lemma takeWhile_of_lt (h : ((s ++ r).takeWhile p).length < s.length) (q : List Char) :
    (s ++ q).takeWhile p = s.takeWhile p := by
  rw [takeWhile_of_le h.le] at h
  rw [List.takeWhile_append, if_neg h.ne]

lemma dropWhile_of_lt (h : r.length < ((s ++ r).dropWhile p).length) (q : List Char) :
    (s ++ q).dropWhile p = s.dropWhile p ++ q := by
  rw [List.dropWhile_append] at h ⊢
  split at h
  · exact absurd (List.dropWhile_suffix p).length_le (not_le.2 h)
  · next hsome => rw [if_neg hsome]

end Lists

section Names

lemma identifierLength_of_le (h : identifierLength (s ++ r) ≤ s.length) :
    identifierLength (s ++ r) = identifierLength s := by
  cases s with
  | nil => exact Nat.le_zero.1 h
  | cons c s =>
    rw [List.cons_append, identifierLength] at h ⊢
    rw [identifierLength]
    split at h
    · next hc =>
      rw [List.length_cons] at h
      rw [if_pos hc, if_pos hc, takeWhile_of_le (by omega)]
    · next hc => rw [if_neg hc, if_neg hc]

lemma separatorLength_of_lt (h : separatorLength (s ++ r) < s.length) :
    separatorLength (s ++ r) = separatorLength s := by
  match s with
  | [c] =>
    rw [List.length_singleton, Nat.lt_one_iff] at h
    rw [h]
    by_cases hc : c = '.'
    · rw [hc] at h
      cases h
    · simp [separatorLength, hc]
  | c :: d :: s =>
    simp only [List.cons_append, separatorLength]
    split <;> simp_all

lemma separatorLength_append (h : separatorLength s ≠ 0) (r : List Char) :
    separatorLength (s ++ r) = separatorLength s := by
  unfold separatorLength at h
  split at h
  · rfl
  · rfl
  · exact absurd rfl h

/-- Where all segments are in the first part of a text, so is each of them. -/
lemma segment_of_le
    (hident : identifierLength ((s ++ r).drop (separatorLength (s ++ r))) ≠ 0)
    (h : separatorLength (s ++ r) + identifierLength ((s ++ r).drop (separatorLength (s ++ r)))
      ≤ s.length) :
    separatorLength (s ++ r) = separatorLength s
      ∧ identifierLength ((s ++ r).drop (separatorLength (s ++ r)))
        = identifierLength (s.drop (separatorLength s)) := by
  have heq : separatorLength (s ++ r) = separatorLength s := separatorLength_of_lt (by omega)
  refine ⟨heq, ?_⟩
  rw [heq, List.drop_append_of_le_length (separatorLength_le s)] at h ⊢
  exact identifierLength_of_le (by rw [List.length_drop]; omega)

lemma segmentsLength_of_le (h : segmentsLength (s ++ r) ≤ s.length) :
    segmentsLength (s ++ r) = segmentsLength s := by
  induction s using segmentsLength.induct with
  | case1 s sep ident hnone =>
    rw [segmentsLength.eq_def s, dif_pos hnone]
    rw [segmentsLength] at h ⊢
    split at h
    · next hnone' => exact dif_pos hnone'
    · next hsome =>
      obtain ⟨hsep, hident⟩ := not_or.1 hsome
      obtain ⟨hsep', hident'⟩ := segment_of_le hident (by omega)
      rw [hsep'] at hsep
      rw [hident'] at hident
      exact absurd hnone (not_or.2 ⟨hsep, hident⟩)
  | case2 s sep ident hsome ih =>
    obtain ⟨hsep, hident⟩ := not_or.1 hsome
    have hsep' : separatorLength (s ++ r) = sep := separatorLength_append hsep r
    have hdrop : (s ++ r).drop sep = s.drop sep ++ r :=
      List.drop_append_of_le_length (separatorLength_le s)
    have hident' : identifierLength ((s ++ r).drop (separatorLength (s ++ r))) ≠ 0 := by
      rw [hsep', hdrop]
      intro hzero
      rw [identifierLength_of_le (by rw [hzero]; exact Nat.zero_le _)] at hzero
      exact hident hzero
    have hsome' : ¬(separatorLength (s ++ r) = 0
        ∨ identifierLength ((s ++ r).drop (separatorLength (s ++ r))) = 0) :=
      not_or.2 ⟨by rwa [hsep'], hident'⟩
    rw [segmentsLength.eq_def s, dif_neg hsome]
    rw [segmentsLength, dif_neg hsome'] at h ⊢
    have heq := (segment_of_le hident' (Nat.le_of_add_right_le h)).2
    rw [heq, hsep'] at h ⊢
    change sep + ident + segmentsLength ((s ++ r).drop (sep + ident)) ≤ s.length at h
    change sep + ident + segmentsLength ((s ++ r).drop (sep + ident))
      = sep + ident + segmentsLength (s.drop (sep + ident))
    rw [List.drop_append_of_le_length (Nat.le_of_add_right_le h)] at h ⊢
    rw [ih (by rw [List.length_drop]; omega)]

lemma nameLength_of_le (h : nameLength (s ++ r) ≤ s.length) :
    nameLength (s ++ r) = nameLength s := by
  have hident : identifierLength (s ++ r) ≤ nameLength (s ++ r) := by
    rw [nameLength]
    split <;> omega
  have heq := identifierLength_of_le (hident.trans h)
  rw [nameLength, heq] at h ⊢
  rw [nameLength]
  split
  · rfl
  · next hsome =>
    rw [if_neg hsome, List.drop_append_of_le_length (identifierLength_le s)] at h
    rw [List.drop_append_of_le_length (identifierLength_le s), segmentsLength_of_le]
    rw [List.length_drop]
    omega

end Names

section Comments

lemma commentRest?_closed {t : List Char} (h : ¬['*', '/'] <:+: t) (rest : List Char) :
    commentRest? (t ++ '*' :: '/' :: rest) = some (t.length + 2) := by
  induction t with
  | nil => rfl
  | cons c t ih =>
    have ht := ih fun hpart => h (hpart.trans (List.suffix_cons c t).isInfix)
    rw [List.cons_append, commentRest?, ht]
    · rfl
    · rintro rest' rfl heq
      cases t with
      | nil => cases heq
      | cons d t =>
        obtain ⟨rfl, -⟩ := List.cons.inj heq
        exact h ⟨[], t, rfl⟩

lemma commentRest?_eq_some (h : commentRest? s = some n) :
    ∃ t rest, s = t ++ '*' :: '/' :: rest ∧ ¬['*', '/'] <:+: t ∧ n = t.length + 2 := by
  induction s using commentRest?.induct generalizing n with
  | case1 => simp [commentRest?] at h
  | case2 s =>
    simp only [commentRest?, Option.some.injEq] at h
    exact ⟨[], s, rfl, by simp, by simp [← h]⟩
  | case3 c s hs ih =>
    simp only [commentRest?, Option.map_eq_map, Option.map_eq_some_iff] at h
    obtain ⟨m, hm, rfl⟩ := h
    obtain ⟨t, rest, rfl, ht, rfl⟩ := ih hm
    refine ⟨c :: t, rest, rfl, fun hpart => ?_, rfl⟩
    rcases List.infix_cons_iff.1 hpart with ⟨u, hu⟩ | hpart
    · obtain ⟨rfl, rfl⟩ := List.cons.inj hu
      exact hs _ rfl rfl
    · exact ht hpart

/-- The end of a comment is found before what follows it. -/
lemma commentRest?_cut (h : commentRest? (s ++ r) = some n) (hn : n ≤ s.length) (q : List Char) :
    commentRest? (s ++ q) = some n := by
  obtain ⟨t, rest, heq, ht, rfl⟩ := commentRest?_eq_some h
  have hclosed : t ++ ['*', '/'] <+: s ++ r := ⟨rest, by simp [heq]⟩
  obtain ⟨u, rfl⟩ : t ++ ['*', '/'] <+: s :=
    List.prefix_of_prefix_length_le hclosed (List.prefix_append s r) (by simpa using hn)
  simpa using commentRest?_closed ht (u ++ q)

lemma docCommentLength_ne_zero (h : docCommentLength s ≠ 0) : ∃ t k, s = '/' :: '*' :: '*' :: t
    ∧ t.head? ≠ some '/' ∧ commentRest? t = some k ∧ docCommentLength s = k + 3 := by
  unfold docCommentLength at h ⊢
  split at h
  · exact absurd rfl h
  · next t ht =>
    cases hk : commentRest? t with
    | none => simp [hk] at h
    | some k =>
      refine ⟨t, k, rfl, fun hhead => ?_, hk, by simp⟩
      obtain ⟨u, rfl⟩ : ∃ u, t = '/' :: u := by
        cases t with
        | nil => cases hhead
        | cons c u => exact ⟨u, by rw [Option.some_inj.1 hhead]⟩
      exact ht _ rfl
  · exact absurd rfl h

lemma docCommentLength_of_closed {t : List Char} (ht : t.head? ≠ some '/') {k : Nat}
    (h : commentRest? t = some k) : docCommentLength ('/' :: '*' :: '*' :: t) = k + 3 := by
  rw [docCommentLength, h]
  · rfl
  · rintro u rfl
    exact ht rfl

lemma blockCommentLength_ne_zero (h : blockCommentLength s ≠ 0) : ∃ t k, s = '/' :: '*' :: t
    ∧ commentRest? t = some k ∧ blockCommentLength s = k + 2 := by
  unfold blockCommentLength at h ⊢
  split at h
  · next t =>
    cases hk : commentRest? t with
    | none => simp [hk] at h
    | some k => exact ⟨t, k, rfl, hk, by simp⟩
  · exact absurd rfl h

end Comments

section Values

lemma stringRest?_pos {quote : Char} (h : stringRest? quote s = some n) : 0 < n := by
  unfold stringRest? at h
  split at h
  · cases h
  · split at h
    · cases h
    · obtain ⟨m, -, rfl⟩ := Option.map_eq_some_iff.1 h
      exact Nat.succ_pos _
  · split at h
    · cases h
      exact Nat.one_pos
    · split at h
      · cases h
      · obtain ⟨m, -, rfl⟩ := Option.map_eq_some_iff.1 h
        exact Nat.succ_pos _

/-- The closing quote is found without what follows it. -/
lemma stringRest?_of_le {quote : Char} (hq : quote ≠ '\\') (h : stringRest? quote (s ++ r) = some n)
    (hn : n ≤ s.length) : stringRest? quote s = some n := by
  induction s using stringRest?.induct quote generalizing n with
  | case1 =>
    have hpos := stringRest?_pos h
    rw [List.length_nil] at hn
    omega
  | case2 s => simp [stringRest?] at h
  | case3 c s hc ih =>
    simp only [List.cons_append, stringRest?, if_neg hc, Option.map_eq_map,
      Option.map_eq_some_iff] at h ⊢
    obtain ⟨m, hm, rfl⟩ := h
    exact ⟨m, ih hm (by simpa using hn), rfl⟩
  | case4 s hs => simpa [stringRest?, hq] using h
  | case5 s hs hc =>
    -- a backslash at the end takes a character of the other part along
    obtain rfl : s = [] := by
      cases s with
      | nil => rfl
      | cons c s => exact absurd rfl fun heq => hs c s heq rfl
    cases r with
    | nil => simp [stringRest?, hc] at h
    | cons c r =>
      simp only [List.cons_append, List.nil_append, stringRest?] at h
      split at h
      · cases h
      · obtain ⟨m, -, rfl⟩ := Option.map_eq_some_iff.1 h
        simp at hn
  | case6 c s hs hc hd ih =>
    have hcons (t : List Char) :
        stringRest? quote (c :: t) = (stringRest? quote t).map (· + 1) := by
      simp [stringRest?, hc, hd]
    rw [List.cons_append, hcons, Option.map_eq_some_iff] at h
    rw [hcons, Option.map_eq_some_iff]
    obtain ⟨m, hm, rfl⟩ := h
    exact ⟨m, ih hm (by simpa using hn), rfl⟩

lemma valuePieceLength_of_le (h : valuePieceLength (s ++ r) ≤ s.length)
    (hne : valuePieceLength (s ++ r) ≠ 0) :
    valuePieceLength (s ++ r) = valuePieceLength s := by
  cases s with
  | nil => exact absurd (Nat.le_zero.1 h) hne
  | cons c s =>
    rw [List.cons_append, valuePieceLength] at h hne ⊢
    rw [valuePieceLength]
    split at h
    · next hc =>
      rw [if_pos hc] at hne ⊢
      rw [if_pos hc]
      have hq : c ≠ '\\' := by rcases hc with rfl | rfl <;> decide
      cases hk : stringRest? c (s ++ r) with
      | none => simp [hk] at hne
      | some k =>
        rw [hk] at h
        rw [stringRest?_of_le hq hk (by simpa using h)]
    · next hc => rw [if_neg hc, if_neg hc]

/-- The pieces of an initializer are the same without what follows it. -/
lemma valueLength_of_eq (h : valueLength (s ++ r) = s.length) : valueLength s = s.length := by
  induction hk : s.length using Nat.strong_induction_on generalizing s with
  | _ k ih =>
    subst hk
    cases hs : s with
    | nil => rw [valueLength]; rfl
    | cons c t =>
      have hpos : 0 < s.length := by simp [hs]
      rw [← hs]
      rw [valueLength] at h
      split at h
      · omega
      · next hne =>
        have hle : valuePieceLength (s ++ r) ≤ s.length := Nat.le_of_add_right_le h.le
        have hpiece := valuePieceLength_of_le hle hne
        rw [hpiece] at h hne hle
        rw [List.drop_append_of_le_length hle] at h
        have hdrop : (s.drop (valuePieceLength s)).length < s.length := by
          rw [List.length_drop]
          omega
        have hrest := ih _ hdrop (by rw [List.length_drop]; omega) rfl
        rw [valueLength, dif_neg hne]
        rw [List.length_drop] at hrest
        omega

lemma valuePieceLength_drop (s : List Char) : valuePieceLength (s.drop (valueLength s)) = 0 := by
  induction s using valueLength.induct with
  | case1 s n hn =>
    rw [valueLength, dif_pos hn]
    exact hn
  | case2 s n hn ih =>
    rw [valueLength, dif_neg hn]
    rwa [List.drop_drop] at ih

/-- An initializer ends before a semicolon or a quote. -/
lemma initializerLength_stop (hne : initializerLength s ≠ 0) {c : Char} {t : List Char}
    (h : s.drop (initializerLength s) = c :: t) : c = ';' ∨ c = '\x22' ∨ c = '\x27' := by
  have hpiece : valuePieceLength (s.drop (initializerLength s)) = 0 := by
    cases s with
    | nil => exact absurd rfl hne
    | cons d s =>
      rw [initializerLength] at hne ⊢
      split at hne
      · exact absurd rfl hne
      · next hd =>
        rw [if_neg hd]
        exact valuePieceLength_drop _
  rw [h, valuePieceLength] at hpiece
  split at hpiece
  · next hquote => exact Or.inr hquote
  · split at hpiece
    · next hc => exact Or.inl hc
    · cases hpiece

end Values

/-- What follows the opening bracket after blanks, a number and blanks. -/
def closing (s : List Char) : List Char :=
  ((s.dropWhile Text.isBlank).dropWhile Char.isDigit).dropWhile Text.isBlank

lemma closing_of_lt (h : r.length < (closing (s ++ r)).length) (q : List Char) :
    closing (s ++ q) = closing s ++ q := by
  have hle {p : Char → Bool} (t : List Char) : (t.dropWhile p).length ≤ t.length :=
    (List.dropWhile_suffix p).length_le
  have h₂ := h.trans_le (hle _)
  have h₁ := h₂.trans_le (hle _)
  rw [closing] at h
  rw [dropWhile_of_lt h₁] at h h₂
  rw [dropWhile_of_lt h₂] at h
  rw [closing, dropWhile_of_lt h₁, dropWhile_of_lt h₂, dropWhile_of_lt h, closing]

lemma arrayLength_of_closing {after : List Char} (h : closing s = ']' :: after) :
    arrayLength ('[' :: s) = 1 + s.length - after.length := by
  rw [closing] at h
  simp only [arrayLength, h]

lemma arrayLength_ne_zero (h : arrayLength s ≠ 0) :
    ∃ t after, s = '[' :: t ∧ closing t = ']' :: after := by
  unfold arrayLength at h
  split at h
  · next t =>
    dsimp only at h
    split at h
    · next after hafter => exact ⟨t, after, rfl, hafter⟩
    · exact absurd rfl h
  · exact absurd rfl h

lemma arrayLength_cut (hne : arrayLength (s ++ r) ≠ 0) (h : arrayLength (s ++ r) ≤ s.length)
    (q : List Char) : arrayLength (s ++ q) = arrayLength (s ++ r) := by
  obtain ⟨t, after, ht, hafter⟩ := arrayLength_ne_zero hne
  cases s with
  | nil => exact absurd (Nat.le_zero.1 h) hne
  | cons c s =>
    rw [List.cons_append] at ht h ⊢
    obtain ⟨rfl, rfl⟩ := List.cons.inj ht
    rw [arrayLength_of_closing hafter, List.length_append, List.length_cons] at h
    have hlt : r.length < (closing (s ++ r)).length := by
      rw [hafter, List.length_cons]
      omega
    have hclosing := closing_of_lt hlt
    have happend : closing s ++ r = ']' :: after := (hclosing r).symm.trans hafter
    obtain ⟨u, hu⟩ : ∃ u, closing s = ']' :: u := by
      cases hu : closing s with
      | nil => simp [hclosing, hu] at hlt
      | cons d u =>
        rw [hu] at happend
        exact ⟨u, by rw [(List.cons.inj happend).1]⟩
    have hlength (q : List Char) : arrayLength ('[' :: (s ++ q)) = 1 + s.length - u.length := by
      have hq : closing (s ++ q) = ']' :: (u ++ q) := by rw [hclosing, hu, List.cons_append]
      rw [arrayLength_of_closing hq, List.length_append, List.length_append]
      omega
    rw [List.cons_append, hlength, hlength]

lemma longestLiteral?_cut {ts : List Terminal} {t : Terminal}
    (h : longestLiteral? ts (s ++ r) = some (t, n)) (hn : n ≤ s.length)
    (hq : ∀ c ∈ q.head?, c = '/') : longestLiteral? ts (s ++ q) = some (t, n) := by
  obtain ⟨⟨hmem, w, hw, hp, rfl⟩, hmax⟩ := longestLiteral?_spec h
  have hs : w.toList <+: s :=
    List.prefix_of_prefix_length_le hp (List.prefix_append s r)
      (by rwa [String.length_toList])
  refine longestLiteral?_of_longest hw hmem (hs.trans (List.prefix_append s q)) ?_
  intro u hu v hv hvp
  exact hmax u hu v hv ((prefix_of_stop (text_slashless hv) hq hvp).trans (List.prefix_append s r))

section Next

variable {offered : List Terminal} {c : Char} {kind : Kind}

lemma tried_of_ne_zero (kind : Kind) (h : n ≠ 0) : tried kind n = some (kind, n) := if_neg h

/-- Fixed texts start with other characters than what is told by its first character. -/
lemma literal?_start (h : literal? offered (c :: s) = some (kind, n)) :
    c ≠ '/' ∧ c ≠ '[' ∧ isSpace c = false ∧ Text.isBlank c = false ∧ c ≠ '\x22' ∧ c ≠ '\x27' := by
  have hall : ∀ t ∈ Terminal.literals, ∀ w ∈ t.text?, w.toList.head?.all (fun c => c ≠ '/'
      ∧ c ≠ '[' ∧ isSpace c = false ∧ Text.isBlank c = false ∧ c ≠ '\x22' ∧ c ≠ '\x27') = true := by
    decide
  obtain ⟨t, w, -, hw, ⟨u, hu⟩, -⟩ := literal?_eq_some h
  have hstart := hall t (mem_literals hw) w hw
  cases hl : w.toList with
  | nil => exact absurd (String.toList_eq_nil_iff.1 hl) (text_solid hw).1
  | cons d l =>
    rw [hl] at hu hstart
    obtain ⟨rfl, -⟩ := List.cons.inj hu
    exact of_decide_eq_true hstart

lemma literal?_eq_none (hc : c = '/' ∨ c = '[') : literal? offered (c :: s) = none := by
  cases h : literal? offered (c :: s) with
  | none => rfl
  | some p =>
    obtain ⟨hslash, hbracket, -⟩ := literal?_start h
    exact absurd hc (not_or.2 ⟨hslash, hbracket⟩)

lemma next?_slash (hi : .initializer ∉ offered) : next? offered ('/' :: s)
    = (tried .docComment (docCommentLength ('/' :: s))
      <|> tried .space (blockCommentLength ('/' :: s))
      <|> tried .space (lineCommentLength ('/' :: s))) := by
  have hliteral : literal? offered ('/' :: s) = none := literal?_eq_none (Or.inl rfl)
  have hname : nameLength ('/' :: s) = 0 := nameLength_cons (by decide)
  have harray : arrayLength ('/' :: s) = 0 := arrayLength_cons (by decide)
  have hspace : spaceLength ('/' :: s) = 0 := spaceLength_cons (by decide)
  rw [next?, if_neg hi, name?, hname, harray, hspace, hliteral]
  simp [tried]

lemma next?_space (hc : isSpace c = true) :
    next? offered (c :: s) = some (.space, spaceLength (c :: s)) := by
  have hslash : c ≠ '/' := by
    rintro rfl
    exact absurd hc (by decide)
  have hbracket : c ≠ '[' := by
    rintro rfl
    exact absurd hc (by decide)
  have hstart : isNameStart c = false := by
    by_contra h
    rw [(isNameStart_apart (by simpa using h)).2.2] at hc
    exact absurd hc (by simp)
  have hinit : initializerLength (c :: s) = 0 := if_pos (isBlank_of_isSpace hc)
  have hne : spaceLength (c :: s) ≠ 0 := by
    rw [spaceLength, List.takeWhile_cons_of_pos hc]
    simp
  rw [next?, docCommentLength_cons hslash, hinit, name?, nameLength_cons hstart,
    arrayLength_cons hbracket, blockCommentLength_cons hslash, tried_of_ne_zero _ hne]
  simp [tried]

lemma next?_bracket (hi : .initializer ∉ offered) : next? offered ('[' :: s)
    = if .array ∈ offered then tried (.token .array) (arrayLength ('[' :: s)) else none := by
  have hliteral : literal? offered ('[' :: s) = none := literal?_eq_none (Or.inr rfl)
  have hname : nameLength ('[' :: s) = 0 := nameLength_cons (by decide)
  have hspace : spaceLength ('[' :: s) = 0 := spaceLength_cons (by decide)
  rw [next?, if_neg hi, name?, hname, docCommentLength_cons (by decide),
    blockCommentLength_cons (by decide), hspace, lineCommentLength_cons (by decide), hliteral]
  simp [tried]

lemma next?_start (hi : .initializer ∉ offered) (hn : .name ∈ offered) (hc : isNameStart c = true) :
    next? offered (c :: s) = name? offered (c :: s) := by
  have hne : nameLength (c :: s) ≠ 0 := by
    have hident : identifierLength (c :: s) ≠ 0 := by simp [identifierLength, hc]
    rw [nameLength, if_neg hident]
    omega
  rw [next?, docCommentLength_cons (isNameStart_apart hc).1, if_neg hi, if_pos hn, name?,
    tried_of_ne_zero _ hne]
  rfl

lemma next?_value (hs : docCommentLength s = 0) (hne : initializerLength s ≠ 0) :
    next? [.initializer] s = some (.token .initializer, initializerLength s) := by
  rw [next?, hs, if_pos (by simp), tried_of_ne_zero _ hne]
  rfl

lemma initializerLength_slash : initializerLength ('/' :: s) ≠ 0 := by
  have hblank : ¬Text.isBlank '/' = true := by decide
  have hpiece : valuePieceLength ('/' :: s) = 1 := by simp [valuePieceLength]
  rw [initializerLength, if_neg hblank, valueLength, hpiece]
  simp

/-- Where an initializer is offered, nothing else is but blanks and documentation comments. -/
lemma next?_value_cases (h : next? [.initializer] s = some (kind, n)) :
    (kind = .docComment ∧ n = docCommentLength s)
      ∨ (kind = .token .initializer ∧ docCommentLength s = 0 ∧ n = initializerLength s)
      ∨ (kind = .space ∧ ∃ c t, s = c :: t ∧ isSpace c = true) := by
  obtain ⟨hpos, hle⟩ := next?_le h
  by_cases hdoc : docCommentLength s = 0
  · by_cases hinit : initializerLength s = 0
    · cases s with
      | nil => exact absurd hle (not_le.2 hpos)
      | cons c t =>
        have hslash : c ≠ '/' := by
          rintro rfl
          exact initializerLength_slash hinit
        by_cases hspace : isSpace c = true
        · rw [next?_space hspace] at h
          cases h
          exact Or.inr (Or.inr ⟨rfl, c, t, rfl, hspace⟩)
        · have hliteral : literal? [.initializer] (c :: t) = none := rfl
          rw [next?, hdoc, hinit, blockCommentLength_cons hslash,
            spaceLength_cons (by simpa using hspace), lineCommentLength_cons hslash, hliteral] at h
          simp [tried] at h
    · rw [next?_value hdoc hinit] at h
      cases h
      exact Or.inr (Or.inl ⟨rfl, hdoc, rfl⟩)
  · rw [next?, tried_of_ne_zero _ hdoc] at h
    cases h
    exact Or.inl ⟨rfl, rfl⟩

lemma docCommentLength_cut (hne : docCommentLength (s ++ r) ≠ 0)
    (h : docCommentLength (s ++ r) ≤ s.length) (q : List Char) :
    docCommentLength (s ++ q) = docCommentLength (s ++ r) := by
  obtain ⟨t, k, ht, hhead, hk, hlength⟩ := docCommentLength_ne_zero hne
  obtain ⟨u, rfl⟩ : ['/', '*', '*'] <+: s := by
    refine List.prefix_of_prefix_length_le ⟨t, ht.symm⟩ (List.prefix_append s r) ?_
    simp only [List.length_cons, List.length_nil]
    omega
  obtain rfl : t = u ++ r := by simpa using ht.symm
  have hle : k ≤ u.length := by
    simp only [hlength, List.length_append, List.length_cons, List.length_nil] at h
    omega
  have hfirst : (u ++ q).head? = (u ++ r).head? := by
    obtain ⟨v, w, -, -, rfl⟩ := commentRest?_eq_some hk
    obtain ⟨c, u, rfl⟩ := List.exists_cons_of_length_pos (l := u) (by omega)
    rfl
  rw [hlength]
  exact docCommentLength_of_closed (hfirst ▸ hhead) (commentRest?_cut hk hle q)

lemma blockCommentLength_cut (hne : blockCommentLength (s ++ r) ≠ 0)
    (h : blockCommentLength (s ++ r) ≤ s.length) (q : List Char) :
    blockCommentLength (s ++ q) = blockCommentLength (s ++ r) := by
  obtain ⟨t, k, ht, hk, hlength⟩ := blockCommentLength_ne_zero hne
  obtain ⟨u, rfl⟩ : ['/', '*'] <+: s := by
    refine List.prefix_of_prefix_length_le ⟨t, ht.symm⟩ (List.prefix_append s r) ?_
    simp only [List.length_cons, List.length_nil]
    omega
  obtain rfl : t = u ++ r := by simpa using ht.symm
  have hle : k ≤ u.length := by
    simp only [hlength, List.length_append, List.length_cons, List.length_nil] at h
    omega
  rw [hlength]
  simp [blockCommentLength, commentRest?_cut hk hle q]

/-- What is a block comment and no documentation comment is none whatever follows. -/
lemma docCommentLength_of_block (hdoc : docCommentLength (s ++ r) = 0)
    (hne : blockCommentLength (s ++ r) ≠ 0) (h : blockCommentLength (s ++ r) ≤ s.length)
    (q : List Char) : docCommentLength (s ++ q) = 0 := by
  by_contra hdoc'
  obtain ⟨t, k, ht, hk, hlength⟩ := blockCommentLength_ne_zero hne
  obtain ⟨t', k', ht', hhead, -, -⟩ := docCommentLength_ne_zero hdoc'
  obtain ⟨v, w, hvw, hclosed, rfl⟩ := commentRest?_eq_some hk
  rw [hlength] at h
  match s with
  | [] | [_] | [_, _] | [_, _, _] =>
    simp only [List.length_cons, List.length_nil] at h
    omega
  | a :: b :: c :: d :: s =>
    -- of the four characters the third is an asterisk, and the fourth is no slash
    simp only [List.cons_append, List.cons.injEq] at ht ht'
    obtain ⟨rfl, rfl, rfl⟩ := ht
    obtain ⟨-, -, rfl, rfl⟩ := ht'
    cases v with
    | nil =>
      obtain ⟨rfl, -⟩ := List.cons.inj (List.cons.inj hvw).2
      exact hhead rfl
    | cons e v =>
      have hv : ¬['*', '/'] <:+: v :=
        fun hpart => hclosed (hpart.trans (List.suffix_cons e v).isInfix)
      have hrest : commentRest? (d :: (s ++ r)) = some (v.length + 2) := by
        rw [(List.cons.inj hvw).2]
        exact commentRest?_closed hv w
      have hlength := docCommentLength_of_closed (by simpa using hhead) hrest
      simp only [List.cons_append] at hdoc
      omega

lemma lineCommentLength_ne_zero (h : lineCommentLength s ≠ 0) : ∃ t, s = '/' :: '/' :: t := by
  unfold lineCommentLength at h
  split at h
  · next t => exact ⟨t, rfl⟩
  · exact absurd rfl h

lemma lineCommentLength_cut (hne : lineCommentLength (s ++ r) ≠ 0)
    (h : lineCommentLength (s ++ r) < s.length) (q : List Char) :
    lineCommentLength (s ++ q) = lineCommentLength (s ++ r)
      ∧ docCommentLength (s ++ q) = 0 ∧ blockCommentLength (s ++ q) = 0 := by
  obtain ⟨t, ht⟩ := lineCommentLength_ne_zero hne
  match s with
  | [] => simp at h
  | [_] =>
    rw [ht] at h
    simp only [lineCommentLength, List.length_singleton] at h
    omega
  | a :: b :: s =>
    simp only [List.cons_append, List.cons.injEq] at ht
    obtain ⟨rfl, rfl, rfl⟩ := ht
    simp only [List.cons_append, lineCommentLength, List.length_cons] at h ⊢
    have hlt : ((s ++ r).takeWhile (· ≠ '\n')).length < s.length := by omega
    refine ⟨?_, by simp [docCommentLength], by simp [blockCommentLength]⟩
    rw [takeWhile_of_lt hlt, takeWhile_of_le hlt.le]

lemma spaceLength_cut (h : spaceLength (s ++ r) < s.length) (q : List Char) :
    spaceLength (s ++ q) = spaceLength (s ++ r) := by
  rw [spaceLength, spaceLength, takeWhile_of_lt h, takeWhile_of_le h.le]

lemma nameLength_cut (h : nameLength (s ++ r) ≤ s.length) (hq : ∀ c ∈ q.head?, c = '/') :
    nameLength (s ++ q) = nameLength (s ++ r) := by
  have hsevers : Severs q := by
    intro c hc
    rw [hq c hc]
    decide
  rw [nameLength_severed s hsevers, nameLength_of_le h]

/-- An initializer that a semicolon follows is the same whatever follows that. -/
lemma initializerLength_cut (hvalue : (s.drop (initializerLength (s ++ r))).head? = some ';')
    (q : List Char) : initializerLength (s ++ q) = initializerLength (s ++ r) := by
  cases s with
  | nil => simp at hvalue
  | cons c t =>
    rw [List.cons_append, initializerLength] at hvalue ⊢
    rw [List.cons_append, initializerLength]
    split
    · rfl
    · next hc =>
      rw [if_neg hc, ← List.cons_append] at hvalue
      rw [← List.cons_append, ← List.cons_append]
      generalize c :: t = s at hvalue ⊢
      set n := valueLength (s ++ r) with hn
      obtain ⟨u, hu⟩ : ∃ u, s.drop n = ';' :: u := by
        cases hs : s.drop n with
        | nil => simp [hs] at hvalue
        | cons d u =>
          rw [hs] at hvalue
          exact ⟨u, by rw [Option.some_inj.1 hvalue]⟩
      have hle : n ≤ s.length := by
        by_contra hgt
        rw [List.drop_eq_nil_of_le (by omega)] at hu
        cases hu
      have hlength : (s.take n).length = n := List.length_take_of_le hle
      have hsplit (q : List Char) : s ++ q = s.take n ++ ';' :: (u ++ q) := by
        rw [← List.cons_append, ← hu, ← List.append_assoc, List.take_append_drop]
      have hwhole : valueLength (s.take n) = (s.take n).length :=
        valueLength_of_eq (by rw [← hsplit, ← hn, hlength])
      have hstop : valueLength (';' :: (u ++ q)) = 0 := by
        rw [valueLength]
        simp [valuePieceLength]
      rw [hsplit, valueLength_append hwhole, hstop, hlength, Nat.add_zero]

/-- What starts with a slash and is no initializer is a comment. -/
lemma next?_cut_slash (hi : .initializer ∉ offered)
    (h : next? offered ('/' :: s ++ r) = some (kind, n)) (hn : n ≤ ('/' :: s).length)
    (hspace : kind = .space → n < ('/' :: s).length) (q : List Char) :
    next? offered ('/' :: s ++ q) = some (kind, n) := by
  rw [List.cons_append, next?_slash hi, ← List.cons_append] at h ⊢
  by_cases hdoc : docCommentLength ('/' :: s ++ r) = 0
  · by_cases hblock : blockCommentLength ('/' :: s ++ r) = 0
    · rw [hdoc, hblock] at h
      change tried .space (lineCommentLength ('/' :: s ++ r)) = some (kind, n) at h
      obtain ⟨rfl, rfl, hne⟩ := tried_eq_some h
      obtain ⟨hline, hdoc', hblock'⟩ := lineCommentLength_cut hne (hspace rfl) q
      rw [hdoc', hblock', hline]
      exact h
    · rw [hdoc, tried_of_ne_zero _ hblock] at h
      cases h
      rw [docCommentLength_of_block hdoc hblock hn, blockCommentLength_cut hblock hn,
        tried_of_ne_zero _ hblock]
      rfl
  · rw [tried_of_ne_zero _ hdoc] at h
    cases h
    rw [docCommentLength_cut hdoc hn, tried_of_ne_zero _ hdoc]
    rfl

lemma next?_cut_space (hc : isSpace c = true)
    (h : next? offered (c :: s ++ r) = some (kind, n))
    (hspace : kind = .space → n < (c :: s).length) (q : List Char) :
    next? offered (c :: s ++ q) = some (kind, n) := by
  rw [List.cons_append, next?_space hc] at h ⊢
  cases h
  rw [← List.cons_append, ← List.cons_append, spaceLength_cut (hspace rfl)]

/-- Where initializers are offered, lexemes are the same if an initializer stays one and has its
semicolon behind it. -/
lemma next?_cut_value (h : next? [.initializer] (s ++ r) = some (kind, n)) (hn : n ≤ s.length)
    (hspace : kind = .space → n < s.length)
    (hvalue : kind = .token .initializer →
      docCommentLength (s ++ q) = 0 ∧ (s.drop n).head? = some ';') :
    next? [.initializer] (s ++ q) = some (kind, n) := by
  rcases next?_value_cases h with ⟨rfl, rfl⟩ | ⟨rfl, hdoc, rfl⟩ | ⟨rfl, c, t, ht, hc⟩
  · have hne := (next?_le h).1.ne'
    rw [next?, docCommentLength_cut hne hn q, tried_of_ne_zero _ hne]
    rfl
  · obtain ⟨hdoc', hsemicolon⟩ := hvalue rfl
    have hne := (next?_le h).1.ne'
    rw [← initializerLength_cut hsemicolon q] at hne ⊢
    exact next?_value hdoc' hne
  · cases s with
    | nil => exact absurd hn (not_le.2 (next?_le h).1)
    | cons d s =>
      obtain ⟨rfl, -⟩ := List.cons.inj ht
      exact next?_cut_space hc h hspace q

/-- A lexeme stays the same if a slash follows what was looked at: behind blanks and line comments
that is a character more, and behind an initializer the semicolon. -/
lemma next?_cut (hi : .initializer ∈ offered → offered = [.initializer])
    (h : next? offered (s ++ r) = some (kind, n)) (hn : n ≤ s.length)
    (hq : ∀ c ∈ q.head?, c = '/') (hspace : kind = .space → n < s.length)
    (hvalue : kind = .token .initializer →
      docCommentLength (s ++ q) = 0 ∧ (s.drop n).head? = some ';') :
    next? offered (s ++ q) = some (kind, n) := by
  by_cases hmem : .initializer ∈ offered
  · obtain rfl := hi hmem
    exact next?_cut_value h hn hspace hvalue
  · obtain ⟨c, t, rfl⟩ : ∃ c t, s = c :: t :=
      List.exists_cons_of_length_pos ((next?_le h).1.trans_le hn)
    by_cases hslash : c = '/'
    · subst hslash
      exact next?_cut_slash hmem h hn hspace q
    · by_cases hc : isSpace c = true
      · exact next?_cut_space hc h hspace q
      · by_cases hbracket : c = '['
        · subst hbracket
          rw [List.cons_append, next?_bracket hmem] at h ⊢
          split at h
          · next harray =>
            obtain ⟨rfl, rfl, hne⟩ := tried_eq_some h
            rw [← List.cons_append] at hne hn ⊢
            rw [if_pos harray, arrayLength_cut hne hn]
            exact h
          · cases h
        · by_cases hname : .name ∈ offered ∧ isNameStart c = true
          · rw [List.cons_append, next?_start hmem hname.1 hname.2] at h ⊢
            obtain ⟨rfl, rfl, hne⟩ := tried_eq_some h
            rw [← List.cons_append] at hne hn ⊢
            have htake : (c :: t ++ q).take (nameLength (c :: t ++ r))
                = (c :: t ++ r).take (nameLength (c :: t ++ r)) := by
              rw [List.take_append_of_le_length hn, List.take_append_of_le_length hn]
            rw [name?, nameLength_cut hn hq, htake]
            exact tried_of_ne_zero _ hne
          · have hstart : .name ∈ offered → isNameStart c = false :=
              fun h => by simpa using fun hc => hname ⟨h, hc⟩
            rw [List.cons_append, next?_literal hslash hbracket (by simpa using hc) hmem hstart]
              at h ⊢
            rw [← List.cons_append] at h ⊢
            obtain ⟨⟨u, m⟩, hfound, heq⟩ := Option.map_eq_some_iff.1 h
            cases heq
            exact Option.map_eq_some_iff.2 ⟨(u, n), longestLiteral?_cut hfound hn hq, rfl⟩

end Next

end Lexeme

end DeclGraph
