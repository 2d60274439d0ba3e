import DeclGraph.Proofs.Syntax.Locality
import DeclGraph.Proofs.Syntax.Relocation

/-!
Comments between tokens. A comment that is put behind a token and what it is followed by takes
nothing away from the tokens: those before it are read as before, and those behind it as before but
at other places. Only an initializer, which runs up to its semicolon, takes a comment in.
-/

namespace DeclGraph

open Lexeme

/-- Comments that are no documentation: line comments with their line end and block comments. -/
inductive IsComment : List Char → Prop
  | line {t : List Char} (h : '\n' ∉ t) : IsComment ('/' :: '/' :: (t ++ ['\n']))
  | block {t : List Char} (h : ¬['*', '/'] <:+: t) (hdoc : t.head? ≠ some '*') :
      IsComment ('/' :: '*' :: (t ++ ['*', '/']))

/-- Blanks and whole comments, which may stand between two tokens. -/
inductive IsGap : List Char → Prop
  | nil : IsGap []
  | blank {c : Char} {s : List Char} (hc : isSpace c = true) (h : IsGap s) : IsGap (c :: s)
  | comment {c s : List Char} (hc : IsComment c) (h : IsGap s) : IsGap (c ++ s)
  | documentation {t s : List Char} (ht : ¬['*', '/'] <:+: t) (hdoc : t.head? ≠ some '/')
      (h : IsGap s) : IsGap ('/' :: '*' :: '*' :: (t ++ ['*', '/']) ++ s)

namespace Course

variable {s t u : Course} {rest text : List Char} {ts us : List Token}

/-- The course at another place. -/
def moveTo (s : Course) (p : Place) : Course := { s with place := p }

lemma run_dropWhile (s : Course) (text : List Char) :
    s.run text = (s.moveTo (s.place.advance (text.takeWhile isSpace))).run
      (text.dropWhile isSpace) := by
  cases text with
  | nil => rfl
  | cons c rest =>
    by_cases hc : isSpace c = true
    · have hnext : next? s.reader.position.offers (c :: rest)
          = some (.space, ((c :: rest).takeWhile isSpace).length) := next?_space hc
      have hne : (c :: rest).takeWhile isSpace ≠ [] := by simp [hc]
      have htext := List.takeWhile_append_dropWhile (p := isSpace) (l := c :: rest)
      generalize (c :: rest).takeWhile isSpace = blanks at hnext hne htext ⊢
      generalize (c :: rest).dropWhile isSpace = text at htext ⊢
      rw [← htext] at hnext ⊢
      exact run_lexeme hne hnext rfl
    · rw [List.takeWhile_cons_of_neg hc, List.dropWhile_cons_of_neg hc]
      rfl

/-- Blanks are taken off one by one as well as all at once. -/
lemma run_blank {c : Char} (hc : isSpace c = true) (rest : List Char) :
    s.run (c :: rest) = (s.moveTo (s.place.advance [c])).run rest := by
  have hall := run_dropWhile s (c :: rest)
  rw [List.takeWhile_cons_of_pos hc, List.dropWhile_cons_of_pos hc] at hall
  exact hall.trans (run_dropWhile (s.moveTo (s.place.advance [c])) rest).symm

lemma next?_lineComment {offered : List Terminal} (hi : .initializer ∉ offered) {t : List Char}
    (ht : '\n' ∉ t) (rest : List Char) :
    next? offered (('/' :: '/' :: t) ++ '\n' :: rest) = some (.space, t.length + 2) := by
  have htake : (t ++ '\n' :: rest).takeWhile (· ≠ '\n') = t := by
    rw [List.takeWhile_append_of_pos]
    · simp
    · rintro c hc
      rw [decide_eq_true_eq]
      rintro rfl
      exact ht hc
  have hlength : lineCommentLength ('/' :: '/' :: (t ++ '\n' :: rest)) = t.length + 2 := by
    rw [lineCommentLength, htake, Nat.add_comm]
  rw [List.cons_append, next?_slash hi, List.cons_append, hlength]
  rfl

lemma next?_blockComment {offered : List Terminal} (hi : .initializer ∉ offered) {t : List Char}
    (ht : ¬['*', '/'] <:+: t) (hdoc : t.head? ≠ some '*') (rest : List Char) :
    next? offered ('/' :: '*' :: (t ++ '*' :: '/' :: rest)) = some (.space, t.length + 4) := by
  have hnone : docCommentLength ('/' :: '*' :: (t ++ '*' :: '/' :: rest)) = 0 := by
    cases t with
    | nil => rfl
    | cons c t =>
      have hc : c ≠ '*' := fun h => hdoc (by rw [h]; rfl)
      simp [docCommentLength, hc]
  have hlength : blockCommentLength ('/' :: '*' :: (t ++ '*' :: '/' :: rest)) = t.length + 4 := by
    rw [blockCommentLength, commentRest?_closed ht]
    rfl
  rw [next?_slash hi, hnone, hlength]
  rfl

lemma next?_documentation {offered : List Terminal} {t : List Char} (ht : ¬['*', '/'] <:+: t)
    (hdoc : t.head? ≠ some '/') (rest : List Char) :
    next? offered ('/' :: '*' :: '*' :: (t ++ '*' :: '/' :: rest))
      = some (.docComment, t.length + 5) := by
  have hhead : (t ++ '*' :: '/' :: rest).head? ≠ some '/' := by
    cases t with
    | nil => simp
    | cons c t => exact hdoc
  rw [next?, docCommentLength_of_closed hhead (commentRest?_closed ht rest)]
  rfl

/-- A comment only moves the place. -/
lemma run_comment {comment : List Char} (hcomment : IsComment comment)
    (hs : .initializer ∉ s.reader.position.offers) (rest : List Char) :
    s.run (comment ++ rest) = (s.moveTo (s.place.advance comment)).run rest := by
  cases hcomment with
  | @line t ht =>
    have hrun : s.run (('/' :: '/' :: t) ++ '\n' :: rest)
        = (s.moveTo (s.place.advance ('/' :: '/' :: t))).run ('\n' :: rest) :=
      run_lexeme (List.cons_ne_nil _ _) (next?_lineComment hs ht rest) rfl
    have htext : '/' :: '/' :: (t ++ ['\n']) = ('/' :: '/' :: t) ++ ['\n'] := by simp
    rw [htext, Place.advance_append, List.append_assoc]
    exact hrun.trans (run_blank (by decide) rest)
  | @block t ht hdoc =>
    have hnext : next? s.reader.position.offers ('/' :: '*' :: (t ++ ['*', '/']) ++ rest)
        = some (.space, ('/' :: '*' :: (t ++ ['*', '/'])).length) := by
      simpa using next?_blockComment hs ht hdoc rest
    exact run_lexeme (List.cons_ne_nil _ _) hnext rfl

/-- What stands between two tokens moves the place and may add documentation. -/
lemma run_gap {gap : List Char} (hgap : IsGap gap) (hs : .initializer ∉ s.reader.position.offers)
    (hnoted : s.Noted) : ∃ t : Course, t.reader = s.reader ∧ t.place = s.place.advance gap
      ∧ t.Noted ∧ ∀ rest, s.run (gap ++ rest) = t.run rest := by
  have hmove {s : Course} (h : s.Noted) (text : List Char) :
      (s.moveTo (s.place.advance text)).Noted := by
    refine h.of_docs rfl ?_
    change _ ≤ (s.place.advance text).offset
    rw [Place.offset_advance]
    exact Nat.le_add_right _ _
  induction hgap generalizing s with
  | nil => exact ⟨s, rfl, rfl, hnoted, fun rest => rfl⟩
  | @blank c gap hc _ ih =>
    obtain ⟨t, hreader, hplace, ht, hrun⟩ := ih (s := s.moveTo (s.place.advance [c])) hs
      (hmove hnoted [c])
    exact ⟨t, hreader, hplace, ht, fun rest => (run_blank hc (gap ++ rest)).trans (hrun rest)⟩
  | @comment c gap hc _ ih =>
    obtain ⟨t, hreader, hplace, ht, hrun⟩ := ih (s := s.moveTo (s.place.advance c)) hs
      (hmove hnoted c)
    refine ⟨t, hreader, by rw [hplace, Place.advance_append]; rfl, ht, fun rest => ?_⟩
    rw [List.append_assoc, run_comment hc hs, hrun]
  | @documentation t gap ht hdoc _ ih =>
    have hnext (rest : List Char) :
        next? s.reader.position.offers ('/' :: '*' :: '*' :: (t ++ ['*', '/']) ++ rest)
          = some (.docComment, ('/' :: '*' :: '*' :: (t ++ ['*', '/'])).length) := by
      simpa using next?_documentation ht hdoc rest
    generalize '/' :: '*' :: '*' :: (t ++ ['*', '/']) = comment at hnext ⊢
    have hne : comment ≠ [] := by
      rintro rfl
      exact absurd (next?_le (hnext [])).1 (lt_irrefl _)
    let s' : Course := { s with
      place := s.place.advance comment
      docs := ⟨String.ofList comment, s.place.offset, (s.place.advance comment).offset⟩ :: s.docs }
    have htake : s.take .docComment comment = .ok s' := rfl
    obtain ⟨v, hreader, hplace, hv, hrun⟩ := ih (s := s') hs (hnoted.take hne htake)
    refine ⟨v, hreader, by rw [hplace, Place.advance_append], hv, fun rest => ?_⟩
    rw [List.append_assoc, run_lexeme hne (hnext _) htake, hrun]

/-- A text can be parted behind any of its tokens. -/
lemma Scans.split {a : Token} (h : Scans rest s text (ts ++ a :: us) u) :
    ∃ before after v, text = before ++ after ∧ Scans (after ++ rest) s before (ts ++ [a]) v
      ∧ Scans rest v after us u ∧ a.stop = v.place.offset := by
  generalize hall : ts ++ a :: us = all at h
  induction h generalizing ts with
  | nil => simp at hall
  | @cons s t u kind lexeme text all hne hnext htake hrest ih =>
    -- the lexeme belongs to the first part, and is all of it if it is the token itself
    have hfirst {ts : List Token} (hts : ts ++ a :: us = all) :
        ∃ before after v, lexeme ++ text = before ++ after
          ∧ Scans (after ++ rest) s before (s.tokens kind lexeme ++ (ts ++ [a])) v
          ∧ Scans rest v after us u ∧ a.stop = v.place.offset := by
      obtain ⟨before, after, v, rfl, hbefore, hafter, hstop⟩ := ih hts
      rw [List.append_assoc] at hnext
      exact ⟨lexeme ++ before, after, v, by simp, .cons hne hnext htake hbefore, hafter, hstop⟩
    cases kind with
    | token terminal =>
      cases ts with
      | nil =>
        obtain ⟨rfl, rfl⟩ := List.cons.inj hall
        have hlexeme : Scans (text ++ rest) s (lexeme ++ [])
            (s.tokens (.token terminal) lexeme ++ []) t := .cons hne hnext htake (.nil t)
        refine ⟨lexeme ++ [], text, t, by simp, hlexeme, hrest, ?_⟩
        rw [take_place htake]
      | cons b ts =>
        obtain ⟨rfl, hts⟩ := List.cons.inj hall
        exact hfirst hts
    | space => exact hfirst hall
    | docComment => exact hfirst hall

lemma position_of_initializer {p : Position} (h : .initializer ∈ p.offers) :
    ∃ d type, p = .equalSign d type := by
  unfold Position.offers at h
  split at h <;> first | exact ⟨_, _, rfl⟩ | exact absurd h (by decide)

/-- After an initializer there is a semicolon, without anything between the two. -/
lemma semicolon_of_initializer {lexeme : List Char} {kind : Kind} {n : Nat}
    (hnext : next? s.reader.position.offers (lexeme ++ text)
      = some (.token .initializer, lexeme.length))
    (htake : s.take (.token .initializer) lexeme = .ok t)
    (hthen : next? t.reader.position.offers text = some (kind, n)) : text.head? = some ';' := by
  obtain ⟨hmem, hlength⟩ := initializer_of_next? hnext
  obtain ⟨d, type, hposition⟩ := position_of_initializer hmem
  have hoffers : t.reader.position.offers = [.mark .semicolon] := by
    simp only [take, Reader.step, hposition] at htake
    cases htake
    rfl
  cases text with
  | nil => exact absurd (next?_le hthen) (by simp; omega)
  | cons c text =>
    have hne : initializerLength (lexeme ++ c :: text) ≠ 0 := hlength ▸ (next?_le hnext).1.ne'
    rcases initializerLength_stop hne (by rw [← hlength, List.drop_left]) with rfl | hquote
    · rfl
    · rw [hoffers] at hthen
      have hc : c ≠ '/' ∧ c ≠ '[' ∧ isSpace c = false := by
        rcases hquote with rfl | rfl <;> decide
      rw [next?_literal hc.1 hc.2.1 hc.2.2 (by simp) (by simp)] at hthen
      obtain ⟨-, -, -, -, hdouble, hsingle⟩ := literal?_start hthen
      exact absurd hquote (not_or.2 ⟨hdouble, hsingle⟩)

lemma Scans.tokens_nil (h : Scans rest s [] ts u) : ts = [] := by
  generalize hnil : [] = text at h
  cases h with
  | nil => rfl
  | cons hne _ _ _ => exact absurd (List.append_eq_nil_iff.1 hnil.symm).1 hne

/-- Lexemes up to the last token before a gap stay the same if a slash follows the gap, unless a
documentation comment then starts where an initializer does. -/
lemma Scans.cut {gap q : List Char} (h : Scans (gap ++ rest) s text ts u)
    (hq : ∀ c ∈ q.head?, c = '/') (hempty : ts = [] → text = [])
    (hlast : ∀ a ∈ ts.getLast?, a.stop = u.place.offset ∧ a.terminal ≠ .initializer)
    (hopen : ∀ a ∈ ts, a.terminal = .initializer →
      docCommentLength ((text ++ (gap ++ q)).drop (a.start.offset - s.place.offset)) = 0) :
    Scans (gap ++ q) s text ts u := by
  induction h with
  | nil => exact .nil _
  | @cons s t u kind lexeme text ts hne hnext htake hrest ih =>
    have hplace : t.place.offset = s.place.offset + lexeme.length := by
      rw [take_place htake, Place.offset_advance]
    have hend : u.place.offset = t.place.offset + text.length := by
      rw [hrest.place, Place.offset_advance]
    have hlast' : ∀ a ∈ ts.getLast?, a.stop = u.place.offset ∧ a.terminal ≠ .initializer :=
      fun a ha => hlast a (by rw [List.getLast?_append, Option.mem_def.1 ha]; rfl)
    -- what follows the last token would be another lexeme behind it
    have hempty' (hts : ts = []) : text = [] := by
      subst hts
      cases kind with
      | token terminal =>
        have hstop : (s.place.advance lexeme).offset = u.place.offset := (hlast _ rfl).1
        rw [← take_place htake, hend] at hstop
        exact List.eq_nil_of_length_eq_zero (by omega)
      | space => exact absurd (List.append_eq_nil_iff.1 (hempty rfl)).1 hne
      | docComment => exact absurd (List.append_eq_nil_iff.1 (hempty rfl)).1 hne
    have hcut : next? s.reader.position.offers ((lexeme ++ (text ++ gap)) ++ q)
        = some (kind, lexeme.length) := by
      refine next?_cut (Reader.offers_initializer _) (r := rest) (by simpa using hnext) (by simp)
        hq ?_ ?_
      · rintro rfl
        have hsome : text ≠ [] := by
          rintro rfl
          exact hne (List.append_eq_nil_iff.1 (hempty hrest.tokens_nil)).1
        have := List.length_pos_iff.2 hsome
        simp only [List.length_append]
        omega
      · rintro rfl
        refine ⟨?_, ?_⟩
        · have hdoc := hopen _ List.mem_cons_self rfl
          simpa using hdoc
        · rw [List.drop_left]
          cases hrest with
          | nil => exact absurd rfl (hlast _ rfl).2
          | cons hne' hnext' _ _ =>
            have hhead := semicolon_of_initializer hnext htake (by simpa using hnext')
            rw [List.append_assoc, List.head?_append_of_ne_nil _ hne'] at hhead ⊢
            exact hhead
    refine .cons hne (by simpa using hcut) htake (ih hempty' hlast' fun a ha hinit => ?_)
    have hle := (hrest.standsIn a ha).le_start
    have hdoc := hopen a (List.mem_append_right _ ha) hinit
    have hoffset : a.start.offset - s.place.offset
        = lexeme.length + (a.start.offset - t.place.offset) := by omega
    rw [hoffset, List.append_assoc, ← List.drop_drop, List.drop_left] at hdoc
    exact hdoc

/-- The next token is one that the reader is offered. -/
lemma Scans.next?_head {a : Token} (h : Scans rest s text (a :: ts) u) :
    ∃ tail n, next? s.reader.position.offers tail = some (.token a.terminal, n) := by
  generalize hall : a :: ts = all at h
  induction h with
  | nil => cases hall
  | @cons s t u kind lexeme text all hne hnext htake hrest ih =>
    cases kind with
    | token terminal =>
      obtain ⟨rfl, -⟩ := List.cons.inj hall
      exact ⟨_, _, hnext⟩
    | space =>
      cases htake
      exact ih hall
    | docComment =>
      cases htake
      exact ih hall

/-- Where the next token of a complete unit is no initializer, initializers are not offered. -/
lemma Scans.initializer_not_mem {v : CompilationUnit} (h : Scans rest s text ts u)
    (hfinish : u.reader.finish = some v) (hts : ∀ a ∈ ts.head?, a.terminal ≠ .initializer) :
    .initializer ∉ s.reader.position.offers := by
  intro hmem
  cases ts with
  | nil =>
    obtain ⟨d, type, hposition⟩ := position_of_initializer hmem
    have hreader : s.reader = u.reader := Option.some_inj.1 h.reader
    rw [← hreader, Reader.finish, hposition] at hfinish
    split at hfinish <;> cases hfinish
  | cons a ts =>
    obtain ⟨tail, n, hnext⟩ := h.next?_head
    rw [Reader.offers_initializer _ hmem] at hnext
    rcases next?_value_cases hnext with ⟨hkind, -⟩ | ⟨hkind, -⟩ | ⟨hkind, -⟩
    · cases hkind
    · exact hts a rfl (Kind.token.inj hkind)
    · cases hkind

end Course

/-!
### Places behind an insertion
-/

/-- Where things stand when a text is put between two others. -/
def Relocation.insertion (before inserted after : List Char) : Relocation where
  start k := if k < before.length then k else k + inserted.length
  stop k := if k ≤ before.length then k else k + inserted.length
  place p := if p.offset < before.length then p else
    { Place.advance {} ((before ++ (inserted ++ after)).take (p.offset + inserted.length)) with
      offset := p.offset + inserted.length }
  offset_place p := by split <;> rfl
  start_le_start a b := by split <;> split <;> omega
  stop_le_start a b := by split <;> split <;> omega

/-- A course of which the reader, the place and the documentation stand elsewhere. -/
structure Relocation.Moves (m : Relocation) (s s' : Course) : Prop where
  reader : s'.reader = m.reader s.reader
  place : s'.place = m.place s.place
  docs : s'.docs = s.docs.map m.comment

namespace Relocation

variable {before inserted after x y lexeme text : List Char} {s s' t e : Course} {kind : Kind}
  {ts : List Token}

lemma place_insertion (h : after = x ++ y) :
    (insertion before inserted after).place (Place.advance {} (before ++ x))
      = Place.advance {} (before ++ (inserted ++ x)) := by
  have hoffset : (Place.advance {} (before ++ x)).offset = before.length + x.length := by
    rw [Place.offset_advance, List.length_append]
    exact Nat.zero_add _
  have hlength : (Place.advance {} (before ++ (inserted ++ x))).offset
      = before.length + x.length + inserted.length := by
    rw [Place.offset_advance, List.length_append, List.length_append]
    change 0 + _ = _
    omega
  have htake : (before ++ (inserted ++ after)).take (before.length + x.length + inserted.length)
      = before ++ (inserted ++ x) := by
    have hparts : before ++ (inserted ++ after) = (before ++ (inserted ++ x)) ++ y := by
      rw [h, List.append_assoc, List.append_assoc]
    rw [hparts, List.take_left']
    simp only [List.length_append]
    omega
  simp only [insertion, hoffset, htake]
  rw [if_neg (by omega), ← hlength]

/-- A token is taken from both courses. -/
lemma Moves.take (h : (insertion before inserted after).Moves s s')
    (hafter : after = x ++ (lexeme ++ y)) (hplace : s.place = Place.advance {} (before ++ x))
    (hne : lexeme ≠ []) (htake : s.take kind lexeme = .ok t) :
    ∃ t', s'.take kind lexeme = .ok t' ∧ (insertion before inserted after).Moves t t' := by
  obtain ⟨hreader, hs', hdocs⟩ := h
  have hnext : (insertion before inserted after).place (s.place.advance lexeme)
      = s'.place.advance lexeme := by
    rw [hs', hplace, place_insertion hafter, ← Place.advance_append, ← Place.advance_append,
      List.append_assoc, List.append_assoc, List.append_assoc,
      place_insertion (y := y) (by rw [hafter, List.append_assoc])]
  have hstart : (insertion before inserted after).start s.place.offset = s'.place.offset := by
    rw [hs', offset_place]
  have hstop : (insertion before inserted after).stop (s.place.advance lexeme).offset
      = (s'.place.advance lexeme).offset := by
    have hpos := List.length_pos_iff.2 hne
    rw [hs', hplace, place_insertion hafter]
    simp only [Place.offset_advance, List.length_append, insertion]
    rw [if_neg (by omega)]
    omega
  cases kind with
  | space =>
    cases htake
    exact ⟨_, rfl, hreader, hnext.symm, hdocs⟩
  | docComment =>
    cases htake
    refine ⟨_, rfl, hreader, hnext.symm, ?_⟩
    rw [List.map_cons, ← hdocs, comment, hstart, hstop]
  | token terminal =>
    simp only [Course.take] at htake ⊢
    split at htake
    · next r hstep =>
      cases htake
      have hstep' := reader_step (m := insertion before inserted after) hstep
      rw [← hreader, token, hstop, ← hs'] at hstep'
      rw [hstep']
      exact ⟨_, rfl, rfl, hnext.symm, hdocs⟩
    · cases htake

/-- What stands behind the insertion is read as before. -/
lemma Moves.run (h : (insertion before inserted after).Moves s s') (hafter : after = x ++ text)
    (hplace : s.place = Place.advance {} (before ++ x)) (hscan : Course.Scans [] s text ts e) :
    ∃ e', s'.run text = .ok e' ∧ (insertion before inserted after).Moves e e' := by
  induction hscan generalizing s' x with
  | nil => exact ⟨s', by rw [Course.run], h⟩
  | @cons s t e kind lexeme text ts hne hnext htake hrest ih =>
    obtain ⟨t', htake', ht'⟩ := h.take hafter hplace hne htake
    obtain ⟨e', hrun, he'⟩ := ih (x := x ++ lexeme) ht' (by rw [hafter, List.append_assoc])
      (by rw [Course.take_place htake, hplace, ← Place.advance_append, List.append_assoc])
    refine ⟨e', ?_, he'⟩
    rw [List.append_nil] at hnext
    rw [Course.run_lexeme hne ?_ htake', hrun]
    rw [h.reader]
    change next? ((insertion before inserted after).position s.reader.position).offers _ = _
    rwa [offers_position]

/-- Tokens before the insertion stay where they are. -/
lemma reader_before {r : Reader} (hfeed : ({} : Reader).feed ts = some r)
    (hts : ∀ t ∈ ts, t.start.offset < before.length ∧ t.stop ≤ before.length) :
    (insertion before inserted after).reader r = r := by
  have htokens : ts.map (insertion before inserted after).token = ts := by
    refine (List.map_congr_left fun t ht => ?_).trans (List.map_id ts)
    obtain ⟨hstart, hstop⟩ := hts t ht
    simp only [token, insertion, if_pos hstart, if_pos hstop]
    rfl
  have hmoved := reader_feed (m := insertion before inserted after) hfeed
  rw [htokens] at hmoved
  exact Option.some_inj.1 (hmoved.symm.trans hfeed)

/-- A comment moves a course that has just arrived where the comment is put. -/
lemma moves_insertion {tokens : List Token} (hplace : s.place = Place.advance {} before)
    (hnoted : s.Noted) (hfeed : ({} : Reader).feed tokens = some s.reader)
    (htokens : ∀ t ∈ tokens, t.start.offset < before.length ∧ t.stop ≤ before.length) :
    (insertion before inserted after).Moves s (s.moveTo (s.place.advance inserted)) := by
  refine ⟨(reader_before hfeed htokens).symm, ?_, ?_⟩
  · have hmoved : (insertion before inserted after).place (Place.advance {} (before ++ []))
        = Place.advance {} (before ++ (inserted ++ [])) := place_insertion (y := after) rfl
    rw [List.append_nil, List.append_nil, Place.advance_append, ← hplace] at hmoved
    exact hmoved.symm
  · refine ((List.map_congr_left fun d hd => ?_).trans (List.map_id s.docs)).symm
    obtain ⟨hlt, hle⟩ := hnoted.extent d hd
    rw [hplace, Place.offset_advance] at hle
    change d.stop ≤ 0 + _ at hle
    rw [Nat.zero_add] at hle
    simp only [comment, insertion, if_pos (hlt.trans_le hle), if_pos hle]
    rfl

/-- From where a comment is put, the rest of the text is read as before but for the places. -/
lemma run_insertion {tokens : List Token} (hplace : s.place = Place.advance {} before)
    (hnoted : s.Noted) (hfeed : ({} : Reader).feed tokens = some s.reader)
    (htokens : ∀ t ∈ tokens, t.start.offset < before.length ∧ t.stop ≤ before.length)
    (hcomment : IsComment inserted) (hs : .initializer ∉ s.reader.position.offers)
    (hrun : s.run after = .ok e) : ∃ e', s.run (inserted ++ after) = .ok e'
      ∧ (insertion before inserted after).Moves e e' := by
  obtain ⟨ts, hts⟩ := Course.scans_of_run hrun
  obtain ⟨e', hrun', hmoves⟩ := (moves_insertion hplace hnoted hfeed htokens).run (x := []) rfl
    (by rw [hplace, List.append_nil]) hts
  exact ⟨e', (Course.run_comment hcomment hs after).trans hrun', hmoves⟩

/-- Courses that end at other places make the same unit but for the extents in it. -/
lemma Moves.unplaced {m : Relocation} {u : CompilationUnit} (h : m.Moves s s')
    (hfinish : s.reader.finish = some u) (file : Option String) :
    ∃ v, s'.reader.finish = some v
      ∧ ({ v.attachDocs s'.docs.reverse with file } : CompilationUnit).unplaced
        = ({ u.attachDocs s.docs.reverse with file } : CompilationUnit).unplaced := by
  refine ⟨u.mapLoc m.loc, by rw [h.reader]; exact reader_finish hfinish, ?_⟩
  rw [h.docs, ← List.map_reverse, attachDocs_unit]
  exact congrArg (fun v : CompilationUnit => { v with file }) (CompilationUnit.unplaced_mapLoc _ _)

end Relocation

lemma IsComment.slash {comment : List Char} (h : IsComment comment) (rest : List Char) :
    ∀ c ∈ (comment ++ rest).head?, c = '/' := by
  cases h <;> rintro c ⟨⟩ <;> rfl

lemma parseSource_of_run {source : String} {file : Option String} {s : Course}
    {v : CompilationUnit} (hrun : Course.run {} source.toList = .ok s)
    (hfinish : s.reader.finish = some v) :
    parseSource source file = .ok { v.attachDocs s.docs.reverse with file } := by
  have hread : readUnit source = .ok (v.attachDocs s.docs.reverse) := by
    rw [readUnit, hrun]
    simp only [bind, Except.bind, hfinish]
    rfl
  rw [parseSource, hread]

/-- A comment behind a token and what may follow it does not change the unit but for the extents
in it, if neither this token nor the next one is an initializer. An initializer before the comment
may start like a documentation comment without an end; it must not become one by that. -/
theorem parseSource_comment {before gap comment rest : List Char} {file : Option String}
    {u : CompilationUnit} {ts us : List Token} {t : Token}
    (h : parseSource (String.ofList (before ++ (gap ++ rest))) file = .ok u)
    (hts : Course.readTokens {} (before ++ (gap ++ rest)) = ts ++ t :: us)
    (hstop : t.stop = before.length) (hgap : IsGap gap) (hcomment : IsComment comment)
    (ht : t.terminal ≠ .initializer) (hus : ∀ a ∈ us.head?, a.terminal ≠ .initializer)
    (hopen : ∀ a ∈ ts, a.terminal = .initializer →
      docCommentLength ((before ++ (gap ++ (comment ++ rest))).drop a.start.offset) = 0) :
    ∃ v, parseSource (String.ofList (before ++ (gap ++ (comment ++ rest)))) file = .ok v
      ∧ v.unplaced = u.unplaced := by
  obtain ⟨all, e, w, hscans, hfinish, rfl⟩ := scans_of_parseSource h
  rw [String.toList_ofList] at hscans
  obtain rfl : all = ts ++ t :: us := hscans.readTokens.symm.trans hts
  obtain ⟨first, last, s, htext, hfirst, hlast, hstop'⟩ := hscans.split
  have hplace : s.place = Place.advance {} first := hfirst.place
  have hlength : before.length = first.length := by
    rw [← hstop, hstop', hplace, Place.offset_advance]
    exact Nat.zero_add _
  obtain ⟨rfl, rfl⟩ := List.append_inj htext hlength
  rw [List.append_nil] at hfirst
  have hnot := hlast.initializer_not_mem hfinish hus
  have hnoted := hfirst.noted Course.noted_initial
  obtain ⟨s', hreader, hplace', hnoted', hgaprun⟩ := Course.run_gap hgap hnot hnoted
  -- up to the comment the text is read as before
  have hcut : Course.Scans (gap ++ (comment ++ rest)) {} before (ts ++ [t]) s := by
    refine hfirst.cut (hcomment.slash rest) (by simp) ?_ fun a ha hinit => ?_
    · intro a ha
      obtain rfl : t = a := by simpa using ha
      exact ⟨hstop', ht⟩
    · rcases List.mem_append.1 ha with ha | ha
      · exact hopen a ha hinit
      · rw [List.mem_singleton.1 ha] at hinit
        exact absurd hinit ht
  have harrived : s'.place = Place.advance {} (before ++ gap) := by
    rw [hplace', hplace, Place.advance_append]
  have htokens : ∀ a ∈ ts ++ [t], a.start.offset < (before ++ gap).length
      ∧ a.stop ≤ (before ++ gap).length := by
    intro a ha
    have hstands := hfirst.standsIn a ha
    have hle := hstands.stop_le
    have hlt := hstands.lt
    change a.stop ≤ 0 + _ at hle
    rw [List.length_append]
    omega
  have hrest : s'.run rest = .ok e := by
    rw [← hgaprun, ← List.append_nil (gap ++ rest), hlast.run, Course.run]
  obtain ⟨e', hrun, hmoves⟩ := Relocation.run_insertion harrived hnoted' (hreader ▸ hfirst.reader)
    htokens hcomment (by rwa [hreader]) hrest
  obtain ⟨v, hv, hunplaced⟩ := hmoves.unplaced hfinish file
  refine ⟨_, parseSource_of_run ?_ hv, hunplaced⟩
  rw [String.toList_ofList, hcut.run, hgaprun, hrun]

/-- The text up to the end of a field. -/
def fieldStart : List Char := "class A \x7b int n = 5;".toList

def fieldRest : List Char := "int m; \x7d".toList

def quotingComment : List Char := '/' :: '*' :: (" it\x27s; ".toList ++ ['*', '/'])

theorem parseSource_comment_behindField : ∃ u v,
    parseSource (String.ofList (fieldStart ++ ([' '] ++ fieldRest))) none = .ok u
      ∧ parseSource (String.ofList (fieldStart ++ ([' '] ++ (quotingComment ++ fieldRest)))) none
        = .ok v
      ∧ u.declarations.length = 3 ∧ v.unplaced = u.unplaced := by
  obtain ⟨u, hu, hlength⟩ := exists_ok_of_map
    (x := parseSource (String.ofList (fieldStart ++ ([' '] ++ fieldRest))) none)
    (f := fun u => u.declarations.length) (b := 3) (by decide +kernel)
  have hts : Course.readTokens {} (fieldStart ++ ([' '] ++ fieldRest))
      = (Course.readTokens {} (fieldStart ++ ([' '] ++ fieldRest))).take 7
        ++ ⟨.mark .semicolon, [';'], ⟨19, 1, 20⟩, 20⟩
        :: (Course.readTokens {} (fieldStart ++ ([' '] ++ fieldRest))).drop 8 := by
    decide +kernel
  have hcomment : IsComment quotingComment := .block (by decide +kernel) (by decide +kernel)
  obtain ⟨v, hv, hunplaced⟩ := parseSource_comment hu hts rfl (.blank rfl .nil) hcomment
    (by decide) (by decide +kernel) (by decide +kernel)
  exact ⟨u, v, hu, hv, hlength, hunplaced⟩

def CompilationUnit.initializers (u : CompilationUnit) : List (Option String) :=
  u.declarations.map fun
    | .attr a => a.initializer
    | _ => none

lemma unplaced_ne_of_initializers {source source' : String} {a b : List (Option String)}
    (h : ((parseSource source none).map (·.unplaced.initializers)).toOption = some a)
    (h' : ((parseSource source' none).map (·.unplaced.initializers)).toOption = some b)
    (hne : b ≠ a) : ∃ u v, parseSource source none = .ok u ∧ parseSource source' none = .ok v
      ∧ v.unplaced ≠ u.unplaced := by
  obtain ⟨u, hu, rfl⟩ := exists_ok_of_map h
  obtain ⟨v, hv, rfl⟩ := exists_ok_of_map h'
  exact ⟨u, v, hu, hv, fun heq => hne (congrArg CompilationUnit.initializers heq)⟩

/-- A comment before or behind an initializer is a part of it, and one that makes an earlier
initializer a documentation comment leaves none. -/
theorem initializer_takes_comment :
    (∃ u v, parseSource "class A \x7b int n = 5; \x7d" none = .ok u
      ∧ parseSource "class A \x7b int n = /*c*/5; \x7d" none = .ok v ∧ v.unplaced ≠ u.unplaced)
    ∧ (∃ u v, parseSource "class A \x7b int n = 5; \x7d" none = .ok u
      ∧ parseSource "class A \x7b int n = 5/*c*/; \x7d" none = .ok v ∧ v.unplaced ≠ u.unplaced)
    ∧ (parseSource "class A \x7b int n = /** 5; \x7d" none).isOk = true
    ∧ (parseSource "class A \x7b int n = /** 5;/*c*/ \x7d" none).isOk = false := by
  have hplain : ((parseSource "class A \x7b int n = 5; \x7d" none).map
      (·.unplaced.initializers)).toOption = some [none, some "5"] := by decide +kernel
  refine ⟨?_, ?_, by decide +kernel, by decide +kernel⟩
  · exact unplaced_ne_of_initializers (b := [none, some "/*c*/5"]) hplain (by decide +kernel)
      (by decide)
  · exact unplaced_ne_of_initializers (b := [none, some "5/*c*/"]) hplain (by decide +kernel)
      (by decide)

end DeclGraph
