import DeclGraph.Proofs.Syntax.Reading

/-!
What reading takes off a text: lexemes that make up the text, and among them the tokens, each with
the extent at which it stands there.
-/

namespace DeclGraph

namespace Lexeme

variable {offered : List Terminal} {s : List Char} {kind : Kind} {n : Nat}

section Lengths

lemma segmentsLength_le (s : List Char) : segmentsLength s ≤ s.length := by
  induction s using segmentsLength.induct with
  | case1 s sep ident h =>
    rw [segmentsLength, dif_pos h]
    exact Nat.zero_le _
  | case2 s sep ident h ih =>
    have h₁ := separatorLength_le s
    have h₂ := identifierLength_le (s.drop sep)
    rw [List.length_drop] at h₂ ih
    rw [segmentsLength, dif_neg h]
    change sep + ident + segmentsLength (s.drop (sep + ident)) ≤ s.length
    omega

lemma nameLength_le (s : List Char) : nameLength s ≤ s.length := by
  have h₁ := identifierLength_le s
  have h₂ := segmentsLength_le (s.drop (identifierLength s))
  rw [List.length_drop] at h₂
  simp only [nameLength]
  split <;> omega

lemma stringRest?_le {quote : Char} (h : stringRest? quote s = some n) : n ≤ s.length := by
  induction s using stringRest?.induct quote generalizing n with
  | case1 => simp [stringRest?] at h
  | case2 s => simp [stringRest?] at h
  | case3 c s hc ih =>
    simp only [stringRest?, if_neg hc, Option.map_eq_map, Option.map_eq_some_iff] at h
    obtain ⟨m, hm, rfl⟩ := h
    simpa using ih hm
  | case4 s hs =>
    simp only [stringRest?, if_pos, Option.some.injEq] at h
    simp [← h]
  | case5 s hs hc => simp [stringRest?, hc] at h
  | case6 c s hs hc hd ih =>
    simp only [stringRest?, if_neg hc, if_neg hd, Option.map_eq_map, Option.map_eq_some_iff] at h
    obtain ⟨m, hm, rfl⟩ := h
    simpa using ih hm

lemma valuePieceLength_le (s : List Char) : valuePieceLength s ≤ s.length := by
  cases s with
  | nil => exact le_rfl
  | cons c s =>
    rw [valuePieceLength]
    split
    · cases hs : stringRest? c s with
      | none => simp
      | some n => simpa using stringRest?_le hs
    · split <;> simp

lemma valueLength_le (s : List Char) : valueLength s ≤ s.length := by
  induction s using valueLength.induct with
  | case1 s n hn =>
    rw [valueLength, dif_pos hn]
    exact Nat.zero_le _
  | case2 s n hn ih =>
    have h := valuePieceLength_le s
    rw [List.length_drop] at ih
    rw [valueLength, dif_neg hn]
    change n + valueLength (s.drop n) ≤ s.length
    omega

lemma initializerLength_le (s : List Char) : initializerLength s ≤ s.length := by
  cases s with
  | nil => exact le_rfl
  | cons c s =>
    rw [initializerLength]
    split
    · exact Nat.zero_le _
    · exact valueLength_le _

lemma arrayLength_le (s : List Char) : arrayLength s ≤ s.length := by
  unfold arrayLength
  split
  · dsimp only
    split
    · simp only [List.length_cons]
      omega
    · exact Nat.zero_le _
  · exact Nat.zero_le _

lemma commentRest?_le (h : commentRest? s = some n) : n ≤ s.length := by
  induction s using commentRest?.induct generalizing n with
  | case1 => simp [commentRest?] at h
  | case2 s =>
    simp only [commentRest?, Option.some.injEq] at h
    simp [← h]
  | case3 c s hs ih =>
    simp only [commentRest?, Option.map_eq_map, Option.map_eq_some_iff] at h
    obtain ⟨m, hm, rfl⟩ := h
    simpa using ih hm

lemma docCommentLength_le (s : List Char) : docCommentLength s ≤ s.length := by
  unfold docCommentLength
  split
  · exact Nat.zero_le _
  · next rest _ =>
    cases h : commentRest? rest with
    | none => simp
    | some n => simpa using commentRest?_le h
  · exact Nat.zero_le _

lemma blockCommentLength_le (s : List Char) : blockCommentLength s ≤ s.length := by
  unfold blockCommentLength
  split
  · next rest =>
    cases h : commentRest? rest with
    | none => simp
    | some n => simpa using commentRest?_le h
  · exact Nat.zero_le _

lemma lineCommentLength_le (s : List Char) : lineCommentLength s ≤ s.length := by
  unfold lineCommentLength
  split
  · next rest =>
    have h := (List.takeWhile_prefix (· ≠ '\n') (l := rest)).length_le
    simp only [List.length_cons]
    omega
  · exact Nat.zero_le _

lemma spaceLength_le (s : List Char) : spaceLength s ≤ s.length :=
  (List.takeWhile_prefix isSpace).length_le

end Lengths

lemma tried_eq_some {k : Kind} {m : Nat} (h : tried k m = some (kind, n)) :
    kind = k ∧ n = m ∧ n ≠ 0 := by
  rw [tried] at h
  split at h
  · cases h
  · next hm =>
    cases h
    exact ⟨rfl, rfl, hm⟩

lemma tried_le {k : Kind} {m : Nat} (hm : m ≤ s.length) (h : tried k m = some (kind, n)) :
    0 < n ∧ n ≤ s.length := by
  obtain ⟨-, rfl, hn⟩ := tried_eq_some h
  exact ⟨Nat.pos_of_ne_zero hn, hm⟩

lemma literal?_eq_some (h : literal? offered s = some (kind, n)) :
    ∃ t w, kind = .token t ∧ t.text? = some w ∧ w.toList <+: s ∧ n = w.length := by
  obtain ⟨⟨t, m⟩, hfound, hc⟩ := Option.map_eq_some_iff.1 h
  cases hc
  obtain ⟨⟨-, w, hw, hp, rfl⟩, -⟩ := longestLiteral?_spec hfound
  exact ⟨t, w, rfl, hw, hp, rfl⟩

/-- A lexeme is one of those that are tried. -/
lemma next?_cases (h : next? offered s = some (kind, n)) :
    tried .docComment (docCommentLength s) = some (kind, n)
      ∨ (.initializer ∈ offered
        ∧ tried (.token .initializer) (initializerLength s) = some (kind, n))
      ∨ name? offered s = some (kind, n)
      ∨ tried (.token .array) (arrayLength s) = some (kind, n)
      ∨ tried .space (blockCommentLength s) = some (kind, n)
      ∨ tried .space (spaceLength s) = some (kind, n)
      ∨ tried .space (lineCommentLength s) = some (kind, n)
      ∨ literal? offered s = some (kind, n) := by
  simp only [next?, Option.orElse_eq_orElse, Option.orElse_eq_or, Option.or_eq_some_iff,
    Option.ite_none_right_eq_some] at h
  tauto

/-- What a fixed token stands for is its text. -/
lemma text_of_next? {t : Terminal} {w : String} (hw : t.text? = some w)
    (h : next? offered s = some (.token t, n)) : n = w.length ∧ w.toList <+: s := by
  rcases next?_cases h with h | ⟨-, h⟩ | h | h | h | h | h | h
  · exact absurd (tried_eq_some h).1 (by simp)
  · obtain ⟨hkind, -⟩ := tried_eq_some h
    cases hkind
    cases hw
  · obtain ⟨hkind, hn, -⟩ := tried_eq_some h
    cases hfound : withText? offered (s.take (nameLength s)) with
    | none =>
      rw [hfound] at hkind
      cases hkind
      cases hw
    | some u =>
      rw [hfound] at hkind
      cases hkind
      have hu := List.find?_some hfound
      rw [Option.getD_some] at hw
      rw [decide_eq_true_eq, hw, Option.some_inj] at hu
      have hlist : w.toList = s.take (nameLength s) := by rw [hu, String.toList_ofList]
      refine ⟨?_, hlist ▸ List.take_prefix _ _⟩
      rw [hn, ← String.length_toList, hlist, List.length_take, min_eq_left (nameLength_le s)]
  · obtain ⟨hkind, -⟩ := tried_eq_some h
    cases hkind
    cases hw
  · exact absurd (tried_eq_some h).1 (by simp)
  · exact absurd (tried_eq_some h).1 (by simp)
  · exact absurd (tried_eq_some h).1 (by simp)
  · obtain ⟨u, v, hkind, hv, hp, rfl⟩ := literal?_eq_some h
    cases hkind
    obtain rfl : w = v := Option.some_inj.1 (hw.symm.trans hv)
    exact ⟨rfl, hp⟩

/-- Initializers are only taken where they are offered. -/
lemma initializer_of_next? (h : next? offered s = some (.token .initializer, n)) :
    .initializer ∈ offered ∧ n = initializerLength s := by
  rcases next?_cases h with h | ⟨hmem, h⟩ | h | h | h | h | h | h
  · exact absurd (tried_eq_some h).1 (by simp)
  · exact ⟨hmem, (tried_eq_some h).2.1⟩
  · obtain ⟨hkind, -⟩ := tried_eq_some h
    cases hfound : withText? offered (s.take (nameLength s)) with
    | none => simp [hfound] at hkind
    | some u =>
      rw [hfound, Option.getD_some, Kind.token.injEq] at hkind
      have hu := List.find?_some hfound
      rw [decide_eq_true_eq, ← hkind] at hu
      cases hu
  · exact absurd (tried_eq_some h).1 (by simp)
  · exact absurd (tried_eq_some h).1 (by simp)
  · exact absurd (tried_eq_some h).1 (by simp)
  · exact absurd (tried_eq_some h).1 (by simp)
  · obtain ⟨t, w, hkind, hw, -⟩ := literal?_eq_some h
    cases hkind
    cases hw

/-- A lexeme is a part of the text that is not empty. -/
lemma next?_le (h : next? offered s = some (kind, n)) : 0 < n ∧ n ≤ s.length := by
  rcases next?_cases h with h | ⟨-, h⟩ | h | h | h | h | h | h
  · exact tried_le (docCommentLength_le s) h
  · exact tried_le (initializerLength_le s) h
  · exact tried_le (nameLength_le s) h
  · exact tried_le (arrayLength_le s) h
  · exact tried_le (blockCommentLength_le s) h
  · exact tried_le (spaceLength_le s) h
  · exact tried_le (lineCommentLength_le s) h
  · obtain ⟨t, w, -, hw, hp, rfl⟩ := literal?_eq_some h
    refine ⟨Nat.pos_of_ne_zero (by simpa using (text_solid hw).1), ?_⟩
    rw [← String.length_toList]
    exact hp.length_le

end Lexeme

lemma Place.advance_append (p : Place) (s t : List Char) :
    p.advance (s ++ t) = (p.advance s).advance t :=
  List.foldl_append

namespace Token

/-- The token is a part of a text that starts at a place; its text is that of its terminal if that
has a fixed one. -/
structure StandsIn (t : Token) (p : Place) (text : List Char) : Prop where
  nonempty : t.text ≠ []
  fixed : ∀ w, t.terminal.text? = some w → t.string = w
  extent : ∃ before after, text = before ++ (t.text ++ after) ∧ t.start = p.advance before
    ∧ t.stop = t.start.offset + t.text.length

/-- Tokens in the order in which they stand in a text. -/
def InOrder (ts : List Token) : Prop := ts.Pairwise fun t u => t.stop ≤ u.start.offset

variable {t : Token} {p : Place} {text before after : List Char}

lemma StandsIn.lt (h : t.StandsIn p text) : t.start.offset < t.stop := by
  obtain ⟨before, after, -, -, hstop⟩ := h.extent
  have := List.length_pos_iff.2 h.nonempty
  omega

lemma StandsIn.le_start (h : t.StandsIn p text) : p.offset ≤ t.start.offset := by
  obtain ⟨before, after, -, hstart, -⟩ := h.extent
  rw [hstart, Place.offset_advance]
  omega

lemma StandsIn.stop_le (h : t.StandsIn p text) : t.stop ≤ p.offset + text.length := by
  obtain ⟨before, after, rfl, hstart, hstop⟩ := h.extent
  rw [hstop, hstart, Place.offset_advance, List.length_append, List.length_append]
  omega

/-- A token of the rest of a text is one of the whole. -/
lemma StandsIn.behind (h : t.StandsIn (p.advance before) after) :
    t.StandsIn p (before ++ after) := by
  refine ⟨h.nonempty, h.fixed, ?_⟩
  obtain ⟨b, a, rfl, hstart, hstop⟩ := h.extent
  exact ⟨before ++ b, a, by rw [List.append_assoc], by rw [hstart, Place.advance_append], hstop⟩

lemma StandsIn.append (h : t.StandsIn p before) (after : List Char) :
    t.StandsIn p (before ++ after) := by
  refine ⟨h.nonempty, h.fixed, ?_⟩
  obtain ⟨b, a, rfl, hextent⟩ := h.extent
  exact ⟨b, a ++ after, by simp, hextent⟩

end Token

/-- The reader after some tokens. -/
def Reader.feed (r : Reader) (ts : List Token) : Option Reader := ts.foldlM Reader.step r

namespace Course

/-- The token that a lexeme is, if it is one. -/
def tokens (s : Course) (kind : Lexeme.Kind) (lexeme : List Char) : List Token :=
  match kind with
  | .token t => [⟨t, lexeme, s.place, (s.place.advance lexeme).offset⟩]
  | _ => []

/-- The tokens of a text, as far as it can be read. -/
def readTokens (s : Course) (text : List Char) : List Token :=
  match text with
  | [] => []
  | c :: rest =>
    match Lexeme.next? s.reader.position.offers (c :: rest) with
    | none => []
    | some (kind, n) =>
      match s.take kind (c :: rest.take (n - 1)) with
      | .error _ => []
      | .ok t => s.tokens kind (c :: rest.take (n - 1)) ++ t.readTokens (rest.drop (n - 1))
termination_by text.length
decreasing_by
  simp only [List.length_cons, List.length_drop]
  omega

/-- In front of `rest`, lexemes make up `text`. Taking them leads from one course to another, and
these are the tokens among them. -/
inductive Scans (rest : List Char) : Course → List Char → List Token → Course → Prop
  | nil (s : Course) : Scans rest s [] [] s
  | cons {s t u : Course} {kind : Lexeme.Kind} {lexeme text : List Char} {ts : List Token}
      (hne : lexeme ≠ [])
      (hnext : Lexeme.next? s.reader.position.offers (lexeme ++ (text ++ rest))
        = some (kind, lexeme.length))
      (htake : s.take kind lexeme = .ok t) (h : Scans rest t text ts u) :
      Scans rest s (lexeme ++ text) (s.tokens kind lexeme ++ ts) u

variable {s t : Course} {rest text lexeme : List Char} {ts : List Token} {kind : Lexeme.Kind}

/-- What is read to its end is made up of lexemes. -/
lemma scans_of_run (h : s.run text = .ok t) : ∃ ts, Scans [] s text ts t := by
  induction s, text using run.induct with
  | case1 s =>
    rw [run] at h
    cases h
    exact ⟨[], .nil _⟩
  | case2 s c rest hnext =>
    rw [run, hnext] at h
    cases h
  | case3 s c rest kind n hnext e htake =>
    rw [run, hnext] at h
    simp only [htake] at h
    cases h
  | case4 s c rest kind n hnext s' htake ih =>
    rw [run, hnext] at h
    simp only [htake] at h
    obtain ⟨ts, hts⟩ := ih h
    obtain ⟨hpos, hle⟩ := Lexeme.next?_le hnext
    have hlength : (c :: rest.take (n - 1)).length = n := by
      simp only [List.length_cons, List.length_take] at hle ⊢
      omega
    have hsplit : (c :: rest.take (n - 1)) ++ rest.drop (n - 1) = c :: rest := by
      rw [List.cons_append, List.take_append_drop]
    refine ⟨s.tokens kind (c :: rest.take (n - 1)) ++ ts, ?_⟩
    rw [← hsplit]
    refine .cons (List.cons_ne_nil _ _) ?_ htake hts
    rw [List.append_nil, hsplit, hlength, hnext]

lemma Scans.run (h : Scans rest s text ts t) : s.run (text ++ rest) = t.run rest := by
  induction h with
  | nil => rfl
  | cons hne hnext htake _ ih => rw [List.append_assoc, run_lexeme hne hnext htake, ih]

lemma Scans.readTokens (h : Scans [] s text ts t) : s.readTokens text = ts := by
  induction h with
  | nil => rw [Course.readTokens]
  | @cons s t u kind lexeme text ts hne hnext htake _ ih =>
    obtain ⟨c, cs, rfl⟩ := List.exists_cons_of_ne_nil hne
    rw [List.append_nil, List.cons_append] at hnext
    rw [List.cons_append, Course.readTokens, hnext]
    have hlength : (c :: cs).length - 1 = cs.length := rfl
    simp only [hlength, List.take_left, List.drop_left, htake, ih]

lemma take_place (h : s.take kind lexeme = .ok t) : t.place = s.place.advance lexeme := by
  cases kind with
  | space => cases h; rfl
  | docComment => cases h; rfl
  | token terminal =>
    simp only [take] at h
    split at h
    · cases h; rfl
    · cases h

lemma Scans.place (h : Scans rest s text ts t) : t.place = s.place.advance text := by
  induction h with
  | nil => rfl
  | cons _ _ htake _ ih => rw [ih, take_place htake, Place.advance_append]

lemma take_reader (h : s.take kind lexeme = .ok t) :
    s.reader.feed (s.tokens kind lexeme) = some t.reader := by
  cases kind with
  | space => cases h; rfl
  | docComment => cases h; rfl
  | token terminal =>
    simp only [take] at h
    split at h
    · next hstep =>
      cases h
      simp only [tokens, Reader.feed, List.foldlM_cons, List.foldlM_nil, hstep]
      rfl
    · cases h

/-- The reader has been given the tokens. -/
lemma Scans.reader (h : Scans rest s text ts t) : s.reader.feed ts = some t.reader := by
  induction h with
  | nil => rfl
  | cons _ _ htake _ ih =>
    have hfirst := take_reader htake
    rw [Reader.feed] at hfirst ih ⊢
    rw [List.foldlM_append, hfirst]
    exact ih

/-- A token that is taken stands where it is taken. -/
lemma standsIn_tokens (hne : lexeme ≠ [])
    (hnext : Lexeme.next? s.reader.position.offers (lexeme ++ rest) = some (kind, lexeme.length)) :
    ∀ t ∈ s.tokens kind lexeme, t.StandsIn s.place lexeme := by
  cases kind with
  | space => simp [tokens]
  | docComment => simp [tokens]
  | token terminal =>
    intro t ht
    rw [tokens, List.mem_singleton] at ht
    subst ht
    refine ⟨hne, fun w hw => ?_, [], [], by simp, rfl, by simp⟩
    obtain ⟨hlength, hp⟩ := Lexeme.text_of_next? hw hnext
    have hw : w.toList = lexeme := by
      apply (List.prefix_of_prefix_length_le hp (List.prefix_append _ _) _).eq_of_length
      · rw [String.length_toList, hlength]
      · rw [String.length_toList, hlength]
    rw [Token.string, ← hw, String.ofList_toList]

lemma Scans.standsIn (h : Scans rest s text ts t) : ∀ t ∈ ts, t.StandsIn s.place text := by
  induction h with
  | nil => simp
  | cons hne hnext htake _ ih =>
    intro t ht
    rcases List.mem_append.1 ht with ht | ht
    · exact (standsIn_tokens hne hnext t ht).append _
    · have hrest := ih t ht
      rw [take_place htake] at hrest
      exact hrest.behind

lemma Scans.inOrder (h : Scans rest s text ts t) : Token.InOrder ts := by
  induction h with
  | nil => exact .nil
  | @cons s t u kind lexeme text ts hne hnext htake hrest ih =>
    refine List.pairwise_append.2 ⟨?_, ih, fun a ha b hb => ?_⟩
    · cases kind with
      | token terminal => exact List.pairwise_singleton _ _
      | _ => exact .nil
    · have hstop := (standsIn_tokens hne hnext a ha).stop_le
      have hstart := (hrest.standsIn b hb).le_start
      rw [take_place htake, Place.offset_advance] at hstart
      omega

/-- The documentation comments that were met stand in the text in the order in which they were met,
the latest first, all of them before the place that was reached. -/
structure Noted (s : Course) : Prop where
  inOrder : s.docs.Pairwise fun later earlier => earlier.stop ≤ later.start
  extent : ∀ d ∈ s.docs, d.start < d.stop ∧ d.stop ≤ s.place.offset

lemma Noted.of_docs (h : s.Noted) (hdocs : t.docs = s.docs)
    (hplace : s.place.offset ≤ t.place.offset) : t.Noted := by
  refine ⟨hdocs ▸ h.inOrder, fun d hd => ?_⟩
  obtain ⟨hlt, hle⟩ := h.extent d (hdocs ▸ hd)
  exact ⟨hlt, hle.trans hplace⟩

lemma Noted.take (h : s.Noted) (hne : lexeme ≠ []) (htake : s.take kind lexeme = .ok t) :
    t.Noted := by
  have hplace : s.place.offset ≤ t.place.offset := by
    rw [take_place htake, Place.offset_advance]
    omega
  cases kind with
  | space =>
    cases htake
    exact h.of_docs rfl hplace
  | docComment =>
    cases htake
    have hpos := List.length_pos_iff.2 hne
    have hlt : s.place.offset < (s.place.advance lexeme).offset := by
      rw [Place.offset_advance]
      omega
    refine ⟨List.pairwise_cons.2 ⟨fun d hd => (h.extent d hd).2, h.inOrder⟩, ?_⟩
    refine List.forall_mem_cons.2 ⟨⟨hlt, le_rfl⟩, fun d hd => ?_⟩
    exact ⟨(h.extent d hd).1, (h.extent d hd).2.trans hlt.le⟩
  | token terminal =>
    simp only [Course.take] at htake
    split at htake
    · cases htake
      exact h.of_docs rfl hplace
    · cases htake

lemma Scans.noted (h : Scans rest s text ts t) (hs : s.Noted) : t.Noted := by
  induction h with
  | nil => exact hs
  | cons hne _ htake _ ih => exact ih (hs.take hne htake)

end Course

/-- What is accepted was made up of lexemes, and its unit is what the reader has at the end with
the documentation comments that were met. -/
lemma scans_of_parseSource {source : String} {file : Option String} {u : CompilationUnit}
    (h : parseSource source file = .ok u) : ∃ ts s v, Course.Scans [] {} source.toList ts s
      ∧ s.reader.finish = some v ∧ u = { v.attachDocs s.docs.reverse with file } := by
  rw [parseSource] at h
  split at h
  · next v hread =>
    cases h
    rw [readUnit] at hread
    cases hrun : Course.run {} source.toList with
    | error e =>
      rw [hrun] at hread
      cases hread
    | ok s =>
      obtain ⟨ts, hts⟩ := Course.scans_of_run hrun
      rw [hrun] at hread
      cases hfinish : s.reader.finish with
      | none =>
        simp only [bind, Except.bind, hfinish] at hread
        cases hread
      | some w =>
        simp only [bind, Except.bind, hfinish] at hread
        cases hread
        exact ⟨ts, s, w, hts, hfinish, rfl⟩
  · cases h

/-- A result of which something is known is one. -/
lemma exists_ok_of_map {ε α β : Type} {x : Except ε α} {f : α → β} {b : β}
    (h : (x.map f).toOption = some b) : ∃ a, x = .ok a ∧ f a = b := by
  cases x with
  | error e => cases h
  | ok a => exact ⟨a, rfl, Option.some_inj.1 h⟩

end DeclGraph
