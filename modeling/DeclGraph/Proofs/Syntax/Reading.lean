import DeclGraph.Proofs.Syntax.Lexing
import DeclGraph.Syntax.Parse

/-!
Reading words: what a sequence of words makes of a reader, wherever the words stand, and that a
text of these words is read in that way.
-/

namespace DeclGraph

open Word

/-- A word as a token of some extent. -/
def Word.token (w : Word) (start : Place) (stop : Nat) : Token :=
  ⟨w.terminal, w.lexeme, start, stop⟩

/-- The reader takes the words, each of which is offered where it is taken, and then has a
property. -/
def Reader.Reads (r : Reader) (ws : List Word) (Q : Reader → Prop) : Prop :=
  match ws with
  | [] => Q r
  | w :: ws => w.terminal ∈ r.position.offers ∧
    ∀ start stop, ∃ s, r.step (w.token start stop) = some s ∧ s.Reads ws Q

namespace Reader

variable {r : Reader} {ws vs : List Word} {Q Q' : Reader → Prop}

@[simp] lemma reads_nil : r.Reads [] Q ↔ Q r := Iff.rfl

lemma reads_cons {w : Word} : r.Reads (w :: ws) Q ↔ w.terminal ∈ r.position.offers ∧
    ∀ start stop, ∃ s, r.step (w.token start stop) = some s ∧ s.Reads ws Q := Iff.rfl

lemma Reads.mono (h : r.Reads ws Q) (hQ : ∀ s, Q s → Q' s) : r.Reads ws Q' := by
  induction ws generalizing r with
  | nil => exact hQ r h
  | cons w ws ih =>
    refine ⟨h.1, fun start stop => ?_⟩
    obtain ⟨s, hs, hreads⟩ := h.2 start stop
    exact ⟨s, hs, ih hreads⟩

lemma reads_append : r.Reads (ws ++ vs) Q ↔ r.Reads ws fun s => s.Reads vs Q := by
  induction ws generalizing r with
  | nil => exact Iff.rfl
  | cons w ws ih => simp only [List.cons_append, reads_cons, ih]

lemma Reads.append (h : r.Reads ws Q) (hQ : ∀ s, Q s → s.Reads vs Q') : r.Reads (ws ++ vs) Q' :=
  reads_append.2 (h.mono hQ)

lemma reads_step {w : Word} {s : Reader} (hw : w.terminal ∈ r.position.offers)
    (hstep : ∀ start stop, r.step (w.token start stop) = some s) (h : s.Reads ws Q) :
    r.Reads (w :: ws) Q :=
  ⟨hw, fun start stop => ⟨s, hstep start stop, h⟩⟩

lemma offers_initializer (p : Position) (h : .initializer ∈ p.offers) :
    p.offers = [.initializer] := by
  unfold Position.offers at h ⊢
  split at h <;> first | rfl | exact absurd h (by decide)

end Reader

namespace Course

/-- A lexeme goes to the reader and is taken off the text. -/
lemma run_lexeme {s t : Course} {kind : Lexeme.Kind} {lexeme rest : List Char} (hne : lexeme ≠ [])
    (hnext : Lexeme.next? s.reader.position.offers (lexeme ++ rest) = some (kind, lexeme.length))
    (htake : s.take kind lexeme = .ok t) : s.run (lexeme ++ rest) = t.run rest := by
  obtain ⟨c, cs, rfl⟩ := List.exists_cons_of_ne_nil hne
  rw [List.cons_append] at hnext ⊢
  rw [run, hnext]
  have hlength : (c :: cs).length - 1 = cs.length := rfl
  simp only [hlength, List.take_left, List.drop_left, htake]

/-- The course of reading legible words. -/
lemma run_words {ws : List Word} (hws : Legible ws) {s : Course} {Q : Reader → Prop}
    (h : s.reader.Reads ws Q) :
    (∃ t, s.run (line ws) = .ok t ∧ Q t.reader) ∧ ∃ t, s.run (spaced ws) = .ok t ∧ Q t.reader := by
  induction ws generalizing s with
  | nil =>
    have hrun : s.run [] = .ok s := by rw [run]
    exact ⟨⟨s, hrun, h⟩, ⟨s, hrun, h⟩⟩
  | cons w ws ih =>
    have hline {s : Course} (h : s.reader.Reads (w :: ws) Q) :
        ∃ t, s.run (line (w :: ws)) = .ok t ∧ Q t.reader := by
      obtain ⟨rest, hrest, htext, hnext⟩ := hws.next? h.1 (Reader.offers_initializer _)
      obtain ⟨r, hstep, hreads⟩ := h.2 s.place (s.place.advance w.lexeme).offset
      let t : Course :=
        { s with reader := r, place := s.place.advance w.lexeme, lastToken := s.place }
      have htake : s.take (.token w.terminal) w.lexeme = .ok t := by
        have htoken : s.reader.step ⟨w.terminal, w.lexeme, s.place, _⟩ = some r := hstep
        simp only [take, htoken, t]
      rw [htext] at hnext ⊢
      rw [run_lexeme hws.1.lexeme_ne hnext htake]
      rcases hrest with rfl | rfl
      · exact (ih hws.2.2 (s := t) hreads).2
      · exact (ih hws.2.2 (s := t) hreads).1
    refine ⟨hline h, ?_⟩
    obtain ⟨c, cs, hw, hc⟩ := hws.1.start
    have hnext : Lexeme.next? s.reader.position.offers (' ' :: c :: (cs ++ spaced ws))
        = some (.space, 1) := Lexeme.next?_blank hc
    have hblank : s.run (spaced (w :: ws))
        = { s with place := s.place.advance [' '] }.run (line (w :: ws)) := by
      rw [spaced_cons, line, hw]
      exact run_lexeme (List.cons_ne_nil ' ' []) hnext rfl
    rw [hblank]
    exact hline h

end Course

namespace Word

@[simp] lemma terminal_name (n : String) : (name n).terminal = .name := rfl

@[simp] lemma terminal_keyword (k : Keyword) : (keyword k).terminal = .keyword k := rfl

@[simp] lemma terminal_mark (m : Mark) : (mark m).terminal = .mark m := rfl

@[simp] lemma terminal_brackets : brackets.terminal = .array := rfl

@[simp] lemma terminal_initializer (s : String) : (initializer s).terminal = .initializer := rfl

@[simp] lemma token_name (n : String) (start : Place) (stop : Nat) :
    (name n).token start stop = ⟨.name, n.toList, start, stop⟩ := rfl

@[simp] lemma token_keyword (k : Keyword) (start : Place) (stop : Nat) :
    (keyword k).token start stop = ⟨.keyword k, k.text.toList, start, stop⟩ := rfl

@[simp] lemma token_mark (m : Mark) (start : Place) (stop : Nat) :
    (mark m).token start stop = ⟨.mark m, m.text.toList, start, stop⟩ := rfl

@[simp] lemma token_brackets (start : Place) (stop : Nat) :
    brackets.token start stop = ⟨.array, ['[', ']'], start, stop⟩ := rfl

@[simp] lemma token_initializer (s : String) (start : Place) (stop : Nat) :
    (initializer s).token start stop = ⟨.initializer, s.toList ++ [' '], start, stop⟩ := rfl

lemma commas_cons (x : List Word) (xs : List (List Word)) :
    commas (x :: xs) = x ++ xs.flatMap (mark .comma :: ·) :=
  intercalate_cons [mark .comma] x xs

lemma names_cons (n : String) (ns : List String) :
    names (n :: ns) = name n :: ns.flatMap ([mark .comma, name ·]) := by
  rw [names, List.map_cons, commas_cons, List.flatMap_map]
  rfl

end Word

@[simp] lemma Token.string_mk (t : Terminal) (s : String) (start : Place) (stop : Nat) :
    Token.string ⟨t, s.toList, start, stop⟩ = s :=
  String.ofList_toList

namespace Reader

open Position

variable {r : Reader} {ws : List Word} {Q : Reader → Prop}

section Lists

lemma offers_listName (use : ListUse) (names : List String) :
    .mark .comma ∈ (listName use names).offers ∧ .mark .lbrace ∈ (listName use names).offers
      ∧ .mark .rpar ∈ (listName use names).offers := by
  unfold Position.offers
  split <;> simp_all

lemma reads_names (use : ListUse) {ns : List String} (hne : ns ≠ []) :
    { r with position := listNext use [] }.Reads (Word.names ns)
      (· = { r with position := listName use ns }) := by
  have hmore (ns names : List String) :
      { r with position := listName use names }.Reads (ns.flatMap ([mark .comma, name ·]))
        (· = { r with position := listName use (names ++ ns) }) := by
    induction ns generalizing names with
    | nil => simp
    | cons n ns ih =>
      rw [List.flatMap_cons]
      refine reads_step (offers_listName _ _).1 (s := { r with position := listNext use names })
        (fun _ _ => by simp [step, goTo]) ?_
      refine reads_step (by simp [offers])
        (s := { r with position := listName use (names ++ [n]) })
        (fun _ _ => by simp [step, goTo]) ?_
      simpa using ih (names ++ [n])
  obtain ⟨n, ns, rfl⟩ := List.exists_cons_of_ne_nil hne
  rw [Word.names_cons]
  exact reads_step (by simp [offers]) (fun _ _ => by simp [step, goTo]) (hmore ns [n])

/-- A keyword and names, or nothing, and what comes after a list. -/
lemma reads_clause (use : ListUse) (k : Keyword) (ns : List String)
    (hk : .keyword k ∈ r.position.offers)
    (hstep : ∀ start stop, r.step ((keyword k).token start stop)
      = some { r with position := listNext use [] })
    (hnil : ns = [] → r.Reads ws Q)
    (hlist : ns ≠ [] → { r with position := listName use ns }.Reads ws Q) :
    r.Reads (Word.clause k ns ++ ws) Q := by
  cases ns with
  | nil => exact hnil rfl
  | cons n ns =>
    refine reads_step hk hstep ((reads_names use (List.cons_ne_nil n ns)).append ?_)
    rintro _ rfl
    exact hlist (List.cons_ne_nil n ns)

/-- What a class or an interface builds on, up to the brace that opens its body. -/
lemma reads_heritage (d : Draft) (h : Heritage) :
    { r with position := match h with
      | .ofClass .. => className d
      | .ofInterface _ => interfaceName d }.Reads (h.words ++ [mark .lbrace])
      (· = { r with opened := ⟨d, h, []⟩ :: r.opened, position := bodyOpened }) := by
  cases h with
  | ofInterface parents =>
    refine reads_clause (.interfaceParents d) .extendsKw parents (by simp [offers])
      (fun _ _ => by simp [step, goTo]) ?_ ?_
    · rintro rfl
      exact reads_step (by simp [offers]) (fun _ _ => by simp [step, openClassifier]) rfl
    · intro _
      exact reads_step (offers_listName _ _).2.1
        (fun _ _ => by simp [step, stepListEnd, openClassifier]) rfl
  | ofClass superclass interfaces =>
    have hinterfaces (p : Position) (hp : p.offers = [.keyword .implementsKw, .mark .lbrace]
        ∨ p.offers = [.keyword .extendsKw, .keyword .implementsKw, .mark .lbrace])
        (hk : ∀ start stop, { r with position := p }.step ((keyword .implementsKw).token start stop)
          = some { r with position := listNext (.classInterfaces d superclass) [] })
        (hb : ∀ start stop, { r with position := p }.step ((mark .lbrace).token start stop)
          = some { r with
            opened := ⟨d, .ofClass superclass [], []⟩ :: r.opened, position := bodyOpened }) :
        { r with position := p }.Reads (Word.clause .implementsKw interfaces ++ [mark .lbrace])
          (· = { r with
            opened := ⟨d, .ofClass superclass interfaces, []⟩ :: r.opened
            position := bodyOpened }) := by
      refine reads_clause (.classInterfaces d superclass) .implementsKw interfaces
        (by rcases hp with hp | hp <;> simp [hp]) hk ?_ ?_
      · rintro rfl
        exact reads_step (by rcases hp with hp | hp <;> simp [hp]) hb rfl
      · intro _
        exact reads_step (offers_listName _ _).2.1
          (fun _ _ => by simp [step, stepListEnd, openClassifier]) rfl
    cases superclass with
    | none =>
      exact hinterfaces (className d) (Or.inr rfl) (fun _ _ => by simp [step, goTo])
        (fun _ _ => by simp [step, openClassifier])
    | some s =>
      refine reads_step (by simp [offers]) (s := { r with position := extendsWord d })
        (fun _ _ => by simp [step, goTo]) ?_
      refine reads_step (by simp [offers]) (s := { r with position := superclass d s })
        (fun _ _ => by simp [step, goTo]) ?_
      exact hinterfaces (superclass d s) (Or.inl rfl) (fun _ _ => by simp [step, goTo])
        (fun _ _ => by simp [step, openClassifier])

/-- The literals of an enumeration, up to its closing brace. -/
lemma reads_literals (d : Draft) (interfaces literals : List String) :
    { r with position := enumOpened d interfaces }.Reads (Word.names literals ++ [mark .rbrace])
      (fun s => ∃ stop, s = { r with
        position := closed (.enumeration (d.head stop) interfaces literals) }) := by
  have hoffers (ls : List String) : .mark .comma ∈ (literal d interfaces ls).offers
      ∧ .mark .rbrace ∈ (literal d interfaces ls).offers := by
    unfold Position.offers
    split <;> simp_all
  have hmore (ns ls : List String) : { r with position := literal d interfaces ls }.Reads
      (ns.flatMap ([mark .comma, name ·]) ++ [mark .rbrace])
      (fun s => ∃ stop, s = { r with
        position := closed (.enumeration (d.head stop) interfaces (ls ++ ns)) }) := by
    induction ns generalizing ls with
    | nil =>
      refine ⟨(hoffers ls).2, fun _ stop =>
        ⟨{ r with position := closed (.enumeration (d.head stop) interfaces ls) }, ?_, stop, ?_⟩⟩
      · simp [step, closeEnumeration, goTo]
      · rw [List.append_nil]
    | cons n ns ih =>
      rw [List.flatMap_cons]
      refine reads_step (hoffers ls).1 (s := { r with position := literalComma d interfaces ls })
        (fun _ _ => by simp [step, goTo]) ?_
      refine reads_step (by simp [offers])
        (s := { r with position := literal d interfaces (ls ++ [n]) })
        (fun _ _ => by simp [step, goTo]) ?_
      simpa using ih (ls ++ [n])
  cases literals with
  | nil =>
    exact ⟨by simp [offers], fun _ stop => ⟨_, by simp [step, closeEnumeration, goTo], stop, rfl⟩⟩
  | cons n ns =>
    rw [Word.names_cons]
    exact reads_step (by simp [offers]) (fun _ _ => by simp [step, goTo]) (hmore ns [n])

/-- From the word of an enumeration on to its closing brace. -/
lemma reads_enumeration (o : Opening) (n : String) (interfaces literals : List String) :
    { r with position := modifiers o }.Reads
      (keyword .enumKw :: name n :: (Word.clause .implementsKw interfaces ++ mark .lbrace ::
        Word.names literals ++ [mark .rbrace]))
      (fun s => ∃ stop, s = { r with
        position := closed (.enumeration (Draft.head ⟨o, n⟩ stop) interfaces literals) }) := by
  refine reads_step (by simp [offers, memberStart, classifierStart])
    (s := { r with position := classifierWord .enumWord o })
    (fun _ _ => by simp [step, stepMember, stepOpening, goTo]) ?_
  refine reads_step (by simp [offers]) (s := { r with position := enumName ⟨o, n⟩ })
    (fun _ _ => by simp [step, goTo]) ?_
  rw [List.append_assoc]
  refine reads_clause (.enumInterfaces ⟨o, n⟩) .implementsKw interfaces (by simp [offers])
    (fun _ _ => by simp [step, goTo]) ?_ ?_
  · rintro rfl
    exact reads_step (by simp [offers]) (fun _ _ => by simp [step, goTo])
      (reads_literals ⟨o, n⟩ [] literals)
  · intro _
    exact reads_step (offers_listName _ _).2.1 (fun _ _ => by simp [step, stepListEnd, goTo])
      (reads_literals ⟨o, n⟩ interfaces literals)

/-- From the word of a classifier on to the brace that opens its body. -/
lemma reads_typed (o : Opening) (n : String) (h : Heritage)
    (hws : { r with opened := ⟨⟨o, n⟩, h, []⟩ :: r.opened, position := bodyOpened }.Reads ws Q) :
    { r with position := modifiers o }.Reads
      (keyword h.keyword :: name n :: ((h.words ++ [mark .lbrace]) ++ ws)) Q := by
  have hheritage := (reads_heritage (r := r) ⟨o, n⟩ h).append fun s hs => hs ▸ hws
  cases h with
  | ofClass superclass interfaces =>
    refine reads_step (by simp [offers, memberStart, classifierStart, Heritage.keyword])
      (s := { r with position := classifierWord .classWord o })
      (fun _ _ => by simp [step, stepMember, stepOpening, goTo, Heritage.keyword]) ?_
    exact reads_step (by simp [offers]) (fun _ _ => by simp [step, goTo]) hheritage
  | ofInterface parents =>
    refine reads_step (by simp [offers, memberStart, classifierStart, Heritage.keyword])
      (s := { r with position := classifierWord .interfaceWord o })
      (fun _ _ => by simp [step, stepMember, stepOpening, goTo, Heritage.keyword]) ?_
    exact reads_step (by simp [offers]) (fun _ _ => by simp [step, goTo]) hheritage

end Lists

section Types

/-- The rest of a type, and the name of what has it. -/
lemma reads_suffix (use : TypeUse) (t : TypeRef) (n : String)
    (h : ∀ s, r.stepTypedName use t n = some s → s.Reads ws Q) :
    { r with position := typed use { name := t.name } }.Reads
      (List.replicate t.dims brackets ++ (if t.varargs then [mark .varargs] else [])
        ++ name n :: ws) Q := by
  have hname (type : TypeRef) (p : Position) (hp : p = typed use type ∨ p = typeEnd use type)
      (h : ∀ s, r.stepTypedName use type n = some s → s.Reads ws Q) :
      { r with position := p }.Reads (name n :: ws) Q := by
    have hstep (start : Place) (stop : Nat) :
        { r with position := p }.step ((name n).token start stop) = r.stepTypedName use type n := by
      rcases hp with rfl | rfl <;> simp [step, stepTyped, stepTypedName, goTo]
    obtain ⟨s, hs⟩ : ∃ s, r.stepTypedName use type n = some s := by
      cases use <;> exact ⟨_, rfl⟩
    exact reads_step (by rcases hp with rfl | rfl <;> simp [offers])
      (fun start stop => (hstep start stop).trans hs) (h s hs)
  have hdims (k d : Nat) (hd : d + k = t.dims) :
      { r with position := typed use { name := t.name, dims := d } }.Reads
        (List.replicate k brackets ++
          ((if t.varargs then [mark .varargs] else []) ++ name n :: ws)) Q := by
    induction k generalizing d with
    | zero =>
      obtain ⟨type, dims, varargs⟩ := t
      obtain rfl : d = dims := hd
      cases varargs with
      | false => exact hname _ _ (Or.inl rfl) h
      | true =>
        exact reads_step (by simp [offers])
          (s := { r with position := typeEnd use ⟨type, d, true⟩ })
          (fun _ _ => by simp [step, stepTyped, goTo]) (hname _ _ (Or.inr rfl) h)
    | succ k ih =>
      rw [List.replicate_succ]
      exact reads_step (by simp [offers])
        (s := { r with position := typed use { name := t.name, dims := d + 1 } })
        (fun _ _ => by simp [step, stepTyped, goTo]) (ih (d + 1) (by omega))
  rw [List.append_assoc]
  exact hdims t.dims 0 (Nat.zero_add _)

/-- The first name of a member is taken for its type as long as no parenthesis follows. -/
lemma reads_memberName (d : Draft) (w : Word) (hw : w.terminal ∈ [.name, .array, .mark .varargs])
    (h : { r with position := typed (.member d.opening) { name := d.name } }.Reads (w :: ws) Q) :
    { r with position := memberName d }.Reads (w :: ws) Q := by
  refine ⟨?_, fun start stop => ?_⟩
  · simp only [offers, List.mem_cons, List.not_mem_nil, or_false] at hw ⊢
    tauto
  · obtain ⟨s, hs, hreads⟩ := h.2 start stop
    refine ⟨s, ?_, hreads⟩
    rw [← hs]
    obtain ⟨t, text⟩ := w
    simp only [List.mem_cons, List.not_mem_nil, or_false] at hw
    rcases hw with rfl | rfl | rfl <;> rfl

/-- The type and the name of a member. -/
lemma reads_member (hr : r.opened ≠ []) (o : Opening) (t : TypeRef) (n : String)
    (h : { r with position := typedName ⟨o, n⟩ t }.Reads ws Q) :
    { r with position := modifiers o }.Reads (t.words ++ name n :: ws) Q := by
  have hopened : r.opened.isEmpty = false := by simpa using hr
  refine reads_step (by simp [offers, memberStart])
    (s := { r with position := memberName ⟨o, t.name⟩ })
    (fun _ _ => by simp [step, hopened, stepMember, goTo]) ?_
  have hafter (s : Reader) (hs : r.stepTypedName (.member o) t n = some s) : s.Reads ws Q := by
    cases hs
    exact h
  have hsuffix := reads_suffix (.member o) t n hafter
  match t with
  | ⟨_, 0, false⟩ | ⟨_, 0, true⟩ | ⟨_, d + 1, _⟩ => exact reads_memberName _ _ (by simp) hsuffix

end Types

section Parameters

lemma reads_param {op : OperationDraft} {p : Param} (hp : p.direction ≠ .result)
    (hr : r.position = paramsOpened op ∨ r.position = paramsNext op)
    (h : { r with position := param { op with params := op.params ++ [p] } }.Reads ws Q) :
    r.Reads (p.words ++ ws) Q := by
  have hoffers : ∀ t ∈ paramStart, t ∈ r.position.offers := by
    rcases hr with hr | hr <;> simp +contextual [hr, offers]
  have hkeyword (k : Keyword) (hk : .keyword k ∈ paramStart)
      (hstep : ∀ start stop, r.step ((keyword k).token start stop)
        = some { r with position := typeNext (.parameter op p.direction) }) :
      r.Reads (keyword k :: (p.type.words ++ name p.name :: ws)) Q := by
    refine reads_step (hoffers _ hk) hstep (reads_step (by simp [offers])
      (s := { r with position := typed (.parameter op p.direction) { name := p.type.name } })
      (fun _ _ => by simp [step, goTo]) ?_)
    refine reads_suffix _ _ _ fun s hs => ?_
    cases hs
    exact h
  have hwords : p.words ++ ws = p.direction.words ++ (p.type.words ++ name p.name :: ws) := by
    simp [Param.words]
  rw [hwords]
  cases hd : p.direction with
  | input =>
    exact hkeyword .inKw (by simp [paramStart]) fun _ _ => by
      rcases hr with hr | hr <;> simp [step, hr, stepParam, goTo, hd]
  | output =>
    exact hkeyword .outKw (by simp [paramStart]) fun _ _ => by
      rcases hr with hr | hr <;> simp [step, hr, stepParam, goTo, hd]
  | inout =>
    exact hkeyword .inoutKw (by simp [paramStart]) fun _ _ => by
      rcases hr with hr | hr <;> simp [step, hr, stepParam, goTo, hd]
  | result => exact absurd hd hp

/-- The parameters of an operation, up to the closing parenthesis. -/
lemma reads_params {op : OperationDraft} (hop : op.params = []) {ps : List Param}
    (hps : ∀ p ∈ ps, p.direction ≠ .result)
    (h : { r with position := paramsClosed { op with params := ps } }.Reads ws Q) :
    { r with position := paramsOpened op }.Reads
      (Word.commas (ps.map Param.words) ++ mark .rpar :: ws) Q := by
  have hmore (ps : List Param) (hps : ∀ p ∈ ps, p.direction ≠ .result) (op : OperationDraft)
      (h : { r with position := paramsClosed { op with params := op.params ++ ps } }.Reads ws Q) :
      { r with position := param op }.Reads
        ((ps.map Param.words).flatMap (mark .comma :: ·) ++ mark .rpar :: ws) Q := by
    induction ps generalizing op with
    | nil =>
      rw [List.append_nil] at h
      exact reads_step (by simp [offers]) (fun _ _ => by simp [step, goTo]) h
    | cons p ps ih =>
      rw [List.map_cons, List.flatMap_cons, List.append_assoc, List.cons_append]
      refine reads_step (by simp [offers]) (s := { r with position := paramsNext op })
        (fun _ _ => by simp [step, goTo]) ?_
      refine reads_param (hps p List.mem_cons_self) (Or.inr rfl) ?_
      exact ih (fun q hq => hps q (List.mem_cons_of_mem p hq)) _ (by simpa using h)
  cases ps with
  | nil =>
    refine reads_step (by simp [offers]) (s := { r with position := paramsClosed op })
      (fun _ _ => by simp [step, goTo]) ?_
    rwa [← hop] at h
  | cons p ps =>
    rw [List.map_cons, Word.commas_cons, List.append_assoc]
    refine reads_param (hps p List.mem_cons_self) (Or.inl rfl) ?_
    exact hmore ps (fun q hq => hps q (List.mem_cons_of_mem p hq)) _ (by simpa [hop] using h)

end Parameters

section Members

/-- The reader with members added to the innermost open classifier. -/
def extend (r : Reader) (ms : List Member) : Reader :=
  match r.opened with
  | [] => r
  | c :: rest => { r with opened := { c with members := c.members ++ ms } :: rest }

lemma addMember_of_opened (hr : r.opened ≠ []) (p : Position) (m : Member) :
    { r with position := p }.addMember m = some { r.extend [m] with position := p } := by
  obtain ⟨c, rest, hr⟩ := List.exists_cons_of_ne_nil hr
  simp [addMember, extend, hr]

lemma extend_nil (r : Reader) : r.extend [] = r := by
  obtain ⟨unit, opened, position⟩ := r
  cases opened <;> simp [extend]

lemma extend_position (r : Reader) (ms : List Member) : (r.extend ms).position = r.position := by
  unfold extend
  split <;> rfl

lemma extend_opened (hr : r.opened ≠ []) (ms : List Member) : (r.extend ms).opened ≠ [] := by
  obtain ⟨c, rest, hc⟩ := List.exists_cons_of_ne_nil hr
  simp [extend, hc]

lemma extend_extend (ms ms' : List Member) : (r.extend ms).extend ms' = r.extend (ms ++ ms') := by
  obtain ⟨unit, opened, position⟩ := r
  cases opened <;> simp [extend]

/-- From the end of the parameters of an operation on to its end. -/
lemma reads_raises (hr : r.opened ≠ []) (op : OperationDraft) (o : OperationDecl) :
    { r with position := paramsClosed op }.Reads (o.raisesWords ++ [mark .semicolon])
      (fun s => ∃ stop, s = { r.extend [.operation (op.decl o.raises stop)] with
        position := memberEnd }) := by
  by_cases ho : o.raises = []
  · have hwords : o.raisesWords = [] := by simp [OperationDecl.raisesWords, ho]
    rw [hwords, ho]
    refine ⟨by simp [offers], fun _ stop => ⟨_, ?_, stop, rfl⟩⟩
    simp [step, addOperation, addMember_of_opened hr, goTo]
  · have hwords : o.raisesWords ++ [mark .semicolon] = keyword .raisesKw :: mark .lpar ::
        (Word.names o.raises ++ [mark .rpar, mark .semicolon]) := by
      simp [OperationDecl.raisesWords, ho]
    rw [hwords]
    refine reads_step (by simp [offers]) (s := { r with position := raisesWord op })
      (fun _ _ => by simp [step, goTo]) ?_
    refine reads_step (by simp [offers]) (s := { r with position := listNext (.raised op) [] })
      (fun _ _ => by simp [step, goTo]) ((reads_names (.raised op) ho).append ?_)
    rintro _ rfl
    refine reads_step (offers_listName _ _).2.2
      (s := { r with position := raisesClosed op o.raises })
      (fun _ _ => by simp [step, stepListEnd, goTo]) ?_
    refine ⟨by simp [offers], fun _ stop => ⟨_, ?_, stop, rfl⟩⟩
    simp [step, addOperation, addMember_of_opened hr, goTo]

/-- From the name of an attribute on to its end. -/
lemma reads_value (hr : r.opened ≠ []) (d : Draft) (type : TypeRef) (value : Option String)
    (hvalue : ∀ text ∈ value, Lexeme.IsInitializer text) :
    { r with position := typedName d type }.Reads
      ((match value with
        | none => []
        | some text => [mark .equal, initializer text]) ++ [mark .semicolon])
      (fun s => ∃ stop, s =
        { r.extend [.attr { head := d.head stop, type, initializer := value }] with
          position := memberEnd }) := by
  cases value with
  | none =>
    refine ⟨by simp [offers], fun _ stop => ⟨_, ?_, stop, rfl⟩⟩
    simp [step, addAttribute, addMember_of_opened hr, goTo]
  | some text =>
    refine reads_step (by simp [offers]) (s := { r with position := equalSign d type })
      (fun _ _ => by simp [step, goTo]) ?_
    refine reads_step (by simp [offers]) (s := { r with position := initialValue d type text })
      (fun _ _ => by simp [step, goTo, (hvalue text rfl).trim, String.ofList_toList]) ?_
    refine ⟨by simp [offers], fun _ stop => ⟨_, ?_, stop, rfl⟩⟩
    simp [step, addAttribute, addMember_of_opened hr, goTo]

end Members

section Declarations

/-- The reader with the classifier that was read last added to what it is declared in. -/
def settle (r : Reader) : Reader :=
  match r.position with
  | closed c => { r.addClassifier c with position := settled }
  | _ => { r with position := settled }

lemma settle_position (r : Reader) : r.settle.position = settled := by
  unfold settle
  split <;> rfl

lemma settle_closed (hr : r.opened ≠ []) (c : Classifier) :
    { r with position := closed c }.settle
      = { r.extend [.classifier c] with position := settled } := by
  obtain ⟨o, rest, ho⟩ := List.exists_cons_of_ne_nil hr
  simp [settle, addClassifier, extend, ho]

lemma settle_unit (hr : r.opened = []) (c : Classifier) :
    { r with position := closed c }.settle.unit
      = { r.unit with definitions := r.unit.definitions ++ [c] } := by
  simp [settle, addClassifier, hr]

/-- Readers that stand between two declarations of a file. -/
def AtFile (r : Reader) : Prop :=
  r.opened = [] ∧ match r.position with
    | fileStart | clauseEnd | closed _ | settled => True
    | _ => False

/-- Readers that stand between two members of a classifier. -/
def InBody (r : Reader) : Prop :=
  r.opened ≠ [] ∧ match r.position with
    | bodyOpened | closed _ | settled | memberEnd => True
    | _ => False

lemma mem_memberStart {t : Terminal} : t ∈ memberStart ↔ (∃ m, t = .keyword (.modifier m))
    ∨ t = .keyword .classKw ∨ t = .keyword .interfaceKw ∨ t = .keyword .enumKw
    ∨ t = .keyword .attributeKw ∨ t = .name := by
  have hmodifier : t ∈ modifierTerminals ↔ ∃ m, t = .keyword (.modifier m) := by
    constructor
    · intro h
      obtain ⟨m, _, rfl⟩ := List.mem_map.1 h
      exact ⟨m, rfl⟩
    · rintro ⟨m, rfl⟩
      cases m <;> decide
  simp [memberStart, classifierStart, hmodifier]

lemma position_cases (hr : r.AtFile ∨ r.InBody) : (r.position = fileStart ∨ r.position = clauseEnd
    ∨ r.position = bodyOpened ∨ r.position = settled ∨ r.position = memberEnd)
    ∨ ∃ c, r.position = closed c := by
  obtain ⟨unit, opened, position⟩ := r
  cases position <;> simp_all [AtFile, InBody]

/-- Between declarations, a token that is no clause and adds nothing to the last declaration goes
to what is around. -/
lemma step_settle (hr : r.AtFile ∨ r.InBody) {t : Token}
    (ht : t.terminal ∈ memberStart ∨ t.terminal = .mark .rbrace) :
    r.step t = r.settle.stepDeclaration t := by
  have hcases : (∃ k, t.terminal = .keyword k ∧ k ≠ .packageKw ∧ k ≠ .importKw)
      ∨ t.terminal = .name ∨ t.terminal = .mark .rbrace := by
    rw [mem_memberStart] at ht
    rcases ht with (⟨m, h⟩ | h | h | h | h | h) | h <;> simp [h]
  have hposition := position_cases hr
  obtain ⟨unit, opened, position⟩ := r
  obtain ⟨terminal, text, start, stop⟩ := t
  dsimp only at hcases hposition
  rcases hcases with ⟨k, rfl, hpackage, himport⟩ | rfl | rfl
  · rcases hposition with (rfl | rfl | rfl | rfl | rfl) | ⟨c, rfl⟩ <;> cases opened <;> cases k <;>
      first | rfl | contradiction
  · rcases hposition with (rfl | rfl | rfl | rfl | rfl) | ⟨c, rfl⟩ <;> cases opened <;> rfl
  · rcases hposition with (rfl | rfl | rfl | rfl | rfl) | ⟨c, rfl⟩ <;> cases opened <;> rfl

lemma opened_settle (hr : r.AtFile ∨ r.InBody) : r.settle.opened = [] ↔ r.opened = [] := by
  have hposition := position_cases hr
  obtain ⟨unit, opened, position⟩ := r
  dsimp only at hposition
  rcases hposition with (rfl | rfl | rfl | rfl | rfl) | ⟨c, rfl⟩ <;> cases opened <;>
    simp [settle, addClassifier]

/-- The first token of a declaration is taken as it is after the modifiers of one. -/
lemma step_declaration (hr : r.AtFile ∨ r.InBody) {t : Token} (ht : t.terminal ∈ memberStart) :
    r.step t = { r.settle with position := modifiers { start := t.start } }.step t := by
  rw [step_settle hr (Or.inl ht)]
  generalize r.settle = s
  obtain ⟨unit, opened, position⟩ := s
  obtain ⟨terminal, text, start, stop⟩ := t
  rw [mem_memberStart] at ht
  dsimp only at ht
  rcases ht with ⟨m, rfl⟩ | rfl | rfl | rfl | rfl | rfl <;> cases opened <;> rfl

/-- The brace that closes the innermost open classifier. -/
lemma reads_rbrace (hr : r.InBody) {c : OpenClassifier} {rest : List OpenClassifier}
    (hc : r.settle.opened = c :: rest) :
    r.Reads [mark .rbrace] (fun s => ∃ stop, s = { r.settle with
      opened := rest
      position := closed (.typed (c.draft.head stop) c.heritage c.members) }) := by
  have hoffers : .mark .rbrace ∈ r.position.offers := by
    obtain ⟨unit, opened, position⟩ := r
    cases position with
    | bodyOpened | closed c | settled | memberEnd => simp [offers]
    | _ => exact absurd hr.2 id
  refine ⟨hoffers, fun _ stop => ⟨_, ?_, stop, rfl⟩⟩
  rw [step_settle (Or.inr hr) (Or.inr rfl)]
  simp [stepDeclaration, closeClassifier, hc]

lemma offers_declaration (hr : r.AtFile ∨ r.InBody) {t : Terminal}
    (ht : t ∈ classifierStart ∨ t ∈ memberStart ∧ r.InBody) :
    t ∈ r.position.offers ∧ t ∈ memberStart := by
  have hmember (h : t ∈ classifierStart) : t ∈ memberStart := List.mem_append_left _ h
  refine ⟨?_, ht.elim hmember And.left⟩
  obtain ⟨unit, opened, position⟩ := r
  rcases ht with ht | ⟨ht, hr⟩
  · rcases position_cases hr with (rfl | rfl | rfl | rfl | rfl) | ⟨c, rfl⟩
    · exact List.mem_append_left _ ht
    · exact List.mem_append_left _ ht
    all_goals exact List.mem_append_left _ (hmember ht)
  · cases position with
    | bodyOpened | closed c | settled | memberEnd => exact List.mem_append_left _ ht
    | _ => exact absurd hr.2 id

/-- Modifiers are read before anything with which a declaration goes on. -/
lemma reads_modifiers (hr : r.AtFile ∨ r.InBody) (h : Head) {w : Word}
    (hw : w.terminal ∈ classifierStart ∨ w.terminal ∈ memberStart ∧ r.InBody)
    (hws : ∀ o : Opening, o.modifiers = h.modifiers →
      { r.settle with position := modifiers o }.Reads (w :: ws) Q) :
    r.Reads (h.modifierWords ++ w :: ws) Q := by
  have hmore (ms : List Modifier) (o : Opening) (ho : o.modifiers ++ ms = h.modifiers) :
      { r.settle with position := modifiers o }.Reads
        (ms.map (keyword <| .modifier ·) ++ w :: ws) Q := by
    induction ms generalizing o with
    | nil => exact hws o (by simpa using ho)
    | cons m ms ih =>
      refine reads_step (s := { r.settle with
          position := modifiers { o with modifiers := o.modifiers ++ [m] } }) ?_ ?_ ?_
      · exact mem_memberStart.2 (Or.inl ⟨m, rfl⟩)
      · intro _ _
        simp [step, stepOpening, stepMember, goTo]
      · exact ih _ (by simpa using ho)
  have hfirst (v : Word) (vs : List Word)
      (hv : v.terminal ∈ classifierStart ∨ v.terminal ∈ memberStart ∧ r.InBody)
      (h : ∀ start, { r.settle with position := modifiers { start } }.Reads (v :: vs) Q) :
      r.Reads (v :: vs) Q := by
    obtain ⟨hoffers, hmember⟩ := offers_declaration hr hv
    refine ⟨hoffers, fun start stop => ?_⟩
    rw [step_declaration hr hmember]
    exact (h start).2 start stop
  have hstart (start : Place) := hmore h.modifiers { start } rfl
  cases hms : h.modifiers with
  | nil =>
    rw [hms] at hstart
    rw [Head.modifierWords, hms]
    exact hfirst w ws hw hstart
  | cons m ms =>
    rw [hms] at hstart
    rw [Head.modifierWords, hms]
    refine hfirst _ _ (Or.inl ?_) hstart
    cases m <;> decide

end Declarations

end Reader

end DeclGraph
