import DeclGraph.Proofs.Syntax.Scanning

/-!
The tokens of declarations. Each clause and each declaration has a stretch of the tokens of its
text: from its first modifier, keyword or name to the semicolon or the brace at its end. The
stretches of the members of a classifier make up what is between its braces, and those of the parts
of a unit make up all its tokens. The reader accounts for all tokens in this way as it goes.
-/

namespace DeclGraph

/-- Tokens that neither bound a body nor end a statement. -/
def Token.Inner (t : Token) : Prop :=
  t.terminal ≠ .mark .lbrace ∧ t.terminal ≠ .mark .rbrace ∧ t.terminal ≠ .mark .semicolon

/-- The first of the modifiers or, where there are none, a token of another kind. -/
def Opens (modifiers : List Modifier) (first : Token → Prop) (t : Token) : Prop :=
  match modifiers with
  | m :: _ => t.terminal = .keyword (.modifier m)
  | [] => first t

/-- A keyword. -/
def Token.IsKeyword (k : Keyword) (t : Token) : Prop := t.terminal = .keyword k

/-- A given name. -/
def Token.IsName (n : String) (t : Token) : Prop := t.terminal = .name ∧ t.string = n

/-- Inner tokens of which the first is as given. -/
def Intro (first : Token → Prop) (ts : List Token) : Prop :=
  (∃ a ∈ ts.head?, first a) ∧ ∀ t ∈ ts, t.Inner

/-- The extent from the start of the first of some tokens to the end of the last one. -/
def Loc.Covers (l : Loc) (ts : List Token) : Prop :=
  ∃ a ∈ ts.head?, ∃ z ∈ ts.getLast?, l = .between a.start z.stop

/-- Tokens up to a semicolon, with the extent of all of them. -/
def Sentence (first : Token → Prop) (l : Loc) (ts : List Token) : Prop :=
  l.Covers ts ∧ ∃ intro z, ts = intro ++ [z] ∧ Intro first intro ∧ z.terminal = .mark .semicolon

/-- Tokens with a body in braces and perhaps a semicolon after it, with the extent of all of
them. -/
def Braced (first : Token → Prop) (l : Loc) (body ts : List Token) : Prop :=
  l.Covers ts ∧ ∃ intro a z tail, ts = intro ++ a :: (body ++ z :: tail) ∧ Intro first intro
    ∧ a.terminal = .mark .lbrace ∧ z.terminal = .mark .rbrace
    ∧ (tail = [] ∨ ∃ t, tail = [t] ∧ t.terminal = .mark .semicolon)

/-- What an attribute starts with: a modifier, the keyword or its type. -/
def AttributeDecl.OpenedBy (a : AttributeDecl) : Token → Prop :=
  Opens a.head.modifiers fun t => t.IsKeyword .attributeKw ∨ t.IsName a.type.name

/-- What an operation starts with: a modifier, its type or, for a constructor, its name. -/
def OperationDecl.OpenedBy (o : OperationDecl) : Token → Prop :=
  Opens o.head.modifiers (Token.IsName ((o.returnType.map (·.name)).getD o.head.name))

mutual

/-- The tokens of a classifier, those of its members between its braces. -/
inductive Classifier.Spans : Classifier → List Token → Prop
  | typed {head : Head} {heritage : Heritage} {members : List Member} {body ts : List Token}
      (hbody : Member.SpanAll members body)
      (h : Braced (Opens head.modifiers (Token.IsKeyword heritage.keyword)) head.loc body ts) :
      Classifier.Spans (.typed head heritage members) ts
  | enumeration {head : Head} {interfaces literals : List String} {body ts : List Token}
      (hbody : ∀ t ∈ body, t.Inner)
      (h : Braced (Opens head.modifiers (Token.IsKeyword .enumKw)) head.loc body ts) :
      Classifier.Spans (.enumeration head interfaces literals) ts

/-- The tokens of a member. -/
inductive Member.Spans : Member → List Token → Prop
  | attr {a : AttributeDecl} {ts : List Token} (h : Sentence a.OpenedBy a.head.loc ts) :
      Member.Spans (.attr a) ts
  | operation {o : OperationDecl} {ts : List Token} (h : Sentence o.OpenedBy o.head.loc ts) :
      Member.Spans (.operation o) ts
  | classifier {c : Classifier} {ts : List Token} (h : Classifier.Spans c ts) :
      Member.Spans (.classifier c) ts

/-- The tokens of members, one after the other. -/
inductive Member.SpanAll : List Member → List Token → Prop
  | nil : Member.SpanAll [] []
  | cons {m : Member} {ms : List Member} {ts us : List Token} (h : Member.Spans m ts)
      (hs : Member.SpanAll ms us) : Member.SpanAll (m :: ms) (ts ++ us)

end

/-- The tokens of a unit: its clauses and its classifiers, one after the other. -/
structure CompilationUnit.SpannedBy (u : CompilationUnit) (package imports : List Token)
    (definitions : List Token) : Prop where
  package : match u.package with
    | none => package = []
    | some (_, l) => Sentence (Token.IsKeyword .packageKw) l package
  imports : ∃ tss, imports = tss.flatten
    ∧ List.Forall₂ (fun i ts => Sentence (Token.IsKeyword .importKw) i.loc ts) u.imports tss
  definitions : Member.SpanAll (u.definitions.map .classifier) definitions

def CompilationUnit.Spans (u : CompilationUnit) (ts : List Token) : Prop :=
  ∃ package imports definitions, ts = package ++ imports ++ definitions
    ∧ u.SpannedBy package imports definitions

/-!
### Tokens that make up stretches
-/

section Stretches

variable {first first' : Token → Prop} {l : Loc} {ts us : List Token} {t a z : Token}

lemma inner_of_terminal {terminal : Terminal} (h : t.terminal = terminal)
    (hinner : terminal ≠ .mark .lbrace ∧ terminal ≠ .mark .rbrace ∧ terminal ≠ .mark .semicolon :=
      by simp) : t.Inner := by
  rwa [← h] at hinner

lemma Intro.mono (h : Intro first ts) (hf : ∀ a, first a → first' a) : Intro first' ts := by
  obtain ⟨⟨a, ha, hfirst⟩, hinner⟩ := h
  exact ⟨⟨a, ha, hf a hfirst⟩, hinner⟩

lemma Intro.concat (h : Intro first ts) (ht : t.Inner) : Intro first (ts ++ [t]) := by
  obtain ⟨⟨a, ha, hfirst⟩, hinner⟩ := h
  refine ⟨⟨a, by simp [List.head?_append, Option.mem_def.1 ha], hfirst⟩, ?_⟩
  simpa [or_imp, forall_and] using ⟨hinner, ht⟩

lemma intro_singleton (hfirst : first t) (ht : t.Inner) : Intro first [t] :=
  ⟨⟨t, rfl, hfirst⟩, by simpa using ht⟩

lemma covers_of_ends (ha : a ∈ ts.head?) (hz : z ∈ ts.getLast?) :
    (Loc.between a.start z.stop).Covers ts :=
  ⟨a, ha, z, hz, rfl⟩

/-- The start of what the first token opens. -/
def StartsAt (start : Place) (first : Token → Prop) (t : Token) : Prop := t.start = start ∧ first t

lemma sentence_of_intro {start : Place} (h : Intro (StartsAt start first) ts)
    (ht : t.terminal = .mark .semicolon) :
    Sentence first (.between start t.stop) (ts ++ [t]) := by
  obtain ⟨⟨a, ha, rfl, hfirst⟩, hinner⟩ := h
  refine ⟨covers_of_ends ?_ (by simp), ts, t, rfl, ⟨⟨a, ha, hfirst⟩, hinner⟩, ht⟩
  simp [List.head?_append, Option.mem_def.1 ha]

lemma braced_of_intro {start : Place} {body : List Token} (h : Intro (StartsAt start first) ts)
    (ha : a.terminal = .mark .lbrace) (hz : z.terminal = .mark .rbrace) :
    Braced first (.between start z.stop) body (ts ++ a :: body ++ [z]) := by
  obtain ⟨⟨b, hb, rfl, hfirst⟩, hinner⟩ := h
  refine ⟨covers_of_ends ?_ (by simp [List.getLast?_cons]), ts, a, z, [], by simp,
    ⟨⟨b, hb, hfirst⟩, hinner⟩, ha, hz, Or.inl rfl⟩
  simp [List.head?_append, Option.mem_def.1 hb]

/-- A semicolon after the closing brace moves the end. -/
lemma Braced.semicolon {body : List Token} (h : Braced first l body ts)
    (hz : ∀ z ∈ ts.getLast?, z.terminal = .mark .rbrace) (ht : t.terminal = .mark .semicolon) :
    Braced first { l with stop := t.stop } body (ts ++ [t]) := by
  obtain ⟨⟨a, ha, z, -, rfl⟩, intro, b, z', tail, rfl, hintro, hb, hz', htail⟩ := h
  obtain rfl : tail = [] := by
    rcases htail with rfl | ⟨s, rfl, hs⟩
    · rfl
    · have := hz s (by simp [List.getLast?_cons])
      rw [hs] at this
      cases this
  refine ⟨⟨a, ?_, t, by simp [List.getLast?_cons], rfl⟩, intro, b, z', [t], by simp, hintro, hb,
    hz', Or.inr ⟨t, rfl, ht⟩⟩
  rw [List.head?_append, Option.mem_def.1 ha]
  rfl

lemma Classifier.Spans.semicolon {c : Classifier} (h : c.Spans ts)
    (hz : ∀ z ∈ ts.getLast?, z.terminal = .mark .rbrace) (ht : t.terminal = .mark .semicolon) :
    (c.withStop t.stop).Spans (ts ++ [t]) := by
  cases h with
  | typed hbody h => exact .typed hbody (h.semicolon hz ht)
  | enumeration hbody h => exact .enumeration hbody (h.semicolon hz ht)

lemma Member.SpanAll.concat {ms : List Member} {m : Member} (h : Member.SpanAll ms ts)
    (hm : m.Spans us) : Member.SpanAll (ms ++ [m]) (ts ++ us) := by
  induction ms generalizing ts with
  | nil =>
    cases h
    simpa using Member.SpanAll.cons hm .nil
  | cons n ms ih =>
    cases h with
    | cons hn hms =>
      rw [List.cons_append, List.append_assoc]
      exact .cons hn (ih hms)

variable {u : CompilationUnit}

lemma CompilationUnit.spans_empty : ({} : CompilationUnit).Spans [] :=
  ⟨[], [], [], rfl, rfl, ⟨[], rfl, .nil⟩, .nil⟩

lemma CompilationUnit.spans_package {name : String}
    (h : Sentence (Token.IsKeyword .packageKw) l ts) :
    ({ package := some (name, l) } : CompilationUnit).Spans ts :=
  ⟨ts, [], [], by simp, h, ⟨[], rfl, .nil⟩, .nil⟩

lemma CompilationUnit.Spans.addImport (h : u.Spans ts) (hdefinitions : u.definitions = [])
    {i : ImportClause} (hi : Sentence (Token.IsKeyword .importKw) i.loc us) :
    { u with imports := u.imports ++ [i] }.Spans (ts ++ us) := by
  obtain ⟨package, imports, definitions, rfl, hpackage, ⟨tss, rfl, htss⟩, hspans⟩ := h
  rw [hdefinitions] at hspans
  cases hspans
  refine ⟨package, tss.flatten ++ us, [], by simp, hpackage, ⟨tss ++ [us], by simp, ?_⟩, ?_⟩
  · exact List.rel_append htss (.cons hi .nil)
  · rw [hdefinitions]
    exact .nil

lemma CompilationUnit.Spans.addDefinition (h : u.Spans ts) {c : Classifier} (hc : c.Spans us) :
    { u with definitions := u.definitions ++ [c] }.Spans (ts ++ us) := by
  obtain ⟨package, imports, definitions, rfl, hpackage, himports, hspans⟩ := h
  refine ⟨package, imports, definitions ++ us, by simp, hpackage, himports, ?_⟩
  rw [List.map_append]
  exact hspans.concat (.classifier hc)

end Stretches

/-!
### What a reader accounts for
-/

/-- What the first token of a declaration with this opening is. -/
def Opening.Begins (o : Opening) (first : Token → Prop) : Token → Prop :=
  StartsAt o.start (Opens o.modifiers first)

def OperationDraft.Begins (op : OperationDraft) : Token → Prop :=
  op.draft.opening.Begins (Token.IsName ((op.returnType.map (·.name)).getD op.draft.name))

def ClassifierWord.keyword : ClassifierWord → Keyword
  | classWord => .classKw
  | interfaceWord => .interfaceKw
  | enumWord => .enumKw

def ListUse.Begins : ListUse → Token → Prop
  | classInterfaces d _ => d.opening.Begins (Token.IsKeyword .classKw)
  | interfaceParents d => d.opening.Begins (Token.IsKeyword .interfaceKw)
  | enumInterfaces d => d.opening.Begins (Token.IsKeyword .enumKw)
  | raised op => op.Begins

/-- What the first token of a declaration is when its type, or the type of a parameter, was read. -/
def TypeUse.Begins (type : TypeRef) : TypeUse → Token → Prop
  | field o => o.Begins (Token.IsKeyword .attributeKw)
  | member o => o.Begins (Token.IsName type.name)
  | parameter op _ => op.Begins

namespace Position

/-- What the first token is of a declaration or clause in which a reader stands. -/
def Begins : Position → Token → Prop
  | packageWord start | packageName start _ => StartsAt start (Token.IsKeyword .packageKw)
  | importWord start | importName start _ | importWildcard start _ =>
    StartsAt start (Token.IsKeyword .importKw)
  | modifiers o => o.Begins fun _ => False
  | classifierWord word o => o.Begins (Token.IsKeyword word.keyword)
  | className d | extendsWord d | superclass d _ => d.opening.Begins (Token.IsKeyword .classKw)
  | interfaceName d => d.opening.Begins (Token.IsKeyword .interfaceKw)
  | enumName d => d.opening.Begins (Token.IsKeyword .enumKw)
  | listNext use _ | listName use _ => use.Begins
  | attributeWord o => o.Begins (Token.IsKeyword .attributeKw)
  | memberName d => d.opening.Begins (Token.IsName d.name)
  | typeNext (.parameter op _) => op.Begins
  | typed use type | typeEnd use type => use.Begins type
  | fieldName d _ => d.opening.Begins (Token.IsKeyword .attributeKw)
  | typedName d type => d.opening.Begins (Token.IsName type.name)
  | equalSign d type | initialValue d type _ =>
    d.opening.Begins fun t => t.IsKeyword .attributeKw ∨ t.IsName type.name
  | paramsOpened op | paramsNext op | param op | paramsClosed op | raisesWord op
  | raisesClosed op _ => op.Begins
  | _ => fun _ => False

/-- The tokens of the declaration or clause in which a reader stands. -/
def Pending : Position → List Token → Prop
  | fileStart, ts | clauseEnd, ts | bodyOpened, ts | settled, ts | memberEnd, ts => ts = []
  | closed c, ts => c.Spans ts ∧ ∀ z ∈ ts.getLast?, z.terminal = .mark .rbrace
  | enumOpened d _, ts | literal d _ _, ts | literalComma d _ _, ts =>
    ∃ intro a body, ts = intro ++ a :: body
      ∧ Intro (d.opening.Begins (Token.IsKeyword .enumKw)) intro ∧ a.terminal = .mark .lbrace
      ∧ ∀ t ∈ body, t.Inner
  | p, ts => Intro p.Begins ts

/-- The positions before the first declaration. -/
def InClauses : Position → Prop
  | fileStart | packageWord _ | packageName .. | clauseEnd | importWord _ | importName ..
  | importWildcard .. => True
  | _ => False

/-- The positions before the first import clause. -/
def InPackage : Position → Prop
  | fileStart | packageWord _ | packageName .. => True
  | _ => False

end Position

def OpenClassifier.Begins (c : OpenClassifier) : Token → Prop :=
  c.draft.opening.Begins (Token.IsKeyword c.heritage.keyword)

/-- The tokens of a unit and of the classifiers that are open at its end, innermost first. -/
def OpenSpans (u : CompilationUnit) : List OpenClassifier → List Token → Prop
  | [], ts => u.Spans ts
  | c :: rest, ts => ∃ outer intro a body, ts = outer ++ (intro ++ a :: body)
    ∧ OpenSpans u rest outer ∧ Intro c.Begins intro ∧ a.terminal = .mark .lbrace
    ∧ Member.SpanAll c.members body

/-- The tokens are those of what a reader has read: complete, open or pending. -/
structure Reader.Accounts (r : Reader) (ts : List Token) : Prop where
  parts : ∃ done pending, ts = done ++ pending ∧ OpenSpans r.unit r.opened done
    ∧ r.position.Pending pending
  clauses : r.position.InClauses → r.opened = [] ∧ r.unit.definitions = []
  package : r.position.InPackage → r.unit = {}

lemma OpenSpans.addMember {u : CompilationUnit} {c : OpenClassifier} {rest : List OpenClassifier}
    {ts us : List Token} (h : OpenSpans u (c :: rest) ts) {m : Member} (hm : m.Spans us) :
    OpenSpans u ({ c with members := c.members ++ [m] } :: rest) (ts ++ us) := by
  obtain ⟨outer, intro, a, body, rfl, houter, hintro, ha, hbody⟩ := h
  exact ⟨outer, intro, a, body ++ us, by simp, houter, hintro, ha, hbody.concat hm⟩

lemma OpenSpans.addClassifier {r : Reader} {ts us : List Token}
    (h : OpenSpans r.unit r.opened ts) {c : Classifier} (hc : c.Spans us) :
    OpenSpans (r.addClassifier c).unit (r.addClassifier c).opened (ts ++ us) := by
  obtain ⟨unit, opened, position⟩ := r
  cases opened with
  | nil => exact h.addDefinition hc
  | cons o rest => exact OpenSpans.addMember h (.classifier hc)

namespace Reader

open Position

variable {r r' : Reader} {first : Token → Prop} {t : Token} {ts us : List Token}

/-- The reader only moves to another position, where the tokens read before in the same declaration
and this one are pending. -/
def Moves (r : Reader) (first : Token → Prop) (t : Token) (r' : Reader) : Prop :=
  ∃ q : Position, r' = { r with position := q } ∧ ¬q.InClauses
    ∧ ∀ ps, Intro first ps → q.Pending (ps ++ [t])

lemma not_inPackage {q : Position} (h : ¬q.InClauses) : ¬q.InPackage := by
  cases q <;> simp_all [Position.InClauses, Position.InPackage]

lemma moves_goTo {q : Position} (hq : ∀ ps, Intro q.Begins ps → q.Pending ps)
    (hclauses : ¬q.InClauses) (hfirst : ∀ a, first a → q.Begins a) (ht : t.Inner)
    (h : r.goTo q = some r') : r.Moves first t r' := by
  cases h
  exact ⟨q, rfl, hclauses, fun ps hps => hq _ ((hps.mono hfirst).concat ht)⟩

/-- A token that stays pending. -/
lemma Accounts.setPosition {q : Position} (h : r.Accounts ts)
    (hq : ∀ ps, r.position.Pending ps → q.Pending (ps ++ [t]))
    (hclauses : q.InClauses → r.position.InClauses)
    (hpackage : q.InPackage → r.position.InPackage) :
    { r with position := q }.Accounts (ts ++ [t]) := by
  obtain ⟨⟨done, pending, rfl, hdone, hpending⟩, hc, hp⟩ := h
  exact ⟨⟨done, pending ++ [t], by simp, hdone, hq _ hpending⟩, fun h => hc (hclauses h),
    fun h => hp (hpackage h)⟩

lemma Accounts.moves (h : r.Accounts ts) (hp : ∀ ps, r.position.Pending ps → Intro first ps)
    (hm : r.Moves first t r') : r'.Accounts (ts ++ [t]) := by
  obtain ⟨q, rfl, hclauses, hq⟩ := hm
  exact h.setPosition (fun ps hps => hq ps (hp ps hps)) (fun h => absurd h hclauses)
    fun h => absurd h (not_inPackage hclauses)

/-- The brace of a body opens a classifier. -/
lemma Accounts.opens (h : r.Accounts ts) {d : Draft} {heritage : Heritage}
    (ho : r.openClassifier d heritage = some r') (ht : t.terminal = .mark .lbrace)
    (hp : ∀ ps, r.position.Pending ps
      → Intro (d.opening.Begins (Token.IsKeyword heritage.keyword)) ps) :
    r'.Accounts (ts ++ [t]) := by
  obtain ⟨⟨done, pending, rfl, hdone, hpending⟩, -, -⟩ := h
  cases ho
  refine ⟨⟨done ++ (pending ++ [t]), [], by simp, ?_, rfl⟩, False.elim, False.elim⟩
  exact ⟨done, pending, t, [], rfl, hdone, hp _ hpending, ht, .nil⟩

/-- The semicolon of a member ends it. -/
lemma Accounts.ends (h : r.Accounts ts) {m : Member}
    (ha : (do (← r.addMember m).goTo .memberEnd) = some r')
    (hp : ∀ ps, r.position.Pending ps → m.Spans (ps ++ [t])) : r'.Accounts (ts ++ [t]) := by
  obtain ⟨⟨done, pending, rfl, hdone, hpending⟩, -, -⟩ := h
  obtain ⟨unit, opened, position⟩ := r
  cases opened with
  | nil => cases ha
  | cons c rest =>
    cases ha
    refine ⟨⟨done ++ (pending ++ [t]), [], by simp, ?_, rfl⟩, False.elim, False.elim⟩
    exact OpenSpans.addMember hdone (hp _ hpending)

section Steps

/-- After modifiers, what is no modifier says nothing about the first token. -/
lemma begins_of_modifiers {o : Opening} {a : Token} (h : o.Begins (fun _ => False) a)
    (ms : List Modifier) : Opening.Begins ⟨o.start, o.modifiers ++ ms⟩ first a := by
  obtain ⟨start, modifiers⟩ := o
  cases modifiers with
  | nil => exact absurd h.2 id
  | cons m modifiers => exact h

/-- The reader takes the first token of a declaration, or one that follows modifiers. -/
def Enters (r : Reader) (o : Opening) (t : Token) (r' : Reader) : Prop :=
  ∃ q : Position, r' = { r with position := q } ∧ ¬q.InClauses
    ∧ (∀ ps, Intro (o.Begins fun _ => False) ps → q.Pending (ps ++ [t]))
    ∧ (o = { start := t.start } → q.Pending [t])

lemma Enters.moves {o : Opening} (h : r.Enters o t r') :
    r.Moves (o.Begins fun _ => False) t r' := by
  obtain ⟨q, hr, hclauses, hq, -⟩ := h
  exact ⟨q, hr, hclauses, hq⟩

/-- Entering with a token that decides what is declared. -/
lemma enters_goTo {o : Opening} {q : Position} (hq : ∀ ps, Intro (o.Begins first) ps → q.Pending ps)
    (hclauses : ¬q.InClauses) (ht : t.Inner) (hfirst : first t) (h : r.goTo q = some r') :
    r.Enters o t r' := by
  cases h
  refine ⟨q, rfl, hclauses, fun ps hps => hq _ ?_, fun ho => hq _ ?_⟩
  · refine (hps.mono fun a ha => ?_).concat ht
    simpa using begins_of_modifiers ha []
  · rw [ho]
    exact intro_singleton ⟨rfl, hfirst⟩ ht

lemma enters_modifier {o : Opening} {m : Modifier} (ht : t.terminal = .keyword (.modifier m))
    (h : r.goTo (.modifiers { o with modifiers := o.modifiers ++ [m] }) = some r') :
    r.Enters o t r' := by
  have hinner : t.Inner := inner_of_terminal ht
  cases h
  refine ⟨_, rfl, id, fun ps hps => ?_, fun ho => ?_⟩
  · exact (hps.mono fun a ha => begins_of_modifiers ha [m]).concat hinner
  · rw [ho]
    exact intro_singleton ⟨rfl, ht⟩ hinner

lemma enters_stepOpening {o : Opening} (h : r.stepOpening o t = some r') : r.Enters o t r' := by
  unfold stepOpening at h
  split at h
  · next m ht => exact enters_modifier ht h
  · next ht =>
    exact enters_goTo (fun _ => id) id (inner_of_terminal ht) ht h
  · next ht =>
    exact enters_goTo (fun _ => id) id (inner_of_terminal ht) ht h
  · next ht =>
    exact enters_goTo (fun _ => id) id (inner_of_terminal ht) ht h
  · cases h

lemma enters_stepMember {o : Opening} (h : r.stepMember o t = some r') : r.Enters o t r' := by
  unfold stepMember at h
  split at h
  · next ht =>
    exact enters_goTo (fun _ => id) id (inner_of_terminal ht) ht h
  · next ht =>
    exact enters_goTo (fun _ => id) id (inner_of_terminal ht)
      ⟨ht, rfl⟩ h
  · exact enters_stepOpening h

/-- A token after a complete declaration, or after the clauses, starts the next one or closes the
classifier around it. -/
lemma accounts_stepDeclaration (hspans : OpenSpans r.unit r.opened ts)
    (h : r.stepDeclaration t = some r') : r'.Accounts (ts ++ [t]) := by
  have henters (he : r.Enters { start := t.start } t r') : r'.Accounts (ts ++ [t]) := by
    obtain ⟨q, rfl, hclauses, -, hq⟩ := he
    exact ⟨⟨ts, [t], rfl, hspans, hq rfl⟩, fun h => absurd h hclauses,
      fun h => absurd h (not_inPackage hclauses)⟩
  unfold stepDeclaration at h
  split at h
  · exact henters (enters_stepOpening h)
  · next c rest hopened =>
    split at h
    · next ht =>
      rw [closeClassifier, hopened] at h
      cases h
      rw [hopened] at hspans
      obtain ⟨outer, intro, a, body, rfl, houter, hintro, ha, hbody⟩ := hspans
      refine ⟨⟨outer, intro ++ a :: body ++ [t], by simp, houter, ?_, ?_⟩, False.elim, False.elim⟩
      · exact .typed hbody (braced_of_intro hintro ha ht)
      · simpa [List.getLast?_cons] using ht
    · exact henters (enters_stepMember h)

lemma moves_stepTypedName {use : TypeUse} {type : TypeRef} {n : String} (ht : t.Inner)
    (h : r.stepTypedName use type n = some r') : r.Moves (use.Begins type) t r' := by
  cases use with
  | field o => exact moves_goTo (fun _ => id) id (fun _ => id) ht h
  | member o => exact moves_goTo (fun _ => id) id (fun _ => id) ht h
  | parameter op direction => exact moves_goTo (fun _ => id) id (fun _ => id) ht h

lemma moves_stepTyped {use : TypeUse} {type : TypeRef} (h : r.stepTyped use type t = some r') :
    r.Moves (use.Begins type) t r' := by
  unfold stepTyped at h
  split at h
  · next ht =>
    refine moves_goTo (fun _ => id) id (fun a ha => ?_) (inner_of_terminal ht) h
    cases use <;> exact ha
  · next ht =>
    refine moves_goTo (fun _ => id) id (fun a ha => ?_) (inner_of_terminal ht) h
    cases use <;> exact ha
  · next ht => exact moves_stepTypedName (inner_of_terminal ht) h
  · cases h

lemma moves_stepParam {op : OperationDraft} (h : r.stepParam op t = some r') :
    r.Moves op.Begins t r' := by
  unfold stepParam at h
  split at h
  case h_5 => cases h
  all_goals next ht => exact moves_goTo (fun _ => id) id (fun _ => id) (inner_of_terminal ht) h

lemma accounts_stepListEnd {use : ListUse} {names : List String} (h : r.Accounts ts)
    (hp : ∀ ps, r.position.Pending ps → Intro use.Begins ps)
    (hstep : r.stepListEnd use names t = some r') : r'.Accounts (ts ++ [t]) := by
  unfold stepListEnd at hstep
  split at hstep
  · next ht => exact h.opens hstep ht hp
  · next ht => exact h.opens hstep ht hp
  · next d ht =>
    refine h.moves hp ?_
    cases hstep
    exact ⟨_, rfl, id, fun ps hps => ⟨ps, t, [], rfl, hps, ht, by simp⟩⟩
  · next ht =>
    exact h.moves hp (moves_goTo (fun _ => id) id (fun _ => id) (inner_of_terminal ht) hstep)
  · cases hstep

/-- A token inside a clause is pending with those before it. -/
lemma Accounts.goOnClause {p q : Position} (h : r.Accounts ts) (hp : r.position = p)
    (hstep : r.goTo q = some r') (hpackage : q.InPackage → p.InPackage)
    (hq : ∀ ps, p.Pending ps → q.Pending (ps ++ [t])) (hclauses : p.InClauses := by trivial) :
    r'.Accounts (ts ++ [t]) := by
  cases hstep
  subst hp
  exact h.setPosition hq (fun _ => hclauses) hpackage

lemma spans_empty_nil (h : ({} : CompilationUnit).Spans ts) : ts = [] := by
  obtain ⟨package, imports, definitions, rfl, hpackage, ⟨tss, rfl, htss⟩, hspans⟩ := h
  obtain rfl : package = [] := hpackage
  cases htss
  cases hspans
  rfl

/-- The semicolon of the package clause. -/
lemma Accounts.addPackage {start : Place} {name : String} (h : r.Accounts ts)
    (hp : r.position = packageName start name) (ht : t.terminal = .mark .semicolon) :
    { r with
      unit := { r.unit with package := some (name, .between start t.stop) }
      position := clauseEnd : Reader }.Accounts (ts ++ [t]) := by
  obtain ⟨unit, opened, position⟩ := r
  obtain rfl := hp
  obtain ⟨⟨done, pending, rfl, hdone, hpending⟩, hclauses, hpackage⟩ := h
  obtain ⟨rfl, -⟩ := hclauses trivial
  obtain rfl := hpackage trivial
  obtain rfl := spans_empty_nil hdone
  refine ⟨⟨pending ++ [t], [], by simp, ?_, rfl⟩, fun _ => ⟨rfl, rfl⟩, False.elim⟩
  exact CompilationUnit.spans_package (sentence_of_intro hpending ht)

/-- The semicolon of an import clause. -/
lemma Accounts.addImport {start : Place} {name : String} {wildcard : Bool} (h : r.Accounts ts)
    (hp : ∀ ps, r.position.Pending ps → Intro (StartsAt start (Token.IsKeyword .importKw)) ps)
    (hclauses : r.position.InClauses) (ht : t.terminal = .mark .semicolon)
    (hstep : r.addImport start name wildcard t = some r') : r'.Accounts (ts ++ [t]) := by
  obtain ⟨⟨done, pending, rfl, hdone, hpending⟩, hc, -⟩ := h
  obtain ⟨hopened, hdefinitions⟩ := hc hclauses
  cases hstep
  rw [hopened] at hdone
  refine ⟨⟨done ++ (pending ++ [t]), [], by simp, ?_, rfl⟩, fun _ => ⟨hopened, hdefinitions⟩,
    False.elim⟩
  rw [hopened]
  exact CompilationUnit.Spans.addImport hdone hdefinitions (sentence_of_intro (hp _ hpending) ht)

lemma Accounts.settled (h : r.Accounts ts) (hp : ∀ ps, r.position.Pending ps → ps = []) :
    OpenSpans r.unit r.opened ts := by
  obtain ⟨⟨done, pending, rfl, hdone, hpending⟩, -, -⟩ := h
  rwa [hp _ hpending, List.append_nil]

lemma accounts_stepClause (h : r.Accounts ts) (hp : r.position = fileStart ∨ r.position = clauseEnd)
    (hstep : r.stepClause t = some r') : r'.Accounts (ts ++ [t]) := by
  have hnil : ∀ ps, r.position.Pending ps → ps = [] := by
    rcases hp with hp | hp <;> exact hp ▸ fun _ => id
  have hclauses : r.position.InClauses := by
    rcases hp with hp | hp <;> exact hp ▸ trivial
  unfold stepClause at hstep
  split at hstep
  · next ht =>
    refine h.goOnClause rfl hstep False.elim (fun ps hps => ?_) hclauses
    rw [hnil ps hps]
    exact intro_singleton ⟨rfl, ht⟩ (inner_of_terminal ht)
  · exact accounts_stepDeclaration (h.settled hnil) hstep

/-- The literals of an enumeration and the commas between them. -/
lemma Accounts.goOnLiterals {p q : Position} {d : Draft} (h : r.Accounts ts) (hp : r.position = p)
    (ht : t.Inner) (hstep : r.goTo q = some r')
    (hpending : ∀ ps, p.Pending ps → (enumOpened d []).Pending ps := by exact fun _ => id)
    (hq : ∀ ps, (enumOpened d []).Pending ps → q.Pending ps := by exact fun _ => id)
    (hclauses : ¬q.InClauses := by exact id) : r'.Accounts (ts ++ [t]) := by
  cases hstep
  subst hp
  refine h.setPosition (fun ps hps => hq _ ?_) (fun h => absurd h hclauses)
    fun h => absurd h (not_inPackage hclauses)
  obtain ⟨intro, a, body, rfl, hintro, ha, hbody⟩ := hpending ps hps
  refine ⟨intro, a, body ++ [t], by simp, hintro, ha, ?_⟩
  simpa [or_imp, forall_and] using ⟨hbody, ht⟩

/-- The brace that closes an enumeration. -/
lemma Accounts.closeEnumeration {p : Position} {d : Draft} {interfaces literals : List String}
    (h : r.Accounts ts) (hp : r.position = p) (ht : t.terminal = .mark .rbrace)
    (hstep : r.closeEnumeration d interfaces literals t = some r')
    (hpending : ∀ ps, p.Pending ps → (enumOpened d []).Pending ps := by exact fun _ => id) :
    r'.Accounts (ts ++ [t]) := by
  cases hstep
  subst hp
  refine h.setPosition (fun ps hps => ?_) False.elim False.elim
  obtain ⟨intro, a, body, rfl, hintro, ha, hbody⟩ := hpending ps hps
  exact ⟨.enumeration hbody (braced_of_intro hintro ha ht), by simpa [List.getLast?_cons] using ht⟩

lemma accounts_settle {c : Classifier} (h : r.Accounts ts) (hp : r.position = closed c)
    (ht : t.terminal = .mark .semicolon)
    (hstep : (r.addClassifier (c.withStop t.stop)).goTo .settled = some r') :
    r'.Accounts (ts ++ [t]) := by
  obtain ⟨⟨done, pending, rfl, hdone, hpending⟩, -, -⟩ := h
  rw [hp] at hpending
  cases hstep
  have hc := hpending.1.semicolon hpending.2 ht
  exact ⟨⟨done ++ (pending ++ [t]), [], by simp, hdone.addClassifier hc, rfl⟩, False.elim,
    False.elim⟩

lemma accounts_closed {c : Classifier} (h : r.Accounts ts) (hp : r.position = closed c)
    (hstep : (r.addClassifier c).stepDeclaration t = some r') : r'.Accounts (ts ++ [t]) := by
  obtain ⟨⟨done, pending, rfl, hdone, hpending⟩, -, -⟩ := h
  rw [hp] at hpending
  exact accounts_stepDeclaration (hdone.addClassifier hpending.1) hstep

lemma Accounts.addAttribute {p : Position} {d : Draft} {type : TypeRef} {value : Option String}
    (h : r.Accounts ts) (hp : r.position = p) (ht : t.terminal = .mark .semicolon)
    (hstep : r.addAttribute d type value t = some r')
    (hpending : ∀ ps, p.Pending ps → Intro (d.opening.Begins fun t =>
      t.IsKeyword .attributeKw ∨ t.IsName type.name) ps) : r'.Accounts (ts ++ [t]) :=
  h.ends hstep fun ps hps => .attr (sentence_of_intro (hpending ps (hp ▸ hps)) ht)

lemma Accounts.addOperation {p : Position} {op : OperationDraft} {raises : List String}
    (h : r.Accounts ts) (hp : r.position = p) (ht : t.terminal = .mark .semicolon)
    (hstep : r.addOperation op raises t = some r')
    (hpending : ∀ ps, p.Pending ps → Intro op.Begins ps := by exact fun _ => id) :
    r'.Accounts (ts ++ [t]) :=
  h.ends hstep fun ps hps => .operation (sentence_of_intro (hpending ps (hp ▸ hps)) ht)

lemma begins_mono {o : Opening} {first' : Token → Prop} (hf : ∀ a, first a → first' a) {a : Token}
    (h : o.Begins first a) : o.Begins first' a := by
  obtain ⟨start, modifiers⟩ := o
  cases modifiers with
  | nil => exact ⟨h.1, hf a h.2⟩
  | cons m modifiers => exact h

/-- Both ways in which an attribute starts, if its type was read after the keyword. -/
lemma begins_field {o : Opening} {type : TypeRef} {ps : List Token}
    (h : Intro (o.Begins (Token.IsKeyword .attributeKw)) ps) :
    Intro (o.Begins fun t => t.IsKeyword .attributeKw ∨ t.IsName type.name) ps :=
  h.mono fun _ => begins_mono fun _ => Or.inl

lemma begins_typed {o : Opening} {type : TypeRef} {ps : List Token}
    (h : Intro (o.Begins (Token.IsName type.name)) ps) :
    Intro (o.Begins fun t => t.IsKeyword .attributeKw ∨ t.IsName type.name) ps :=
  h.mono fun _ => begins_mono fun _ => Or.inr

/-- A token inside a declaration is pending with those before it. -/
lemma Accounts.goOn {p q : Position} (h : r.Accounts ts) (hp : r.position = p) (ht : t.Inner)
    (hstep : r.goTo q = some r')
    (hpending : ∀ ps, p.Pending ps → Intro q.Begins ps := by exact fun _ => id)
    (hq : ∀ ps, Intro q.Begins ps → q.Pending ps := by exact fun _ => id)
    (hclauses : ¬q.InClauses := by exact id) : r'.Accounts (ts ++ [t]) :=
  h.moves (hp ▸ hpending) (moves_goTo hq hclauses (fun _ => id) ht hstep)

/-- A token that the reader takes is accounted for. -/
lemma Accounts.step (h : r.Accounts ts) (hstep : r.step t = some r') : r'.Accounts (ts ++ [t]) := by
  unfold Reader.step at hstep
  split at hstep
  -- the clauses
  · next hp ht =>
    refine h.goOnClause hp hstep (fun _ => trivial) fun ps hps => ?_
    obtain rfl : ps = [] := hps
    exact intro_singleton ⟨rfl, ht⟩ (inner_of_terminal ht)
  · next hp _ => exact accounts_stepClause h (Or.inl hp) hstep
  · next hp ht =>
    exact h.goOnClause hp hstep (fun _ => trivial) fun _ hps => hps.concat (inner_of_terminal ht)
  · next hp ht =>
    cases hstep
    exact h.addPackage hp ht
  · next hp => exact accounts_stepClause h (Or.inr hp) hstep
  · next hp ht =>
    exact h.goOnClause hp hstep False.elim fun _ hps => hps.concat (inner_of_terminal ht)
  · next hp ht =>
    exact h.goOnClause hp hstep False.elim fun _ hps => hps.concat (inner_of_terminal ht)
  · next hp ht => exact h.addImport (hp ▸ fun _ => id) (hp ▸ trivial) ht hstep
  · next hp ht => exact h.addImport (hp ▸ fun _ => id) (hp ▸ trivial) ht hstep
  -- modifiers and the heads of classifiers
  · next o hp =>
    have henters : r.Enters o t r' := by
      split at hstep
      · exact enters_stepOpening hstep
      · exact enters_stepMember hstep
    exact h.moves (hp ▸ fun _ => id) henters.moves
  · next hp ht => exact h.goOn hp (inner_of_terminal ht) hstep
  · next hp ht => exact h.goOn hp (inner_of_terminal ht) hstep
  · next hp ht => exact h.goOn hp (inner_of_terminal ht) hstep
  · next hp ht => exact h.goOn hp (inner_of_terminal ht) hstep
  · next hp ht => exact h.goOn hp (inner_of_terminal ht) hstep
  · next hp ht => exact h.opens hstep ht (hp ▸ fun _ => id)
  · next hp ht => exact h.goOn hp (inner_of_terminal ht) hstep
  · next hp ht => exact h.goOn hp (inner_of_terminal ht) hstep
  · next hp ht => exact h.opens hstep ht (hp ▸ fun _ => id)
  · next hp ht => exact h.goOn hp (inner_of_terminal ht) hstep
  · next hp ht => exact h.goOn hp (inner_of_terminal ht) hstep
  · next hp ht => exact h.opens hstep ht (hp ▸ fun _ => id)
  · next hp ht => exact h.goOn hp (inner_of_terminal ht) hstep
  · next hp ht =>
    cases hstep
    exact h.moves (hp ▸ fun _ => id)
      ⟨_, rfl, id, fun ps hps => ⟨ps, t, [], rfl, hps, ht, by simp⟩⟩
  -- lists of names
  · next hp ht => exact h.goOn hp (inner_of_terminal ht) hstep
  · next hp ht => exact h.goOn hp (inner_of_terminal ht) hstep
  · next hp _ => exact accounts_stepListEnd h (hp ▸ fun _ => id) hstep
  -- the bodies of enumerations
  · next hp ht => exact h.goOnLiterals hp (inner_of_terminal ht) hstep
  · next hp ht => exact h.closeEnumeration hp ht hstep
  · next hp ht => exact h.goOnLiterals hp (inner_of_terminal ht) hstep
  · next hp ht => exact h.closeEnumeration hp ht hstep
  · next hp ht => exact h.goOnLiterals hp (inner_of_terminal ht) hstep
  · next hp ht => exact h.closeEnumeration hp ht hstep
  -- between declarations
  · next hp ht => exact accounts_settle h hp ht hstep
  · next hp _ => exact accounts_closed h hp hstep
  · next hp => exact accounts_stepDeclaration (h.settled (hp ▸ fun _ => id)) hstep
  · next hp => exact accounts_stepDeclaration (h.settled (hp ▸ fun _ => id)) hstep
  · next hp => exact accounts_stepDeclaration (h.settled (hp ▸ fun _ => id)) hstep
  -- members
  · next hp ht => exact h.goOn hp (inner_of_terminal ht) hstep
  · next hp ht => exact h.goOn hp (inner_of_terminal ht) hstep
  · next hp _ => exact h.moves (hp ▸ fun _ => id) (moves_stepTyped hstep)
  · next use hp ht =>
    -- only parameters have a place before their type at which nothing else was read
    refine h.goOn hp (inner_of_terminal ht) hstep fun ps hps => ?_
    cases use with
    | parameter op direction => exact hps
    | _ =>
      obtain ⟨⟨a, -, ha⟩, -⟩ := hps
      exact absurd ha id
  · next hp => exact h.moves (hp ▸ fun _ => id) (moves_stepTyped hstep)
  · next hp ht =>
    exact h.moves (hp ▸ fun _ => id) (moves_stepTypedName (inner_of_terminal ht) hstep)
  · next hp ht => exact h.addAttribute hp ht hstep fun _ => begins_field
  · next hp ht => exact h.goOn hp (inner_of_terminal ht) hstep fun _ => begins_field
  · next hp ht => exact h.addAttribute hp ht hstep fun _ => begins_typed
  · next hp ht => exact h.goOn hp (inner_of_terminal ht) hstep fun _ => begins_typed
  · next hp ht => exact h.goOn hp (inner_of_terminal ht) hstep
  · next hp ht => exact h.goOn hp (inner_of_terminal ht) hstep
  · next hp ht => exact h.addAttribute hp ht hstep fun _ => id
  -- the parameters of operations
  · next hp ht => exact h.goOn hp (inner_of_terminal ht) hstep
  · next hp _ => exact h.moves (hp ▸ fun _ => id) (moves_stepParam hstep)
  · next hp => exact h.moves (hp ▸ fun _ => id) (moves_stepParam hstep)
  · next hp ht => exact h.goOn hp (inner_of_terminal ht) hstep
  · next hp ht => exact h.goOn hp (inner_of_terminal ht) hstep
  · next hp ht => exact h.goOn hp (inner_of_terminal ht) hstep
  · next hp ht => exact h.addOperation hp ht hstep
  · next hp ht => exact h.goOn hp (inner_of_terminal ht) hstep
  · next hp ht => exact h.addOperation hp ht hstep
  · cases hstep

end Steps

lemma accounts_initial : ({} : Reader).Accounts [] :=
  ⟨⟨[], [], rfl, CompilationUnit.spans_empty, rfl⟩, fun _ => ⟨rfl, rfl⟩, fun _ => rfl⟩

lemma feed_cons (r : Reader) (t : Token) (ts : List Token) :
    r.feed (t :: ts) = (r.step t).bind (·.feed ts) := rfl

/-- All tokens are accounted for. -/
lemma Accounts.feed (h : r.Accounts ts) (hfeed : r.feed us = some r') : r'.Accounts (ts ++ us) := by
  induction us generalizing r ts with
  | nil =>
    cases hfeed
    rwa [List.append_nil]
  | cons t us ih =>
    rw [feed_cons, Option.bind_eq_some_iff] at hfeed
    obtain ⟨r₁, hstep, hrest⟩ := hfeed
    simpa using ih (h.step hstep) hrest

/-- At the end of a text all tokens are those of complete declarations. -/
lemma Accounts.finish {u : CompilationUnit} (h : r.Accounts ts) (hfinish : r.finish = some u) :
    u.Spans ts := by
  unfold Reader.finish at hfinish
  split at hfinish
  · cases hfinish
  · next hopened =>
    rw [Bool.not_eq_true, Bool.not_eq_false', List.isEmpty_iff] at hopened
    have hsettled (hp : ∀ ps, r.position.Pending ps → ps = []) : r.unit.Spans ts := by
      have := h.settled hp
      rwa [hopened] at this
    split at hfinish
    · next hp =>
      cases hfinish
      exact hsettled (hp ▸ fun _ => id)
    · next hp =>
      cases hfinish
      exact hsettled (hp ▸ fun _ => id)
    · next hp =>
      cases hfinish
      exact hsettled (hp ▸ fun _ => id)
    · next c hp =>
      cases hfinish
      obtain ⟨⟨done, pending, rfl, hdone, hpending⟩, -, -⟩ := h
      rw [hp] at hpending
      have hc := hdone.addClassifier hpending.1
      rw [addClassifier, hopened] at hc ⊢
      exact hc
    · cases hfinish

end Reader

end DeclGraph
