import DeclGraph.Proofs.Syntax.Spans

/-!
Where the clauses and the declarations of a unit stand in its text: at their tokens, one after the
other, members inside of what declares them.
-/

namespace DeclGraph

def Member.head : Member → Head
  | attr a => a.head
  | operation o => o.head
  | classifier c => c.head

/-- The members of a class or an interface; other declarations have none. -/
def Member.members : Member → List Member
  | classifier (.typed _ _ members) => members
  | _ => []

mutual

/-- A classifier and what is declared in it at any depth, in order. -/
def Classifier.declarations : Classifier → List Member
  | .typed head heritage members =>
    .classifier (.typed head heritage members) :: Member.declarationsOf members
  | .enumeration head interfaces literals => [.classifier (.enumeration head interfaces literals)]

/-- A member and what is declared in it at any depth, in order. -/
def Member.declarations : Member → List Member
  | .attr a => [.attr a]
  | .operation o => [.operation o]
  | .classifier c => c.declarations

def Member.declarationsOf : List Member → List Member
  | [] => []
  | m :: rest => m.declarations ++ Member.declarationsOf rest

end

/-- All declarations of a unit. -/
def CompilationUnit.declarations (u : CompilationUnit) : List Member :=
  Member.declarationsOf (u.definitions.map .classifier)

/-- The extents of what a unit consists of: the package clause, the imports and the classifiers. -/
def CompilationUnit.locs (u : CompilationUnit) : List Loc :=
  u.package.toList.map (·.2) ++ u.imports.map (·.loc) ++ u.definitions.map (·.head.loc)

/-- An extent that is a part of a text and not empty. Its line is one more than the line ends
before it, its column one more than the characters after the last of them. -/
structure Loc.StandsIn (l : Loc) (text : List Char) : Prop where
  lt : l.start < l.stop
  le : l.stop ≤ text.length
  line : l.line = 1 + (text.take l.start).count '\n'
  column : l.column = 1 + ((text.take l.start).reverse.takeWhile (· ≠ '\n')).length

def Loc.Before (l l' : Loc) : Prop := l.stop ≤ l'.start

/-- Tokens that do not start with a semicolon. -/
def Settled (ts : List Token) : Prop := ∀ t ∈ ts.head?, t.terminal ≠ .mark .semicolon

/-- A stretch of tokens without a semicolon right after it. -/
def Stretch (us ts : List Token) : Prop :=
  ∃ before after, ts = before ++ (us ++ after) ∧ Settled after

/-- The extents in a unit are those of its tokens in the text. -/
structure CompilationUnit.PlacedIn (u : CompilationUnit) (text : List Char) (ts : List Token) :
    Prop where
  package : ∀ p ∈ u.package, p.2.StandsIn text
    ∧ ∃ us, Stretch us ts ∧ Sentence (Token.IsKeyword .packageKw) p.2 us
  imports : ∀ i ∈ u.imports, i.loc.StandsIn text
    ∧ ∃ us, Stretch us ts ∧ Sentence (Token.IsKeyword .importKw) i.loc us
  declarations : ∀ d ∈ u.declarations, d.head.loc.StandsIn text
    ∧ ∃ us, Stretch us ts ∧ d.Spans us
  inside : ∀ d ∈ u.declarations, ∀ m ∈ d.members,
    d.head.loc.start < m.head.loc.start ∧ m.head.loc.stop < d.head.loc.stop
  siblings : u.locs.Pairwise Loc.Before
  members : ∀ d ∈ u.declarations, (d.members.map (·.head.loc)).Pairwise Loc.Before

namespace Place

lemma advance_concat (p : Place) (s : List Char) (c : Char) :
    p.advance (s ++ [c]) = (p.advance s).next c := advance_append p s [c]

lemma line_advance (p : Place) (s : List Char) : (p.advance s).line = p.line + s.count '\n' := by
  induction s using List.reverseRecOn with
  | nil => rfl
  | append_singleton s c ih =>
    rw [advance_concat, next, List.count_append, ← Nat.add_assoc, ← ih]
    split
    · next hc => simp [hc]
    · next hc => simp [hc]

lemma column_advance (s : List Char) :
    (advance {} s).column = 1 + (s.reverse.takeWhile (· ≠ '\n')).length := by
  induction s using List.reverseRecOn with
  | nil => rfl
  | append_singleton s c ih =>
    rw [advance_concat, next, List.reverse_append, List.reverse_singleton, List.singleton_append]
    split
    · next hc => simp [hc]
    · next hc =>
      rw [List.takeWhile_cons_of_pos (by simpa using hc), List.length_cons, ih, Nat.add_assoc]

end Place

/-!
### Extents of tokens
-/

section Extents

variable {l l' : Loc} {ts us after : List Token} {text : List Char}
  {first : Token → Prop}

lemma Loc.Covers.lt (h : l.Covers ts) (ho : Token.InOrder ts)
    (hlt : ∀ t ∈ ts, t.start.offset < t.stop) : l.start < l.stop := by
  obtain ⟨a, ha, z, hz, rfl⟩ := h
  have hzmem := List.mem_of_getLast? hz
  cases ts with
  | nil => cases ha
  | cons b ts =>
    obtain rfl : b = a := Option.some_inj.1 ha
    rcases List.mem_cons.1 hzmem with rfl | hmem
    · exact hlt z hzmem
    · exact (hlt b (List.mem_cons_self ..)).trans
        (((List.pairwise_cons.1 ho).1 z hmem).trans_lt (hlt z hzmem))

/-- What the tokens of a text cover stands in the text. -/
lemma Loc.Covers.standsIn (h : l.Covers ts) (ho : Token.InOrder ts)
    (hts : ∀ t ∈ ts, t.StandsIn {} text) : l.StandsIn text := by
  have hlt := h.lt ho fun t ht => (hts t ht).lt
  obtain ⟨a, ha, z, hz, rfl⟩ := h
  obtain ⟨b, _, htext, hstart, -⟩ := (hts a (List.mem_of_mem_head? ha)).extent
  have htake : text.take a.start.offset = b := by
    rw [hstart, Place.offset_advance, htext]
    simp
  have hplace : Place.advance {} (text.take a.start.offset) = a.start := by rw [htake, hstart]
  refine ⟨hlt, ?_, ?_, ?_⟩
  · have hle := (hts z (List.mem_of_getLast? hz)).stop_le
    rwa [Nat.zero_add] at hle
  · have hline := Place.line_advance {} (text.take a.start.offset)
    rwa [hplace] at hline
  · have hcolumn := Place.column_advance (text.take a.start.offset)
    rwa [hplace] at hcolumn

lemma Loc.Covers.before (h : l.Covers ts) (h' : l'.Covers us) (ho : Token.InOrder (ts ++ us)) :
    l.Before l' := by
  obtain ⟨-, -, z, hz, rfl⟩ := h
  obtain ⟨a, ha, -, -, rfl⟩ := h'
  exact (List.pairwise_append.1 ho).2.2 z (List.mem_of_getLast? hz) a (List.mem_of_mem_head? ha)

lemma Stretch.isInfix (h : Stretch us ts) : us <:+: ts := by
  obtain ⟨before, after, rfl, -⟩ := h
  exact List.infix_append' _ _ _

lemma settled_append (hts : Settled ts) (hus : Settled us) : Settled (ts ++ us) := by
  cases ts with
  | nil => exact hus
  | cons t ts => exact hts

lemma Stretch.within (h : Stretch us ts) (before : List Token) (hafter : Settled after) :
    Stretch us (before ++ (ts ++ after)) := by
  obtain ⟨b, a, rfl, ha⟩ := h
  exact ⟨before ++ b, a ++ after, by simp, settled_append ha hafter⟩

lemma Stretch.behind (h : Stretch us ts) (before : List Token) : Stretch us (before ++ ts) := by
  obtain ⟨b, a, rfl, ha⟩ := h
  exact ⟨before ++ b, a, by simp, ha⟩

lemma stretch_self (ts : List Token) : Stretch ts ts := ⟨[], [], by simp, by simp [Settled]⟩

lemma Stretch.trans {vs : List Token} (h : Stretch vs us) (h' : Stretch us ts) : Stretch vs ts := by
  obtain ⟨before, after, rfl, hafter⟩ := h'
  exact h.within before hafter

lemma Intro.settled (h : Intro first ts) (us : List Token) : Settled (ts ++ us) := by
  obtain ⟨⟨a, ha, -⟩, hinner⟩ := h
  cases ts with
  | nil => cases ha
  | cons b ts =>
    rintro t ⟨⟩
    exact (hinner b (List.mem_cons_self ..)).2.2

lemma Sentence.settled (h : Sentence first l ts) (us : List Token) : Settled (ts ++ us) := by
  obtain ⟨-, intro, z, rfl, hintro, -⟩ := h
  rw [List.append_assoc]
  exact hintro.settled _

lemma Braced.settled {body : List Token} (h : Braced first l body ts) (us : List Token) :
    Settled (ts ++ us) := by
  obtain ⟨-, intro, a, z, tail, rfl, hintro, -⟩ := h
  rw [List.append_assoc]
  exact hintro.settled _

lemma Member.Spans.settled {m : Member} (h : m.Spans ts) (us : List Token) :
    Settled (ts ++ us) := by
  cases h with
  | attr h => exact h.settled us
  | operation h => exact h.settled us
  | classifier h =>
    cases h with
    | typed _ h => exact h.settled us
    | enumeration _ h => exact h.settled us

lemma Member.Spans.covers {m : Member} (h : m.Spans ts) : m.head.loc.Covers ts := by
  cases h with
  | attr h => exact h.1
  | operation h => exact h.1
  | classifier h =>
    cases h with
    | typed _ h => exact h.1
    | enumeration _ h => exact h.1

section Lists

variable {α : Type} {R : α → List Token → Prop} {xs : List α} {tss : List (List Token)}

lemma settled_of_forall₂ (h : List.Forall₂ R xs tss)
    (hsettled : ∀ x us vs, R x us → Settled (us ++ vs)) : Settled tss.flatten := by
  cases h with
  | nil => simp [Settled]
  | cons hx _ => exact hsettled _ _ _ hx

/-- What is one of several in a row has a stretch of their tokens. -/
lemma stretch_of_forall₂ (h : List.Forall₂ R xs tss)
    (hsettled : ∀ x us vs, R x us → Settled (us ++ vs)) {x : α} (hx : x ∈ xs) :
    ∃ us, Stretch us tss.flatten ∧ R x us := by
  induction h with
  | nil => cases hx
  | @cons y us xs tss hy hrest ih =>
    rcases List.mem_cons.1 hx with rfl | hx
    · refine ⟨us, ?_, hy⟩
      exact (stretch_self us).within [] (settled_of_forall₂ hrest hsettled)
    · obtain ⟨vs, hvs, hR⟩ := ih hx
      exact ⟨vs, hvs.behind us, hR⟩

lemma exists_mem_of_forall₂ (h : List.Forall₂ R xs tss) {x : α} (hx : x ∈ xs) :
    ∃ us ∈ tss, R x us := by
  induction h with
  | nil => cases hx
  | @cons y us xs tss hy hrest ih =>
    rcases List.mem_cons.1 hx with rfl | hx
    · exact ⟨us, List.mem_cons_self .., hy⟩
    · obtain ⟨vs, hvs, hR⟩ := ih hx
      exact ⟨vs, List.mem_cons_of_mem _ hvs, hR⟩

/-- Extents of stretches in a row follow each other. -/
lemma pairwise_before {ls : List Loc} (h : List.Forall₂ Loc.Covers ls tss)
    (ho : Token.InOrder tss.flatten) : ls.Pairwise Loc.Before := by
  induction h with
  | nil => exact .nil
  | @cons l us ls tss hl hrest ih =>
    refine List.pairwise_cons.2 ⟨fun l' hl' => ?_, ih (List.pairwise_append.1 ho).2.1⟩
    obtain ⟨vs, hvs, hcovers⟩ := exists_mem_of_forall₂ hrest hl'
    exact hl.before hcovers (ho.sublist ((List.sublist_flatten_of_mem hvs).append_left us))

end Lists

/-- What has tokens before and after it inside of another extent is strictly inside. -/
lemma Loc.Covers.inside {before : List Token} (h : l.Covers (before ++ (us ++ after)))
    (h' : l'.Covers us) (hbefore : before ≠ []) (hafter : after ≠ [])
    (ho : Token.InOrder (before ++ (us ++ after)))
    (hlt : ∀ t ∈ before ++ (us ++ after), t.start.offset < t.stop) :
    l.start < l'.start ∧ l'.stop < l.stop := by
  obtain ⟨a, ha, z, hz, rfl⟩ := h
  obtain ⟨b, hb, y, hy, rfl⟩ := h'
  obtain ⟨-, hrest, houter⟩ := List.pairwise_append.1 ho
  have hb : b ∈ us := List.mem_of_mem_head? hb
  have hy : y ∈ us := List.mem_of_getLast? hy
  constructor
  · have ha : a ∈ before := by
      rw [List.head?_append_of_ne_nil _ hbefore] at ha
      exact List.mem_of_mem_head? ha
    exact (hlt a (List.mem_append_left _ ha)).trans_le
      (houter a ha b (List.mem_append_left _ hb))
  · have hz : z ∈ after := by
      rw [← List.append_assoc, List.getLast?_append_of_ne_nil _ hafter] at hz
      exact List.mem_of_getLast? hz
    exact ((List.pairwise_append.1 hrest).2.2 y hy z hz).trans_lt
      (hlt z (List.mem_append_right _ (List.mem_append_right _ hz)))

/-!
### Extents of members
-/

lemma Member.SpanAll.forall₂ {ms : List Member} (h : Member.SpanAll ms ts) :
    ∃ tss, ts = tss.flatten ∧ List.Forall₂ Member.Spans ms tss := by
  induction ms generalizing ts with
  | nil =>
    cases h
    exact ⟨[], rfl, .nil⟩
  | cons m ms ih =>
    cases h with
    | cons hm hms =>
      obtain ⟨tss, rfl, htss⟩ := ih hms
      exact ⟨_ :: tss, rfl, .cons hm htss⟩

lemma Member.SpanAll.stretch {ms : List Member} {m : Member} (h : Member.SpanAll ms ts)
    (hm : m ∈ ms) : ∃ us, Stretch us ts ∧ m.Spans us := by
  obtain ⟨tss, rfl, htss⟩ := h.forall₂
  exact stretch_of_forall₂ htss (fun _ _ vs h => h.settled vs) hm

lemma Member.SpanAll.covers {ms : List Member} (h : Member.SpanAll ms ts) :
    ∃ tss, ts = tss.flatten ∧ List.Forall₂ Loc.Covers (ms.map (·.head.loc)) tss := by
  obtain ⟨tss, rfl, htss⟩ := h.forall₂
  exact ⟨tss, rfl, List.forall₂_map_left_iff.2 (htss.imp fun _ _ h => h.covers)⟩

lemma Member.SpanAll.settled {ms : List Member} (h : Member.SpanAll ms ts) : Settled ts := by
  obtain ⟨tss, rfl, htss⟩ := h.forall₂
  exact settled_of_forall₂ htss fun _ _ vs h => h.settled vs

/-- The members of a classifier have the tokens between its braces. -/
lemma Classifier.Spans.body {head : Head} {heritage : Heritage} {members : List Member}
    (h : (Classifier.typed head heritage members).Spans ts) :
    ∃ before body after, ts = before ++ (body ++ after) ∧ before ≠ [] ∧ after ≠ []
      ∧ Settled after ∧ Member.SpanAll members body := by
  cases h with
  | @typed _ _ _ body _ hbody h =>
    obtain ⟨-, intro, a, z, tail, rfl, -, -, hz, -⟩ := h
    refine ⟨intro ++ [a], body, z :: tail, by simp, by simp, by simp, ?_, hbody⟩
    rintro t ⟨⟩
    simp [hz]

/-- What has tokens between the braces of a classifier is strictly inside of it. -/
lemma Classifier.Spans.inside {head : Head} {heritage : Heritage} {members : List Member}
    (h : (Classifier.typed head heritage members).Spans ts) (ho : Token.InOrder ts)
    (hlt : ∀ t ∈ ts, t.start.offset < t.stop) :
    ∃ body, body <:+: ts ∧ Member.SpanAll members body
      ∧ ∀ (l : Loc) us, us <:+: body → l.Covers us →
        head.loc.start < l.start ∧ l.stop < head.loc.stop := by
  have hcovers := (Member.Spans.classifier h).covers
  obtain ⟨before, body, after, rfl, hbefore, hafter, -, hbody⟩ := h.body
  refine ⟨body, by simp, hbody, fun l us hus hl => ?_⟩
  obtain ⟨b, a, rfl⟩ := hus
  have hassoc : before ++ (b ++ us ++ a ++ after) = (before ++ b) ++ (us ++ (a ++ after)) := by
    simp
  rw [hassoc] at hcovers ho hlt
  exact hcovers.inside hl (by simp [hbefore]) (by simp [hafter]) ho hlt

/-- The members of a classifier stand inside of it, one after the other. -/
lemma Classifier.Spans.members {head : Head} {heritage : Heritage} {members : List Member}
    (h : (Classifier.typed head heritage members).Spans ts) (ho : Token.InOrder ts)
    (hlt : ∀ t ∈ ts, t.start.offset < t.stop) :
    (∀ m ∈ members, head.loc.start < m.head.loc.start ∧ m.head.loc.stop < head.loc.stop)
      ∧ (members.map (·.head.loc)).Pairwise Loc.Before := by
  obtain ⟨body, hpart, hbody, hinside⟩ := h.inside ho hlt
  constructor
  · intro m hm
    obtain ⟨us, hus, hm⟩ := hbody.stretch hm
    exact hinside _ us hus.isInfix hm.covers
  · obtain ⟨tss, rfl, htss⟩ := hbody.covers
    exact pairwise_before htss (ho.sublist hpart.sublist)

mutual

/-- All declarations in a classifier have stretches of its tokens. -/
lemma Classifier.Spans.declarations : ∀ {c : Classifier} {ts : List Token}, c.Spans ts →
    ∀ d ∈ c.declarations, ∃ us, Stretch us ts ∧ d.Spans us
  | .typed head heritage members, ts, h, d, hd => by
    rcases List.mem_cons.1 hd with rfl | hd
    · exact ⟨ts, stretch_self ts, .classifier h⟩
    · obtain ⟨before, body, after, rfl, -, -, hafter, hbody⟩ := h.body
      obtain ⟨us, hus, hspans⟩ := Member.SpanAll.declarations hbody d hd
      exact ⟨us, hus.within before hafter, hspans⟩
  | .enumeration head interfaces literals, ts, h, d, hd => by
    obtain rfl := List.mem_singleton.1 hd
    exact ⟨ts, stretch_self ts, .classifier h⟩

lemma Member.Spans.declarations : ∀ {m : Member} {ts : List Token}, m.Spans ts →
    ∀ d ∈ m.declarations, ∃ us, Stretch us ts ∧ d.Spans us
  | .attr a, ts, h, d, hd => by
    obtain rfl := List.mem_singleton.1 hd
    exact ⟨ts, stretch_self ts, h⟩
  | .operation o, ts, h, d, hd => by
    obtain rfl := List.mem_singleton.1 hd
    exact ⟨ts, stretch_self ts, h⟩
  | .classifier c, ts, .classifier h, d, hd => Classifier.Spans.declarations h d hd

lemma Member.SpanAll.declarations : ∀ {ms : List Member} {ts : List Token}, Member.SpanAll ms ts →
    ∀ d ∈ Member.declarationsOf ms, ∃ us, Stretch us ts ∧ d.Spans us
  | [], _, _, _, hd => by cases hd
  | m :: ms, _, .cons hm hms, d, hd => by
    rcases List.mem_append.1 hd with hd | hd
    · obtain ⟨us, hus, hspans⟩ := Member.Spans.declarations hm d hd
      exact ⟨us, hus.within [] hms.settled, hspans⟩
    · obtain ⟨us, hus, hspans⟩ := Member.SpanAll.declarations hms d hd
      exact ⟨us, hus.behind _, hspans⟩

end

/-!
### Extents of units
-/

variable {u : CompilationUnit}

/-- The parts of a unit have its tokens. -/
lemma CompilationUnit.Spans.covers (h : u.Spans ts) :
    ∃ tss, ts = tss.flatten ∧ List.Forall₂ Loc.Covers u.locs tss := by
  obtain ⟨package, imports, definitions, rfl, hpackage, ⟨iss, rfl, himports⟩, hdefinitions⟩ := h
  obtain ⟨dss, rfl, hdss⟩ := hdefinitions.covers
  have hpss : ∃ pss, package = pss.flatten
      ∧ List.Forall₂ Loc.Covers (u.package.toList.map (·.2)) pss := by
    rcases hp : u.package with _ | ⟨name, l⟩
    · rw [hp] at hpackage
      exact ⟨[], hpackage, .nil⟩
    · rw [hp] at hpackage
      exact ⟨[package], by simp, .cons hpackage.1 .nil⟩
  obtain ⟨pss, rfl, hpss⟩ := hpss
  refine ⟨pss ++ iss ++ dss, by simp, List.rel_append (List.rel_append hpss ?_) ?_⟩
  · exact List.forall₂_map_left_iff.2 (himports.imp fun _ _ h => h.1)
  · rw [List.map_map] at hdss
    exact hdss

/-- The declarations of a unit have stretches of its tokens. -/
lemma CompilationUnit.Spans.declarations (h : u.Spans ts) {d : Member}
    (hd : d ∈ u.declarations) : ∃ us, Stretch us ts ∧ d.Spans us := by
  obtain ⟨package, imports, definitions, rfl, -, -, hdefinitions⟩ := h
  obtain ⟨us, hus, hspans⟩ := hdefinitions.declarations d hd
  exact ⟨us, hus.behind _, hspans⟩

lemma CompilationUnit.Spans.imports (h : u.Spans ts) {i : ImportClause} (hi : i ∈ u.imports) :
    ∃ us, Stretch us ts ∧ Sentence (Token.IsKeyword .importKw) i.loc us := by
  obtain ⟨package, imports, definitions, rfl, -, ⟨tss, rfl, htss⟩, hdefinitions⟩ := h
  obtain ⟨us, hus, hspans⟩ := stretch_of_forall₂ htss (fun _ _ vs h => h.settled vs) hi
  refine ⟨us, ?_, hspans⟩
  rw [List.append_assoc]
  exact hus.within package hdefinitions.settled

lemma CompilationUnit.Spans.package (h : u.Spans ts) {p : String × Loc} (hp : p ∈ u.package) :
    ∃ us, Stretch us ts ∧ Sentence (Token.IsKeyword .packageKw) p.2 us := by
  obtain ⟨package, imports, definitions, rfl, hpackage, ⟨tss, rfl, htss⟩, hdefinitions⟩ := h
  rw [Option.mem_def.1 hp] at hpackage
  refine ⟨package, ?_, hpackage⟩
  rw [List.append_assoc]
  refine (stretch_self package).within [] (settled_append ?_ hdefinitions.settled)
  exact settled_of_forall₂ htss fun _ _ vs h => h.settled vs

lemma CompilationUnit.Spans.placedIn (h : u.Spans ts) (ho : Token.InOrder ts)
    (hts : ∀ t ∈ ts, t.StandsIn {} text) : u.PlacedIn text ts := by
  have hstands {l : Loc} {us : List Token} (hus : Stretch us ts) (hl : l.Covers us) :
      l.StandsIn text :=
    hl.standsIn (ho.sublist hus.isInfix.sublist) fun t ht => hts t (hus.isInfix.subset ht)
  have hmembers {head : Head} {heritage : Heritage} {members : List Member}
      (hd : .classifier (.typed head heritage members) ∈ u.declarations) :
      (∀ m ∈ members, head.loc.start < m.head.loc.start ∧ m.head.loc.stop < head.loc.stop)
        ∧ (members.map (·.head.loc)).Pairwise Loc.Before := by
    obtain ⟨us, hus, hspans⟩ := h.declarations hd
    cases hspans with
    | classifier hspans =>
      exact hspans.members (ho.sublist hus.isInfix.sublist)
        fun t ht => (hts t (hus.isInfix.subset ht)).lt
  constructor
  · intro p hp
    obtain ⟨us, hus, hspans⟩ := h.package hp
    exact ⟨hstands hus hspans.1, us, hus, hspans⟩
  · intro i hi
    obtain ⟨us, hus, hspans⟩ := h.imports hi
    exact ⟨hstands hus hspans.1, us, hus, hspans⟩
  · intro d hd
    obtain ⟨us, hus, hspans⟩ := h.declarations hd
    exact ⟨hstands hus hspans.covers, us, hus, hspans⟩
  · rintro (a | o | ⟨head, heritage, members⟩ | ⟨head, interfaces, literals⟩) hd m hm
    case classifier.typed => exact (hmembers hd).1 m hm
    all_goals cases hm
  · obtain ⟨tss, rfl, htss⟩ := h.covers
    exact pairwise_before htss ho
  · rintro (a | o | ⟨head, heritage, members⟩ | ⟨head, interfaces, literals⟩) hd
    case classifier.typed => exact (hmembers hd).2
    all_goals exact .nil

end Extents

section Documentation

variable {docs : Nat → Option String}

mutual

/-- Documentation leaves the tokens of a declaration as they are. -/
lemma Classifier.Spans.document : ∀ {c : Classifier} {ts : List Token}, c.Spans ts →
    (c.document docs).Spans ts
  | .typed .., _, .typed hbody h => .typed (Member.SpanAll.document hbody) h
  | .enumeration .., _, .enumeration hbody h => .enumeration hbody h

lemma Member.Spans.document : ∀ {m : Member} {ts : List Token}, m.Spans ts →
    (m.document docs).Spans ts
  | .attr _, _, .attr h => .attr h
  | .operation _, _, .operation h => .operation h
  | .classifier _, _, .classifier h => .classifier (Classifier.Spans.document h)

lemma Member.SpanAll.document : ∀ {ms : List Member} {ts : List Token}, Member.SpanAll ms ts →
    Member.SpanAll (Member.documentAll docs ms) ts
  | [], _, .nil => .nil
  | _ :: _, _, .cons h hs => .cons (Member.Spans.document h) (Member.SpanAll.document hs)

end

lemma Member.documentAll_eq_map (ms : List Member) :
    Member.documentAll docs ms = ms.map (·.document docs) := by
  induction ms with
  | nil => rfl
  | cons m ms ih => rw [Member.documentAll, ih, List.map_cons]

lemma CompilationUnit.Spans.attachDocs {u : CompilationUnit} {ts : List Token} (h : u.Spans ts)
    (docs : List DocToken) (file : Option String) :
    { u.attachDocs docs with file }.Spans ts := by
  obtain ⟨package, imports, definitions, rfl, hpackage, himports, hdefinitions⟩ := h
  refine ⟨package, imports, definitions, rfl, hpackage, himports, ?_⟩
  have h : Member.SpanAll (Member.documentAll (u.docFor? docs) _) definitions :=
    hdefinitions.document
  rw [Member.documentAll_eq_map, List.map_map] at h
  rw [CompilationUnit.attachDocs, List.map_map]
  exact h

end Documentation

/-- In what is accepted, every clause and every declaration stands in the text at its own tokens,
from the first of its modifiers, keywords and names to the semicolon or the brace at its end, a
semicolon after the brace included. Members stand inside of what declares them, and siblings one
after the other. -/
theorem parseSource_places {source : String} {file : Option String} {u : CompilationUnit}
    (h : parseSource source file = .ok u) : ∃ ts s, Course.Scans [] {} source.toList ts s
      ∧ Token.InOrder ts ∧ (∀ t ∈ ts, t.StandsIn {} source.toList)
      ∧ u.PlacedIn source.toList ts := by
  obtain ⟨ts, s, v, hscans, hfinish, rfl⟩ := scans_of_parseSource h
  have haccounts : s.reader.Accounts ts := Reader.accounts_initial.feed hscans.reader
  have hspans := (haccounts.finish hfinish).attachDocs s.docs.reverse file
  exact ⟨ts, s, hscans, hscans.inOrder, hscans.standsIn, hspans.placedIn hscans.inOrder
    hscans.standsIn⟩

/-- A class with a semicolon after it, a member in it, and clauses and a comment before it. -/
def clausesAndClass : String :=
  "package a;\nimport b.*; /* c */\npublic class C \x7b\n\tint n;\n\x7d;\n"

theorem parseSource_places_clausesAndClass : ∃ u, parseSource clausesAndClass none = .ok u
    ∧ u.declarations.map (·.head.loc) = [⟨3, 1, 31, 58⟩, ⟨4, 2, 49, 55⟩]
    ∧ ∃ ts s, Course.Scans [] {} clausesAndClass.toList ts s ∧ Token.InOrder ts
      ∧ (∀ t ∈ ts, t.StandsIn {} clausesAndClass.toList)
      ∧ u.PlacedIn clausesAndClass.toList ts := by
  obtain ⟨u, hu, hlocs⟩ := exists_ok_of_map (x := parseSource clausesAndClass none)
    (f := fun u => u.declarations.map (·.head.loc)) (b := [⟨3, 1, 31, 58⟩, ⟨4, 2, 49, 55⟩])
    (by decide +kernel)
  exact ⟨u, hu, hlocs, parseSource_places hu⟩

end DeclGraph
