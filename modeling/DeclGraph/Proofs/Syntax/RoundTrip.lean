import DeclGraph.Proofs.Syntax.Reading

/-!
Reading what was written: the text of a compilation unit is read as that unit, whatever it declares
and however deep. Only places and documentation comments, which are not written, are not found
again.
-/

namespace DeclGraph

open Lexeme Word

/-!
### Units without places and comments
-/

def Loc.nowhere : Loc := ⟨0, 0, 0, 0⟩

def Head.bare (h : Head) : Head := { h with loc := .nowhere, doc := none }

def AttributeDecl.bare (a : AttributeDecl) : AttributeDecl := { a with head := a.head.bare }

def OperationDecl.bare (o : OperationDecl) : OperationDecl := { o with head := o.head.bare }

def ImportClause.bare (i : ImportClause) : ImportClause := { i with loc := .nowhere }

mutual

def Classifier.bare : Classifier → Classifier
  | .typed head heritage members => .typed head.bare heritage (Member.bareAll members)
  | .enumeration head interfaces literals => .enumeration head.bare interfaces literals

def Member.bare : Member → Member
  | .attr a => .attr a.bare
  | .operation o => .operation o.bare
  | .classifier c => .classifier c.bare

def Member.bareAll : List Member → List Member
  | [] => []
  | m :: rest => m.bare :: Member.bareAll rest

end

/-- A unit without the places of its parts and their documentation comments. -/
def CompilationUnit.bare (u : CompilationUnit) : CompilationUnit where
  package := u.package.map fun (name, _) => (name, .nowhere)
  imports := u.imports.map ImportClause.bare
  definitions := u.definitions.map Classifier.bare
  file := u.file

/-!
### Units that can be written
-/

def TypeRef.Proper (t : TypeRef) : Prop := IsName t.name

structure Param.Proper (p : Param) : Prop where
  name : IsName p.name
  type : p.type.Proper
  direction : p.direction ≠ .result

structure AttributeDecl.Proper (a : AttributeDecl) : Prop where
  name : IsName a.head.name
  type : a.type.Proper
  initializer : ∀ text ∈ a.initializer, IsInitializer text

structure OperationDecl.Proper (o : OperationDecl) : Prop where
  name : IsName o.head.name
  returnType : ∀ t ∈ o.returnType, t.Proper
  params : ∀ p ∈ o.params, p.Proper
  raises : ∀ e ∈ o.raises, IsName e

/-- The names of what a class or an interface builds on. -/
def Heritage.names : Heritage → List String
  | .ofClass superclass interfaces => superclass.toList ++ interfaces
  | .ofInterface parents => parents

mutual

def Classifier.Proper : Classifier → Prop
  | .typed head heritage members =>
    IsName head.name ∧ (∀ n ∈ heritage.names, IsName n) ∧ Member.ProperAll members
  | .enumeration head interfaces literals =>
    IsName head.name ∧ (∀ n ∈ interfaces, IsName n) ∧ ∀ n ∈ literals, IsName n

def Member.Proper : Member → Prop
  | .attr a => a.Proper
  | .operation o => o.Proper
  | .classifier c => c.Proper

def Member.ProperAll : List Member → Prop
  | [] => True
  | m :: rest => m.Proper ∧ Member.ProperAll rest

end

/-- Units whose names are names of the notation, whose initializers are initializers of it and
whose parameters are not marked as results. -/
structure CompilationUnit.Proper (u : CompilationUnit) : Prop where
  package : ∀ p ∈ u.package, IsName p.1
  imports : ∀ i ∈ u.imports, IsName i.name
  definitions : ∀ c ∈ u.definitions, c.Proper

/-!
### Written units are legible
-/

namespace Word

/-- Proper words that may stand anywhere. -/
def Plain (w : Word) : Prop := w.Proper ∧ w.terminal ≠ .initializer

variable {ws vs : List Word}

lemma plain_name {n : String} (h : IsName n) : (name n).Plain := ⟨h, by simp⟩

@[simp] lemma plain_keyword (k : Keyword) : (keyword k).Plain := ⟨rfl, by simp⟩

@[simp] lemma plain_mark (m : Mark) : (mark m).Plain := ⟨rfl, by simp⟩

@[simp] lemma plain_brackets : brackets.Plain := ⟨rfl, by simp⟩

lemma legible_of_plain (h : ∀ w ∈ ws, w.Plain) : Legible ws := by
  induction ws with
  | nil => trivial
  | cons w ws ih =>
    obtain ⟨hw, hws⟩ := List.forall_mem_cons.1 h
    exact ⟨hw.1, fun h => absurd h hw.2, ih hws⟩

lemma Legible.append (hws : Legible ws) (hvs : Legible vs) : Legible (ws ++ vs) := by
  induction ws with
  | nil => exact hvs
  | cons w ws ih =>
    refine ⟨hws.1, fun h => ?_, ih hws.2.2⟩
    cases ws with
    | nil => simpa using hws.2.1 h
    | cons v ws => exact hws.2.1 h

lemma mem_commas {w : Word} {items : List (List Word)} (h : w ∈ commas items) :
    w = mark .comma ∨ ∃ ws ∈ items, w ∈ ws := by
  cases items with
  | nil => simp [commas] at h
  | cons ws items =>
    rw [commas_cons, List.mem_append, List.mem_flatMap] at h
    rcases h with h | ⟨vs, hvs, h⟩
    · exact Or.inr ⟨ws, List.mem_cons_self, h⟩
    · rcases List.mem_cons.1 h with h | h
      · exact Or.inl h
      · exact Or.inr ⟨vs, List.mem_cons_of_mem _ hvs, h⟩

lemma plain_commas {items : List (List Word)} (h : ∀ ws ∈ items, ∀ w ∈ ws, w.Plain) :
    ∀ w ∈ commas items, w.Plain := by
  intro w hw
  rcases mem_commas hw with rfl | ⟨ws, hws, hw⟩
  · exact plain_mark _
  · exact h ws hws w hw

lemma plain_names {ns : List String} (h : ∀ n ∈ ns, IsName n) : ∀ w ∈ names ns, w.Plain := by
  refine plain_commas fun ws hws w hw => ?_
  obtain ⟨n, hn, rfl⟩ := List.mem_map.1 hws
  rw [List.mem_singleton.1 hw]
  exact plain_name (h n hn)

lemma plain_clause (k : Keyword) {ns : List String} (h : ∀ n ∈ ns, IsName n) :
    ∀ w ∈ clause k ns, w.Plain := by
  unfold clause
  split
  · simp
  · exact List.forall_mem_cons.2 ⟨plain_keyword k, plain_names h⟩

end Word

lemma TypeRef.Proper.plain {t : TypeRef} (h : t.Proper) : ∀ w ∈ t.words, w.Plain := by
  intro w hw
  simp only [words, List.mem_cons, List.mem_append, List.mem_replicate, List.cons_append] at hw
  rcases hw with rfl | ⟨_, rfl⟩ | hw
  · exact plain_name h
  · exact plain_brackets
  · split at hw
    · rw [List.mem_singleton.1 hw]
      exact plain_mark _
    · simp at hw

lemma Param.Proper.plain {p : Param} (h : p.Proper) : ∀ w ∈ p.words, w.Plain := by
  intro w hw
  simp only [words, List.mem_append, List.mem_singleton] at hw
  rcases hw with (hw | hw) | rfl
  · cases hd : p.direction <;> simp [hd, Direction.words] at hw <;> simp [hw]
  · exact h.type.plain w hw
  · exact plain_name h.name

lemma Head.plain_modifiers (h : Head) : ∀ w ∈ h.modifierWords, w.Plain := by
  intro w hw
  obtain ⟨m, _, rfl⟩ := List.mem_map.1 hw
  exact plain_keyword _

lemma Heritage.plain {h : Heritage} (hn : ∀ n ∈ h.names, IsName n) : ∀ w ∈ h.words, w.Plain := by
  cases h with
  | ofInterface parents => exact plain_clause _ hn
  | ofClass superclass interfaces =>
    intro w hw
    rcases List.mem_append.1 hw with hw | hw
    · exact plain_clause _ (fun n h => hn n (List.mem_append_left _ h)) w hw
    · exact plain_clause _ (fun n h => hn n (List.mem_append_right _ h)) w hw

lemma AttributeDecl.Proper.legible {a : AttributeDecl} (h : a.Proper) : Legible a.words := by
  have hstart : Legible (a.head.modifierWords ++ a.type.words ++ [.name a.head.name]) := by
    refine legible_of_plain fun w hw => ?_
    simp only [List.mem_append, List.mem_singleton] at hw
    rcases hw with (hw | hw) | rfl
    · exact a.head.plain_modifiers w hw
    · exact h.type.plain w hw
    · exact plain_name h.name
  have hsemicolon : Legible [.mark .semicolon] := legible_of_plain (by simp)
  rw [words, List.append_assoc]
  refine hstart.append ?_
  cases hi : a.initializer with
  | none => exact hsemicolon
  | some text =>
    have hvalue : (Word.initializer text).Proper := h.initializer text hi
    exact ⟨rfl, fun h => absurd h (by simp), hvalue, fun _ => rfl, hsemicolon⟩

lemma OperationDecl.Proper.plain {o : OperationDecl} (h : o.Proper) : ∀ w ∈ o.words, w.Plain := by
  have hreturn : ∀ w ∈ (o.returnType.map TypeRef.words).getD [], w.Plain := by
    cases ht : o.returnType with
    | none => simp
    | some t => exact (h.returnType t ht).plain
  have hparams : ∀ w ∈ commas (o.params.map Param.words), w.Plain := by
    refine plain_commas fun ws hws => ?_
    obtain ⟨p, hp, rfl⟩ := List.mem_map.1 hws
    exact (h.params p hp).plain
  have hraises : ∀ w ∈ o.raisesWords, w.Plain := by
    unfold raisesWords
    split
    · simp
    · simpa [or_imp, forall_and] using plain_names h.raises
  simp only [words, List.forall_mem_append, List.forall_mem_cons]
  exact ⟨⟨⟨⟨o.head.plain_modifiers, hreturn⟩, plain_name h.name, plain_mark _, hparams⟩,
    plain_mark _, hraises⟩, by simp⟩

mutual

lemma Classifier.legible : ∀ {c : Classifier}, c.Proper → Legible c.words
  | .typed head heritage members, ⟨hname, hheritage, hmembers⟩ => by
    have hstart : Legible (head.modifierWords ++ keyword heritage.keyword :: .name head.name ::
        heritage.words ++ [mark .lbrace]) := by
      refine legible_of_plain ?_
      simp only [List.forall_mem_append, List.forall_mem_cons]
      exact ⟨⟨head.plain_modifiers, plain_keyword _, plain_name hname, Heritage.plain hheritage⟩,
        by simp⟩
    have hend : Legible [mark .rbrace] := legible_of_plain (by simp)
    simpa [Classifier.words] using hstart.append ((Member.legibleAll hmembers).append hend)
  | .enumeration head interfaces literals, ⟨hname, hinterfaces, hliterals⟩ => by
    refine legible_of_plain ?_
    simp only [Classifier.words, List.forall_mem_append, List.forall_mem_cons]
    exact ⟨⟨⟨head.plain_modifiers, plain_keyword _, plain_name hname, plain_clause _ hinterfaces⟩,
      plain_mark _, plain_names hliterals⟩, by simp⟩

lemma Member.legible : ∀ {m : Member}, m.Proper → Legible m.words
  | .attr _, h => AttributeDecl.Proper.legible h
  | .operation _, h => legible_of_plain (OperationDecl.Proper.plain h)
  | .classifier c, h => Classifier.legible (c := c) h

lemma Member.legibleAll : ∀ {ms : List Member}, Member.ProperAll ms → Legible (Member.wordsOf ms)
  | [], _ => trivial
  | m :: _, ⟨h, hs⟩ => (Member.legible (m := m) h).append (Member.legibleAll hs)

end

/-!
### Readers of written declarations
-/

namespace Reader

open Position

variable {r s t : Reader} {ms ms' : List Member}

lemma bareAll_append (ms ms' : List Member) :
    Member.bareAll (ms ++ ms') = Member.bareAll ms ++ Member.bareAll ms' := by
  induction ms with
  | nil => rfl
  | cons m ms ih => rw [List.cons_append, Member.bareAll, ih, Member.bareAll, List.cons_append]

/-- A reader in a body has gone on to another, which found members there that are as given but for
their places and comments. -/
def Gained (r : Reader) (ms : List Member) (s : Reader) : Prop :=
  s.InBody ∧ ∃ found, Member.bareAll found = Member.bareAll ms ∧ s.settle = r.settle.extend found

lemma InBody.settle_opened (hr : r.InBody) : r.settle.opened ≠ [] :=
  mt (opened_settle (Or.inr hr)).1 hr.1

lemma gained_nil (hr : r.InBody) : r.Gained [] r :=
  ⟨hr, [], rfl, (extend_nil _).symm⟩

lemma Gained.trans (h : r.Gained ms s) (h' : s.Gained ms' t) : r.Gained (ms ++ ms') t := by
  obtain ⟨_, found, hfound, hs⟩ := h
  obtain ⟨ht, found', hfound', hs'⟩ := h'
  refine ⟨ht, found ++ found', by rw [bareAll_append, bareAll_append, hfound, hfound'], ?_⟩
  rw [hs', hs, extend_extend]

lemma gained_of_settle {m m' : Member} (hm : m'.bare = m.bare) (hs : s.InBody)
    (h : s.settle = { r.settle.extend [m'] with position := settled }) : r.Gained [m] s := by
  refine ⟨hs, [m'], by rw [Member.bareAll, hm]; rfl, ?_⟩
  rw [h, ← settle_position r, ← extend_position r.settle [m']]

lemma gained_classifier (hr : r.InBody) {c c' : Classifier} (hc : c'.bare = c.bare) :
    r.Gained [.classifier c] { r.settle with position := closed c' } :=
  gained_of_settle (by rw [Member.bare, hc, Member.bare]) ⟨hr.settle_opened, trivial⟩
    (settle_closed hr.settle_opened c')

lemma gained_member (hr : r.InBody) {m m' : Member} (hm : m'.bare = m.bare) :
    r.Gained [m] { r.settle.extend [m'] with position := memberEnd } :=
  gained_of_settle hm ⟨extend_opened hr.settle_opened _, trivial⟩ rfl

lemma head_bare {o : Opening} {h : Head} (ho : o.modifiers = h.modifiers) (stop : Nat) :
    (Draft.head ⟨o, h.name⟩ stop).bare = h.bare := by
  rw [Draft.head, Head.bare, Head.bare, ho]

lemma words_attribute (a : AttributeDecl) : a.words = a.head.modifierWords ++ (a.type.words
    ++ name a.head.name :: ((match a.initializer with
      | none => []
      | some text => [mark .equal, initializer text]) ++ [mark .semicolon])) := by
  obtain ⟨head, type, value⟩ := a
  cases value <;> simp [AttributeDecl.words]

lemma reads_attribute (hr : r.InBody) {a : AttributeDecl} (ha : a.Proper) :
    r.Reads a.words (r.Gained [.attr a]) := by
  rw [words_attribute]
  refine reads_modifiers (Or.inr hr) a.head (w := name a.type.name)
    (Or.inr ⟨by simp [memberStart], hr⟩) fun o ho => ?_
  refine reads_member hr.settle_opened o a.type a.head.name ?_
  refine (reads_value hr.settle_opened ⟨o, a.head.name⟩ a.type a.initializer ha.initializer).mono ?_
  rintro _ ⟨stop, rfl⟩
  apply gained_member hr
  rw [Member.bare, Member.bare, AttributeDecl.bare, AttributeDecl.bare, head_bare ho]

lemma reads_operation (hr : r.InBody) {o : OperationDecl} (ho : o.Proper) :
    r.Reads o.words (r.Gained [.operation o]) := by
  have hend (op : Opening) (hop : op.modifiers = o.head.modifiers) :
      { r.settle with
        position := paramsOpened { draft := ⟨op, o.head.name⟩, returnType := o.returnType } }.Reads
        (commas (o.params.map Param.words) ++ mark .rpar :: (o.raisesWords ++ [mark .semicolon]))
        (r.Gained [.operation o]) := by
    refine reads_params rfl (fun p hp => (ho.params p hp).direction) ?_
    refine (reads_raises hr.settle_opened _ o).mono ?_
    rintro _ ⟨stop, rfl⟩
    apply gained_member hr
    rw [Member.bare, Member.bare, OperationDecl.bare, OperationDecl.bare, OperationDraft.decl,
      head_bare hop]
  cases ht : o.returnType with
  | none =>
    have hwords : o.words = o.head.modifierWords ++ name o.head.name :: mark .lpar ::
        (commas (o.params.map Param.words) ++ mark .rpar ::
          (o.raisesWords ++ [mark .semicolon])) := by
      simp [OperationDecl.words, ht]
    rw [hwords]
    refine reads_modifiers (Or.inr hr) o.head (Or.inr ⟨by simp [memberStart], hr⟩) fun op hop => ?_
    have hopened : r.settle.opened.isEmpty = false := by simpa using hr.settle_opened
    refine reads_step (by simp [offers, memberStart])
      (s := { r.settle with position := memberName ⟨op, o.head.name⟩ })
      (fun _ _ => by simp [step, hopened, stepMember, goTo]) ?_
    refine reads_step (by simp [offers]) (fun _ _ => by simp [step, goTo]; rfl) ?_
    simpa [ht] using hend op hop
  | some t =>
    have hwords : o.words = o.head.modifierWords ++ (t.words ++ name o.head.name :: mark .lpar ::
        (commas (o.params.map Param.words) ++ mark .rpar ::
          (o.raisesWords ++ [mark .semicolon]))) := by
      simp [OperationDecl.words, ht]
    rw [hwords]
    refine reads_modifiers (Or.inr hr) o.head (w := name t.name)
      (Or.inr ⟨by simp [memberStart], hr⟩) fun op hop => ?_
    refine reads_member hr.settle_opened op t o.head.name ?_
    refine reads_step (by simp [offers]) (fun _ _ => by simp [step, goTo]; rfl) ?_
    simpa [ht] using hend op hop

mutual

lemma reads_classifier : ∀ {c : Classifier}, c.Proper → ∀ {r : Reader}, r.AtFile ∨ r.InBody →
    r.Reads c.words fun s => ∃ c', c'.bare = c.bare ∧ s = { r.settle with position := closed c' }
  | .typed h heritage members, ⟨_, _, hmembers⟩, r, hr => by
    have hwords : (Classifier.typed h heritage members).words = h.modifierWords ++
        keyword heritage.keyword :: name h.name :: ((heritage.words ++ [mark .lbrace])
          ++ (Member.wordsOf members ++ [mark .rbrace])) := by
      simp [Classifier.words]
    rw [hwords]
    have hword : Terminal.keyword heritage.keyword ∈ classifierStart := by
      cases heritage <;> simp [classifierStart, Heritage.keyword]
    refine reads_modifiers hr h (Or.inl hword) fun o ho => ?_
    let opened : Reader := { r.settle with
      opened := ⟨⟨o, h.name⟩, heritage, []⟩ :: r.settle.opened, position := bodyOpened }
    have hopened : opened.InBody := ⟨List.cons_ne_nil _ _, trivial⟩
    refine reads_typed o h.name heritage ((reads_members hmembers hopened).append ?_)
    rintro s ⟨hs, found, hfound, hsettle⟩
    have hclosing : s.settle.opened = ⟨⟨o, h.name⟩, heritage, found⟩ :: r.settle.opened := by
      rw [hsettle]
      rfl
    refine (reads_rbrace hs hclosing).mono ?_
    rintro _ ⟨stop, rfl⟩
    refine ⟨.typed (Draft.head ⟨o, h.name⟩ stop) heritage found, ?_, by rw [hsettle]; rfl⟩
    rw [Classifier.bare, Classifier.bare, head_bare ho, hfound]
  | .enumeration h interfaces literals, _, r, hr => by
    have hwords : (Classifier.enumeration h interfaces literals).words = h.modifierWords ++
        keyword .enumKw :: name h.name :: (clause .implementsKw interfaces ++ mark .lbrace ::
          names literals ++ [mark .rbrace]) := by
      simp [Classifier.words]
    rw [hwords]
    refine reads_modifiers hr h (Or.inl (by simp [classifierStart])) fun o ho => ?_
    refine (reads_enumeration o h.name interfaces literals).mono ?_
    rintro _ ⟨stop, rfl⟩
    exact ⟨_, by rw [Classifier.bare, Classifier.bare, head_bare ho], rfl⟩

lemma reads_oneMember : ∀ {m : Member}, m.Proper → ∀ {r : Reader}, r.InBody →
    r.Reads m.words (r.Gained [m])
  | .attr _, h, _, hr => reads_attribute hr h
  | .operation _, h, _, hr => reads_operation hr h
  | .classifier c, h, r, hr => by
    refine (reads_classifier (c := c) h (Or.inr hr)).mono ?_
    rintro _ ⟨c', hc, rfl⟩
    exact gained_classifier hr hc

lemma reads_members : ∀ {ms : List Member}, Member.ProperAll ms → ∀ {r : Reader}, r.InBody →
    r.Reads (Member.wordsOf ms) (r.Gained ms)
  | [], _, _, hr => gained_nil hr
  | m :: ms, ⟨h, hs⟩, r, hr => by
    refine (reads_oneMember (m := m) h hr).append fun s hgained => ?_
    exact (reads_members hs hgained.1).mono fun t ht => hgained.trans ht

end

section Units

/-- The reader may go on with an import clause. -/
def AtClause (r : Reader) : Prop :=
  r.opened = [] ∧ (r.position = fileStart ∨ r.position = clauseEnd)

lemma AtClause.atFile (h : r.AtClause) : r.AtFile := by
  refine ⟨h.1, ?_⟩
  rcases h.2 with h | h <;> simp [h]

lemma AtClause.settle_unit (h : r.AtClause) : r.settle.unit = r.unit := by
  rcases h.2 with h | h <;> simp [settle, h]

lemma AtFile.finish (h : r.AtFile) : r.finish = some r.settle.unit := by
  obtain ⟨unit, opened, position⟩ := r
  obtain rfl : opened = [] := h.1
  rcases position_cases (Or.inl h) with (rfl | rfl | rfl | rfl | rfl) | ⟨c, rfl⟩
  · rfl
  · rfl
  · exact absurd h.2 id
  · rfl
  · exact absurd h.2 id
  · rfl

lemma reads_package (p : Option (String × Loc)) : ({} : Reader).Reads
    (match p with
      | none => []
      | some (name, _) => [keyword .packageKw, .name name, mark .semicolon])
    (fun s => s.AtClause ∧ ∃ q : Option (String × Loc), q.map (·.1) = p.map (·.1)
      ∧ s.unit = { package := q }) := by
  cases p with
  | none => exact ⟨⟨rfl, Or.inl rfl⟩, none, rfl, rfl⟩
  | some p =>
    refine ⟨by simp [offers], fun start _ => ⟨{ position := packageWord start }, rfl, ?_⟩⟩
    refine reads_step (by simp [offers]) (s := { position := packageName start p.1 })
      (fun _ _ => by simp [step, goTo]) ?_
    refine ⟨by simp [offers], fun _ stop => ⟨{
      unit := { package := some (p.1, .between start stop) }, position := clauseEnd }, rfl, ?_⟩⟩
    exact ⟨⟨rfl, Or.inr rfl⟩, some (p.1, .between start stop), rfl, rfl⟩

lemma reads_import (hr : r.AtClause) (i : ImportClause) : r.Reads i.words
    (fun s => s.AtClause ∧ ∃ i' : ImportClause, i'.bare = i.bare
      ∧ s.unit = { r.unit with imports := r.unit.imports ++ [i'] }) := by
  obtain ⟨unit, opened, position⟩ := r
  obtain ⟨name, wildcard, loc⟩ := i
  obtain rfl : opened = [] := hr.1
  have hgained (start : Place) (stop : Nat) : ∃ i' : ImportClause,
      i'.bare = (⟨name, wildcard, loc⟩ : ImportClause).bare
        ∧ { unit with imports := unit.imports ++ [⟨name, wildcard, .between start stop⟩] }
          = { unit with imports := unit.imports ++ [i'] } :=
    ⟨⟨name, wildcard, .between start stop⟩, rfl, rfl⟩
  have hword : .keyword .importKw ∈ position.offers := by
    rcases hr.2 with rfl | rfl <;> simp [offers]
  refine ⟨hword, fun start _ => ⟨{ unit, position := importWord start }, ?_, ?_⟩⟩
  · rcases hr.2 with rfl | rfl <;> rfl
  · refine reads_step (by simp [offers]) (s := { unit, position := importName start name })
      (fun _ _ => by simp [step, goTo]) ?_
    cases wildcard with
    | false =>
      refine ⟨by simp [offers], fun _ stop => ⟨_, rfl, ⟨rfl, Or.inr rfl⟩, hgained start stop⟩⟩
    | true =>
      refine reads_step (by simp [offers]) (s := { unit, position := importWildcard start name })
        (fun _ _ => by simp [step, goTo]) ?_
      exact ⟨by simp [offers], fun _ stop => ⟨_, rfl, ⟨rfl, Or.inr rfl⟩, hgained start stop⟩⟩

lemma reads_imports (hr : r.AtClause) (is : List ImportClause) :
    r.Reads (is.flatMap ImportClause.words) (fun s => s.AtClause ∧ ∃ found : List ImportClause,
      found.map ImportClause.bare = is.map ImportClause.bare
        ∧ s.unit = { r.unit with imports := r.unit.imports ++ found }) := by
  induction is generalizing r with
  | nil => exact ⟨hr, [], rfl, by rw [List.append_nil]⟩
  | cons i is ih =>
    rw [List.flatMap_cons]
    refine (reads_import hr i).append ?_
    rintro s ⟨hs, i', hi, hunit⟩
    refine (ih hs).mono ?_
    rintro t ⟨ht, found, hfound, hunit'⟩
    exact ⟨ht, i' :: found, by simp [hi, hfound], by simp [hunit', hunit]⟩

lemma reads_definitions (hr : r.AtFile) {cs : List Classifier} (hcs : ∀ c ∈ cs, c.Proper) :
    r.Reads (cs.flatMap Classifier.words) (fun s => s.AtFile ∧ ∃ found : List Classifier,
      found.map Classifier.bare = cs.map Classifier.bare
        ∧ s.settle.unit =
          { r.settle.unit with definitions := r.settle.unit.definitions ++ found }) := by
  induction cs generalizing r with
  | nil => exact ⟨hr, [], rfl, by rw [List.append_nil]⟩
  | cons c cs ih =>
    obtain ⟨hc, hcs⟩ := List.forall_mem_cons.1 hcs
    rw [List.flatMap_cons]
    refine (reads_classifier hc (Or.inl hr)).append ?_
    rintro _ ⟨c', hc', rfl⟩
    have hopened : r.settle.opened = [] := (opened_settle (Or.inl hr)).2 hr.1
    have hclosed : { r.settle with position := closed c' }.AtFile := ⟨hopened, trivial⟩
    refine (ih hclosed hcs).mono ?_
    rintro t ⟨ht, found, hfound, hunit⟩
    refine ⟨ht, c' :: found, by simp [hc', hfound], ?_⟩
    rw [hunit]
    simp [settle_unit hopened]

lemma reads_unit {u : CompilationUnit} (hu : u.Proper) : ({} : Reader).Reads u.words
    (fun s => ∃ v, s.finish = some v ∧ { v with file := u.file }.bare = u.bare) := by
  rw [CompilationUnit.words, List.append_assoc]
  refine (reads_package u.package).append ?_
  rintro r ⟨hr, q, hq, hpackage⟩
  refine (reads_imports hr u.imports).append ?_
  rintro s ⟨hs, is, his, himports⟩
  refine (reads_definitions hs.atFile hu.definitions).mono ?_
  rintro t ⟨ht, cs, hcs, hdefinitions⟩
  refine ⟨t.settle.unit, ht.finish, ?_⟩
  rw [hdefinitions, hs.settle_unit, himports, hpackage]
  have hname (p : Option (String × Loc)) :
      p.map (fun (name, _) => (name, Loc.nowhere)) = (p.map (·.1)).map (·, Loc.nowhere) := by
    cases p <;> rfl
  simp only [CompilationUnit.bare, List.nil_append, hcs, his, hname, hq]

end Units

end Reader

section Documents

variable (docs : Nat → Option String)

mutual

lemma Classifier.bare_document : ∀ c : Classifier, (c.document docs).bare = c.bare
  | .typed head heritage members => by
    rw [Classifier.document, Classifier.bare, Classifier.bare, Member.bareAll_document members]
    rfl
  | .enumeration .. => rfl

lemma Member.bare_document : ∀ m : Member, (m.document docs).bare = m.bare
  | .attr _ => rfl
  | .operation _ => rfl
  | .classifier c => by
    rw [Member.document, Member.bare, Classifier.bare_document c, Member.bare]

lemma Member.bareAll_document : ∀ ms : List Member,
    Member.bareAll (Member.documentAll docs ms) = Member.bareAll ms
  | [] => rfl
  | m :: ms => by
    rw [Member.documentAll, Member.bareAll, Member.bare_document m, Member.bareAll_document ms,
      Member.bareAll]

end

end Documents

lemma CompilationUnit.bare_attachDocs (u : CompilationUnit) (docs : List DocToken) :
    (u.attachDocs docs).bare = u.bare := by
  simp [attachDocs, CompilationUnit.bare, Classifier.bare_document]

lemma CompilationUnit.Proper.legible {u : CompilationUnit} (hu : u.Proper) : Legible u.words := by
  have hpackage : Legible (match u.package with
      | none => []
      | some (name, _) => [keyword .packageKw, .name name, mark .semicolon]) := by
    cases hp : u.package with
    | none => trivial
    | some p =>
      refine legible_of_plain ?_
      simp [plain_name (hu.package p hp)]
  have himport (i : ImportClause) (hi : i ∈ u.imports) : ∀ w ∈ i.words, w.Plain := by
    have hname := plain_name (hu.imports i hi)
    cases hw : i.wildcard <;> simp [ImportClause.words, hw, hname]
  have himports : Legible (u.imports.flatMap ImportClause.words) := by
    refine legible_of_plain fun w hw => ?_
    obtain ⟨i, hi, hw⟩ := List.mem_flatMap.1 hw
    exact himport i hi w hw
  have hdefinitions (cs : List Classifier) (hcs : ∀ c ∈ cs, c.Proper) :
      Legible (cs.flatMap Classifier.words) := by
    induction cs with
    | nil => trivial
    | cons c cs ih =>
      obtain ⟨hc, hcs⟩ := List.forall_mem_cons.1 hcs
      exact (Classifier.legible hc).append (ih hcs)
  exact (hpackage.append himports).append (hdefinitions u.definitions hu.definitions)

/-- A unit that was written is read again, up to places and documentation comments. -/
theorem parseSource_render {u : CompilationUnit} (hu : u.Proper) :
    ∃ v, parseSource u.render u.file = .ok v ∧ v.bare = u.bare := by
  obtain ⟨s, hrun, v, hfinish, hv⟩ :=
    (Course.run_words (s := {}) hu.legible (Reader.reads_unit hu)).1
  have hread : readUnit u.render = .ok (v.attachDocs s.docs.reverse) := by
    rw [readUnit, CompilationUnit.render, toList_intercalate, hrun]
    simp only [bind, Except.bind, hfinish]
    rfl
  refine ⟨{ v.attachDocs s.docs.reverse with file := u.file }, ?_, ?_⟩
  · rw [parseSource, hread]
  · have hdocs := CompilationUnit.bare_attachDocs { v with file := u.file } s.docs.reverse
    exact hdocs.trans hv

/-- A unit with a declaration of each kind. -/
def specimen : CompilationUnit where
  package := some ("a", .nowhere)
  imports := [⟨"b", true, .nowhere⟩]
  definitions := [.typed ⟨"C", [.pub], .nowhere, none⟩ (.ofClass (some "D") ["E"]) [
    .attr {
      head := ⟨"f", [.static], .nowhere, none⟩
      type := { name := "T", dims := 1 }
      initializer := some "\";\"" },
    .operation {
      head := ⟨"g", [], .nowhere, none⟩
      returnType := some { name := "int" }
      params := [⟨"p", { name := "U", varargs := true }, .inout⟩]
      raises := ["X"] },
    .classifier (.enumeration ⟨"F", [], .nowhere, none⟩ [] ["L", "M"])]]

theorem parseSource_render_specimen : specimen.Proper ∧
    ∃ v, parseSource specimen.render specimen.file = .ok v ∧ v.bare = specimen.bare := by
  have hname {s : String} (h : s ∈ ["a", "b", "C", "D", "E", "f", "T", "g", "int", "p", "U", "X",
      "F", "L", "M"]) : IsName s := by
    have hall : ∀ s ∈ ["a", "b", "C", "D", "E", "f", "T", "g", "int", "p", "U", "X", "F", "L", "M"],
        s ≠ "" ∧ identifierLength s.toList = s.length
          ∧ ∀ t ∈ Terminal.literals, t.text? ≠ some s := by decide
    obtain ⟨hne, hs, hfree⟩ := hall s h
    exact isName_of_identifier hne hs hfree
  have hvalue : IsInitializer "\";\"" := by
    refine ⟨by decide, ?_, by simp [Text.isBlank], by decide⟩
    have hlength : "\";\"".length = 3 := by decide
    simp [initializerLength, valueLength, valuePieceLength, stringRest?, Text.isBlank, hlength]
  have hproper : specimen.Proper := by
    refine ⟨?_, ?_, ?_⟩
    · simp [specimen, hname]
    · simp [specimen, hname]
    · intro c hc
      rw [List.mem_singleton.1 hc]
      refine ⟨hname (by decide), by simp [Heritage.names, hname], ?_, ?_, ?_, trivial⟩
      · exact ⟨hname (by decide), hname (by decide), by simp [hvalue]⟩
      · refine ⟨hname (by decide), by simp [TypeRef.Proper, hname], ?_, by simp [hname]⟩
        simp only [List.forall_mem_singleton]
        exact ⟨hname (by decide), hname (by decide), by decide⟩
      · exact ⟨hname (by decide), by simp, by simp [hname]⟩
  exact ⟨hproper, parseSource_render hproper⟩

end DeclGraph
