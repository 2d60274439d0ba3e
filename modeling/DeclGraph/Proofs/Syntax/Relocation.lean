import DeclGraph.Proofs.Syntax.Attachment
import DeclGraph.Proofs.Syntax.RoundTrip

/-!
Units that stand elsewhere. The reader never asks where a token stands, so tokens at other places
make the same unit with other extents in it; and documentation finds the same declarations as long
as the order of comments and declarations is kept.
-/

namespace DeclGraph

/-!
### Units with other extents
-/

section Extents

variable (f : Loc → Loc)

def Head.mapLoc (h : Head) : Head := { h with loc := f h.loc }

mutual

/-- The classifier with other extents of all declarations in it. -/
def Classifier.mapLoc : Classifier → Classifier
  | .typed head heritage members => .typed (head.mapLoc f) heritage (Member.mapLocs members)
  | .enumeration head interfaces literals => .enumeration (head.mapLoc f) interfaces literals

def Member.mapLoc : Member → Member
  | .attr a => .attr { a with head := a.head.mapLoc f }
  | .operation o => .operation { o with head := o.head.mapLoc f }
  | .classifier c => .classifier c.mapLoc

def Member.mapLocs : List Member → List Member
  | [] => []
  | m :: rest => m.mapLoc :: Member.mapLocs rest

end

def CompilationUnit.mapLoc (u : CompilationUnit) : CompilationUnit where
  package := u.package.map fun (name, l) => (name, f l)
  imports := u.imports.map fun i => { i with loc := f i.loc }
  definitions := u.definitions.map (·.mapLoc f)
  file := u.file

end Extents

/-- The unit without the extents of its clauses and declarations. -/
def CompilationUnit.unplaced (u : CompilationUnit) : CompilationUnit := u.mapLoc fun _ => .nowhere

section Composition

variable (f g : Loc → Loc)

mutual

lemma Classifier.mapLoc_mapLoc : ∀ c : Classifier,
    (c.mapLoc f).mapLoc g = c.mapLoc fun l => g (f l)
  | .typed head heritage members => by
    simp only [Classifier.mapLoc, Member.mapLocs_mapLocs members]
    rfl
  | .enumeration .. => rfl

lemma Member.mapLoc_mapLoc : ∀ m : Member, (m.mapLoc f).mapLoc g = m.mapLoc fun l => g (f l)
  | .attr _ => rfl
  | .operation _ => rfl
  | .classifier c => by simp only [Member.mapLoc, Classifier.mapLoc_mapLoc c]

lemma Member.mapLocs_mapLocs : ∀ ms : List Member,
    Member.mapLocs g (Member.mapLocs f ms) = Member.mapLocs (fun l => g (f l)) ms
  | [] => rfl
  | m :: ms => by
    simp only [Member.mapLocs, Member.mapLoc_mapLoc m, Member.mapLocs_mapLocs ms]

end

lemma CompilationUnit.mapLoc_mapLoc (u : CompilationUnit) :
    (u.mapLoc f).mapLoc g = u.mapLoc fun l => g (f l) := by
  obtain ⟨package, imports, definitions, file⟩ := u
  have hdefinitions : (definitions.map (·.mapLoc f)).map (·.mapLoc g)
      = definitions.map (·.mapLoc fun l => g (f l)) := by
    simp [Classifier.mapLoc_mapLoc]
  simp only [mapLoc, hdefinitions, List.map_map]
  cases package <;> rfl

/-- Other extents do not count where there are none. -/
lemma CompilationUnit.unplaced_mapLoc (u : CompilationUnit) : (u.mapLoc f).unplaced = u.unplaced :=
  u.mapLoc_mapLoc f _

variable (docs : Nat → Option String) {docs' : Nat → Option String}

mutual

lemma Classifier.document_mapLoc (h : ∀ l : Loc, docs' (f l).start = docs l.start) :
    ∀ c : Classifier, (c.mapLoc f).document docs' = (c.document docs).mapLoc f
  | .typed head heritage members => by
    simp only [Classifier.mapLoc, Classifier.document, Member.documentAll_mapLocs h members,
      Head.mapLoc, Head.document, h]
  | .enumeration head interfaces literals => by
    simp only [Classifier.mapLoc, Classifier.document, Head.mapLoc, Head.document, h]

lemma Member.document_mapLoc (h : ∀ l : Loc, docs' (f l).start = docs l.start) :
    ∀ m : Member, (m.mapLoc f).document docs' = (m.document docs).mapLoc f
  | .attr a => by simp only [Member.mapLoc, Member.document, Head.mapLoc, Head.document, h]
  | .operation o => by simp only [Member.mapLoc, Member.document, Head.mapLoc, Head.document, h]
  | .classifier c => by simp only [Member.mapLoc, Member.document, Classifier.document_mapLoc h c]

lemma Member.documentAll_mapLocs (h : ∀ l : Loc, docs' (f l).start = docs l.start) :
    ∀ ms : List Member,
      Member.documentAll docs' (Member.mapLocs f ms) = Member.mapLocs f (Member.documentAll docs ms)
  | [] => rfl
  | m :: ms => by
    simp only [Member.mapLocs, Member.documentAll, Member.document_mapLoc h m,
      Member.documentAll_mapLocs h ms]

end

end Composition

/-- Other places for places and offsets: other starts and other ends in the same order. -/
structure Relocation where
  place : Place → Place
  start : Nat → Nat
  stop : Nat → Nat
  offset_place : ∀ p, (place p).offset = start p.offset
  start_le_start : ∀ a b, start a ≤ start b ↔ a ≤ b
  stop_le_start : ∀ a b, stop a ≤ start b ↔ a ≤ b

namespace Relocation

variable (m : Relocation)

def loc (l : Loc) : Loc := .between (m.place ⟨l.start, l.line, l.column⟩) (m.stop l.stop)

def comment (c : DocToken) : DocToken := { c with start := m.start c.start, stop := m.stop c.stop }

def token (t : Token) : Token := { t with start := m.place t.start, stop := m.stop t.stop }

@[simp] lemma start_loc (l : Loc) : (m.loc l).start = m.start l.start := m.offset_place _

lemma start_inj {a b : Nat} : m.start a = m.start b ↔ a = b := by
  simp only [le_antisymm_iff, m.start_le_start]

/-!
### Documentation of units that stand elsewhere
-/

mutual

lemma starts_classifier : ∀ c : Classifier, (c.mapLoc m.loc).starts = c.starts.map m.start
  | .typed head heritage members => by
    simp only [Classifier.mapLoc, Classifier.starts, startsOf_members members, List.map_cons,
      Head.mapLoc, start_loc]
  | .enumeration .. => by
    simp only [Classifier.mapLoc, Classifier.starts, List.map_cons, List.map_nil, Head.mapLoc,
      start_loc]

lemma starts_member : ∀ d : Member, (d.mapLoc m.loc).starts = d.starts.map m.start
  | .attr a => by simp [Member.mapLoc, Member.starts, Head.mapLoc]
  | .operation o => by simp [Member.mapLoc, Member.starts, Head.mapLoc]
  | .classifier c => starts_classifier c

lemma startsOf_members : ∀ ms : List Member,
    Member.startsOf (Member.mapLocs m.loc ms) = (Member.startsOf ms).map m.start
  | [] => rfl
  | d :: ms => by
    rw [Member.mapLocs, Member.startsOf, starts_member d, startsOf_members ms, Member.startsOf,
      List.map_append]

end

lemma starts_unit (u : CompilationUnit) : (u.mapLoc m.loc).starts = u.starts.map m.start := by
  rw [CompilationUnit.starts, CompilationUnit.mapLoc, List.flatMap_map, CompilationUnit.starts,
    List.map_flatMap]
  simp only [starts_classifier]

lemma declarationAfter?_unit (u : CompilationUnit) (c : DocToken) (k : Nat) :
    (u.mapLoc m.loc).declarationAfter? (m.comment c) = some (m.start k)
      ↔ u.declarationAfter? c = some k := by
  simp only [CompilationUnit.declarationAfter?, starts_unit, List.min?_eq_some_iff,
    List.mem_filter, List.mem_map, comment, decide_eq_true_eq, m.stop_le_start, m.start_inj,
    exists_eq_right, and_imp, forall_exists_index, forall_apply_eq_imp_iff₂, m.start_le_start]

/-- The same comments are attached to the same declarations. -/
lemma attachDocs_unit (u : CompilationUnit) (comments : List DocToken) :
    (u.mapLoc m.loc).attachDocs (comments.map m.comment)
      = (u.attachDocs comments).mapLoc m.loc := by
  have hdoc (l : Loc) : (u.mapLoc m.loc).docFor? (comments.map m.comment) (m.loc l).start
      = u.docFor? comments l.start := by
    simp only [CompilationUnit.docFor?, List.filter_map, Function.comp_def, start_loc,
      declarationAfter?_unit, List.getLast?_map, Option.map_map]
    rfl
  have hdocument (c : Classifier) :
      (c.mapLoc m.loc).document ((u.mapLoc m.loc).docFor? (comments.map m.comment))
        = (c.document (u.docFor? comments)).mapLoc m.loc :=
    c.document_mapLoc _ _ hdoc
  rw [CompilationUnit.attachDocs, CompilationUnit.attachDocs, CompilationUnit.mapLoc,
    CompilationUnit.mapLoc, List.map_map, List.map_map]
  exact congrArg (CompilationUnit.mk _ _ · _) (List.map_congr_left fun c _ => hdocument c)

/-!
### Readers of tokens that stand elsewhere
-/

def opening (o : Opening) : Opening := { o with start := m.place o.start }

def draft (d : Draft) : Draft := { d with opening := m.opening d.opening }

def operation (op : OperationDraft) : OperationDraft := { op with draft := m.draft op.draft }

def openClassifier (c : OpenClassifier) : OpenClassifier :=
  { c with draft := m.draft c.draft, members := Member.mapLocs m.loc c.members }

def listUse : ListUse → ListUse
  | .classInterfaces d superclass => .classInterfaces (m.draft d) superclass
  | .interfaceParents d => .interfaceParents (m.draft d)
  | .enumInterfaces d => .enumInterfaces (m.draft d)
  | .raised op => .raised (m.operation op)

def typeUse : TypeUse → TypeUse
  | .field o => .field (m.opening o)
  | .member o => .member (m.opening o)
  | .parameter op direction => .parameter (m.operation op) direction

open Position in
def position : Position → Position
  | fileStart => fileStart
  | packageWord start => packageWord (m.place start)
  | packageName start name => packageName (m.place start) name
  | clauseEnd => clauseEnd
  | importWord start => importWord (m.place start)
  | importName start name => importName (m.place start) name
  | importWildcard start name => importWildcard (m.place start) name
  | modifiers o => modifiers (m.opening o)
  | classifierWord word o => classifierWord word (m.opening o)
  | className d => className (m.draft d)
  | interfaceName d => interfaceName (m.draft d)
  | enumName d => enumName (m.draft d)
  | extendsWord d => extendsWord (m.draft d)
  | superclass d name => superclass (m.draft d) name
  | listNext use names => listNext (m.listUse use) names
  | listName use names => listName (m.listUse use) names
  | enumOpened d interfaces => enumOpened (m.draft d) interfaces
  | literal d interfaces literals => literal (m.draft d) interfaces literals
  | literalComma d interfaces literals => literalComma (m.draft d) interfaces literals
  | bodyOpened => bodyOpened
  | closed c => closed (c.mapLoc m.loc)
  | settled => settled
  | memberEnd => memberEnd
  | attributeWord o => attributeWord (m.opening o)
  | memberName d => memberName (m.draft d)
  | typeNext use => typeNext (m.typeUse use)
  | typed use type => typed (m.typeUse use) type
  | typeEnd use type => typeEnd (m.typeUse use) type
  | fieldName d type => fieldName (m.draft d) type
  | typedName d type => typedName (m.draft d) type
  | equalSign d type => equalSign (m.draft d) type
  | initialValue d type text => initialValue (m.draft d) type text
  | paramsOpened op => paramsOpened (m.operation op)
  | paramsNext op => paramsNext (m.operation op)
  | param op => param (m.operation op)
  | paramsClosed op => paramsClosed (m.operation op)
  | raisesWord op => raisesWord (m.operation op)
  | raisesClosed op raises => raisesClosed (m.operation op) raises

def reader (r : Reader) : Reader where
  unit := r.unit.mapLoc m.loc
  opened := r.opened.map m.openClassifier
  position := m.position r.position

variable {m} {r r' : Reader} {t : Token} {ts : List Token}

/-- What is offered does not depend on places. -/
@[simp] lemma offers_position (p : Position) : (m.position p).offers = p.offers := by
  cases p with
  | listName use names => rcases names with _ | ⟨n, _ | ⟨n', names⟩⟩ <;> rfl
  | literal d interfaces literals => rcases literals with _ | ⟨n, _ | ⟨n', names⟩⟩ <;> rfl
  | _ => rfl

lemma mapLocs_append (ms ns : List Member) :
    Member.mapLocs m.loc (ms ++ ns) = Member.mapLocs m.loc ms ++ Member.mapLocs m.loc ns := by
  induction ms with
  | nil => rfl
  | cons d ms ih => simp only [List.cons_append, Member.mapLocs, ih]

lemma reader_goTo {p : Position} (h : r.goTo p = some r') :
    (m.reader r).goTo (m.position p) = some (m.reader r') := by
  cases h
  rfl

lemma reader_addMember {d : Member} (h : r.addMember d = some r') :
    (m.reader r).addMember (d.mapLoc m.loc) = some (m.reader r') := by
  obtain ⟨unit, _ | ⟨c, rest⟩, position⟩ := r
  · cases h
  · cases h
    simp only [Reader.addMember, reader, openClassifier, List.map_cons, mapLocs_append]
    rfl

lemma reader_addClassifier (c : Classifier) :
    (m.reader r).addClassifier (c.mapLoc m.loc) = m.reader (r.addClassifier c) := by
  obtain ⟨unit, _ | ⟨o, rest⟩, position⟩ := r
  · simp [Reader.addClassifier, reader, CompilationUnit.mapLoc]
  · simp only [Reader.addClassifier, reader, openClassifier, List.map_cons, mapLocs_append]
    rfl

lemma reader_stepOpening {o : Opening} (h : r.stepOpening o t = some r') :
    (m.reader r).stepOpening (m.opening o) (m.token t) = some (m.reader r') := by
  obtain ⟨terminal, text, start, stop⟩ := t
  simp only [Reader.stepOpening] at h
  split at h <;> cases h <;> rfl

lemma stepMember_of_other {o : Opening} (hkeyword : t.terminal ≠ .keyword .attributeKw)
    (hname : t.terminal ≠ .name) : r.stepMember o t = r.stepOpening o t := by
  unfold Reader.stepMember
  split
  · next h => exact absurd h hkeyword
  · next h => exact absurd h hname
  · rfl

lemma reader_stepMember {o : Opening} (h : r.stepMember o t = some r') :
    (m.reader r).stepMember (m.opening o) (m.token t) = some (m.reader r') := by
  obtain ⟨terminal, text, start, stop⟩ := t
  simp only [Reader.stepMember] at h
  split at h
  · cases h
    rfl
  · cases h
    rfl
  · next hkeyword hname =>
    rw [stepMember_of_other hkeyword hname]
    exact reader_stepOpening h

lemma reader_stepDeclaration (h : r.stepDeclaration t = some r') :
    (m.reader r).stepDeclaration (m.token t) = some (m.reader r') := by
  obtain ⟨unit, _ | ⟨c, rest⟩, position⟩ := r
  · exact reader_stepOpening (o := { start := t.start }) h
  · simp only [Reader.stepDeclaration] at h
    simp only [Reader.stepDeclaration, reader, List.map_cons]
    split at h
    · next ht =>
      cases h
      exact if_pos ht
    · next ht => exact (if_neg ht).trans (reader_stepMember (o := { start := t.start }) h)

lemma reader_stepClause (h : r.stepClause t = some r') :
    (m.reader r).stepClause (m.token t) = some (m.reader r') := by
  unfold Reader.stepClause at h ⊢
  split at h
  · next ht =>
    cases h
    exact if_pos ht
  · next ht => exact (if_neg ht).trans (reader_stepDeclaration h)

lemma reader_stepListEnd {use : ListUse} {names : List String}
    (h : r.stepListEnd use names t = some r') :
    (m.reader r).stepListEnd (m.listUse use) names (m.token t) = some (m.reader r') := by
  obtain ⟨terminal, text, start, stop⟩ := t
  simp only [Reader.stepListEnd] at h
  split at h <;> cases h <;> rfl

lemma reader_stepTypedName {use : TypeUse} {type : TypeRef} {name : String}
    (h : r.stepTypedName use type name = some r') :
    (m.reader r).stepTypedName (m.typeUse use) type name = some (m.reader r') := by
  cases use <;> cases h <;> rfl

lemma reader_stepTyped {use : TypeUse} {type : TypeRef} (h : r.stepTyped use type t = some r') :
    (m.reader r).stepTyped (m.typeUse use) type (m.token t) = some (m.reader r') := by
  obtain ⟨terminal, text, start, stop⟩ := t
  simp only [Reader.stepTyped] at h
  split at h
  · cases h
    rfl
  · cases h
    rfl
  · exact reader_stepTypedName h
  · cases h

lemma reader_stepParam {op : OperationDraft} (h : r.stepParam op t = some r') :
    (m.reader r).stepParam (m.operation op) (m.token t) = some (m.reader r') := by
  obtain ⟨terminal, text, start, stop⟩ := t
  simp only [Reader.stepParam] at h
  split at h <;> cases h <;> rfl

lemma reader_addImport {start : Place} {name : String} {wildcard : Bool}
    (h : r.addImport start name wildcard t = some r') :
    (m.reader r).addImport (m.place start) name wildcard (m.token t) = some (m.reader r') := by
  cases h
  simp only [Reader.addImport, reader, CompilationUnit.mapLoc, List.map_append]
  rfl

lemma reader_withMember {d : Member} (h : (do (← r.addMember d).goTo .memberEnd) = some r') :
    (do (← (m.reader r).addMember (d.mapLoc m.loc)).goTo .memberEnd) = some (m.reader r') := by
  obtain ⟨s, hs, hgo⟩ := Option.bind_eq_some_iff.1 h
  exact Option.bind_eq_some_iff.2 ⟨_, reader_addMember hs, reader_goTo hgo⟩

lemma mapLoc_withStop (c : Classifier) (k : Nat) :
    (c.withStop k).mapLoc m.loc = (c.mapLoc m.loc).withStop (m.stop k) := by
  cases c <;> rfl

section Others

open Position

/-! The positions at which one terminal is told from all others. -/

lemma step_fileStart (hp : r.position = fileStart) (ht : t.terminal ≠ .keyword .packageKw) :
    r.step t = r.stepClause t := by
  rw [Reader.step, hp]
  split <;> simp_all

lemma step_listName {use : ListUse} {names : List String} (hp : r.position = listName use names)
    (ht : t.terminal ≠ .mark .comma) : r.step t = r.stepListEnd use names t := by
  rw [Reader.step, hp]
  split <;> simp_all

lemma step_closed {c : Classifier} (hp : r.position = closed c)
    (ht : t.terminal ≠ .mark .semicolon) : r.step t = (r.addClassifier c).stepDeclaration t := by
  rw [Reader.step, hp]
  split <;> simp_all

lemma step_memberName {d : Draft} (hp : r.position = memberName d)
    (ht : t.terminal ≠ .mark .lpar) :
    r.step t = r.stepTyped (.member d.opening) { name := d.name } t := by
  rw [Reader.step, hp]
  split <;> simp_all

lemma step_paramsOpened {op : OperationDraft} (hp : r.position = paramsOpened op)
    (ht : t.terminal ≠ .mark .rpar) : r.step t = r.stepParam op t := by
  rw [Reader.step, hp]
  split <;> simp_all

end Others

/-- A token at another place is taken in the same way. -/
lemma reader_step (h : r.step t = some r') :
    (m.reader r).step (m.token t) = some (m.reader r') := by
  obtain ⟨unit, opened, position⟩ := r
  obtain ⟨terminal, text, start, stop⟩ := t
  simp only [Reader.step] at h
  split at h
  -- most tokens only lead to another position
  all_goals try (cases h; rfl)
  · next ht => exact (step_fileStart rfl ht).trans (reader_stepClause h)
  · exact reader_stepClause (r := ⟨unit, opened, .clauseEnd⟩) h
  · exact reader_addImport (r := ⟨unit, opened, .importName _ _⟩) h
  · exact reader_addImport (r := ⟨unit, opened, .importWildcard _ _⟩) h
  · cases opened with
    | nil => exact reader_stepOpening (r := ⟨unit, [], .modifiers _⟩) h
    | cons c rest => exact reader_stepMember (r := ⟨unit, c :: rest, .modifiers _⟩) h
  · next ht => exact (step_listName rfl ht).trans (reader_stepListEnd h)
  · next c =>
    cases h
    change ((m.reader ⟨unit, opened, .closed c⟩).addClassifier
      ((c.mapLoc m.loc).withStop (m.stop stop))).goTo .settled = _
    rw [← mapLoc_withStop, reader_addClassifier]
    rfl
  · next c ht =>
    refine (step_closed rfl ht).trans ?_
    rw [reader_addClassifier]
    exact reader_stepDeclaration h
  · exact reader_stepDeclaration (r := ⟨unit, opened, .bodyOpened⟩) h
  · exact reader_stepDeclaration (r := ⟨unit, opened, .settled⟩) h
  · exact reader_stepDeclaration (r := ⟨unit, opened, .memberEnd⟩) h
  · next ht => exact (step_memberName rfl ht).trans (reader_stepTyped h)
  · exact reader_stepTyped (r := ⟨unit, opened, .typed _ _⟩) h
  · exact reader_stepTypedName (r := ⟨unit, opened, .typeEnd _ _⟩) h
  · exact reader_withMember (r := ⟨unit, opened, .fieldName _ _⟩) h
  · exact reader_withMember (r := ⟨unit, opened, .typedName _ _⟩) h
  · exact reader_withMember (r := ⟨unit, opened, .initialValue _ _ _⟩) h
  · next ht => exact (step_paramsOpened rfl ht).trans (reader_stepParam h)
  · exact reader_stepParam (r := ⟨unit, opened, .paramsNext _⟩) h
  · exact reader_withMember (r := ⟨unit, opened, .paramsClosed _⟩) h
  · exact reader_withMember (r := ⟨unit, opened, .raisesClosed _ _⟩) h
  · cases h

lemma reader_feed (h : r.feed ts = some r') :
    (m.reader r).feed (ts.map m.token) = some (m.reader r') := by
  induction ts generalizing r with
  | nil =>
    cases h
    rfl
  | cons t ts ih =>
    rw [Reader.feed_cons, Option.bind_eq_some_iff] at h
    obtain ⟨s, hs, hrest⟩ := h
    rw [List.map_cons, Reader.feed_cons, reader_step hs]
    exact ih hrest

lemma reader_finish {u : CompilationUnit} (h : r.finish = some u) :
    (m.reader r).finish = some (u.mapLoc m.loc) := by
  obtain ⟨unit, _ | ⟨c, rest⟩, position⟩ := r
  · cases position with
    | closed c =>
      cases h
      exact congrArg (fun s => some s.unit) (reader_addClassifier (r := ⟨unit, [], .closed c⟩) c)
    | _ => cases h <;> rfl
  · cases h

end Relocation

end DeclGraph
