import DeclGraph.Proofs.Import.Traces

/-! What is said about an element that is declared when it was there before. A declaration says its
visibility, its multiplicity and its type anew. An initial value stays if it mentions none, and the
stereotypes of earlier declarations stay in any case. -/

namespace DeclGraph

open DeclGraph.Graph

variable {s t : UnitState} {u : UnitContext} {c n : NodeId} {k : NodeKind} {a old : Traits}
  {mark : Option NodeId} {kind : ClassifierKind} {name : String} {modifiers : ModifierSet}
  {doc : Option String}

/-- The stereotype that the declarations of a kind give to their elements. -/
def ClassifierKind.Marks (kind : ClassifierKind) (g : Graph) (mark : Option NodeId) : Prop :=
  match kind with
  | .enumeration => ∃ st, mark = some st ∧ g.Named st Profile.enumerationStereotype
  | _ => mark = none

lemma ClassifierKind.Marks.keeps {g g' : Graph} (h : kind.Marks g mark) (hg : g.Keeps g') :
    kind.Marks g' mark := by
  cases kind with
  | enumeration =>
    obtain ⟨st, rfl, hst⟩ := h
    exact ⟨st, rfl, hg.named hst⟩
  | _ => exact h

/-- What the declaration of a classifier says. Only classes say whether they are abstract, and
interfaces do not say whether they are leaves. -/
def Traits.ofClassifier (old : Traits) (kind : ClassifierKind) (modifiers : ModifierSet)
    (mark : Option NodeId) : Traits :=
  let said := { old with visibility := some modifiers.visibility, isRoot := false }
  match kind with
  | .classType => { said with isAbstract := modifiers.isAbstract, isLeaf := modifiers.isFinal }
  | .enumeration => { said with isLeaf := true, stereotypes := old.stereotypes ∪ mark.toFinset }
  | .interfaceType => said

/-- What is left of earlier declarations in the element of a declared classifier, before the
declaration says anything about it. A new element that takes the place of one of another kind has
the stereotypes of that one. -/
inductive UnitState.Earlier (s : UnitState) (kind : NodeKind) (name : String) (n : NodeId) :
    Traits → Prop
  | kept : s.Finds name n → s.graph.kind? n = some kind → Earlier s kind name n (s.graph.traitsOf n)
  | replaced {c : NodeId} : s.Finds name c → s.graph.kind? c ≠ some kind →
      Earlier s kind name n { stereotypes := (s.graph.traitsOf c).stereotypes }
  | new : (∀ c, ¬s.Finds name c) → Earlier s kind name n {}

namespace ImportM

lemma says_upsertNode (u : UnitContext) (h : s.Nested)
    (hrun : upsertNode kind name s.home s = .ok n t) :
    ∃ old, s.Earlier kind.nodeKind name n old ∧ t.graph.Says n kind.nodeKind old := by
  have hside : kind.nodeKind.isSide = false := by cases kind <;> rfl
  obtain ⟨found, s₁, hadopt, hfinds, hkinds, htraits⟩ := adoptClassifier_run h name
  obtain ⟨hsteps, hupserted⟩ := (performs_adoptClassifier (u := u) h name).ok hadopt
  unfold upsertNode at hrun
  rw [bind_run hadopt] at hrun
  cases found with
  | none =>
    obtain rfl : s = s₁ := hupserted.1.symm
    obtain ⟨kh, hkh, -⟩ := h.home_kind
    obtain ⟨g, hcreate, hb⟩ := GraphM.create_under s.graph kind.nodeKind (some name)
      (isLive_of_kind? hkh)
    dsimp only at hrun
    rw [bind_run (change_ok hcreate)] at hrun
    cases hrun
    have hnone : ∀ c, ¬s.Finds name c := fun c hc =>
      absurd ((hfinds c).mpr hc).symm (Option.some_ne_none c)
    exact ⟨{}, .new hnone, _, hb.new_node, rfl, rfl⟩
  | some m =>
    obtain ⟨k, hk, hu⟩ := hupserted
    have hs₁ : s₁.Nested := hu.nested h hsteps
    have hhome : s₁.home = s.home := by simp [UnitState.home, hu.unit.scopes]
    obtain ⟨r, hr, rfl, ho, hname⟩ := hu.node
    have hm : s.Finds name m := (hfinds m).mp rfl
    have hkind : query (·.kindOf m) s₁ = .ok r.kind s₁ := query_ok (by
      unfold kindOf
      rw [get_of_node? hr]
      rfl)
    dsimp only at hrun
    rw [bind_run hkind] at hrun
    split_ifs at hrun with hne
    · obtain ⟨g, hsupersede, hs⟩ := supersede_run hs₁ kind hr
        ⟨r, hr, hhome ▸ ho, NodeKind.role?_eq_inner.mpr hk, hname⟩
      rw [← hhome, hsupersede] at hrun
      cases hrun
      obtain ⟨rn, hrn, -, hbare, hsts⟩ := hs.new
      refine ⟨_, .replaced hm ?_, rn, hrn, (Node.bare_congr hbare).1, ?_⟩
      · rw [← hkinds, kind?_eq hr]
        exact fun heq => hne (Option.some.inj heq)
      · rw [Node.traits_of_bare hbare, ← htraits, traitsOf_node hr]
        have hsame : rn.stereotypes.toFinset = r.stereotypes.toFinset := by
          ext st
          simpa using hsts st
        simp [Node.traits, Node.stereotyped, hsame]
    · have hsame : r.kind = kind.nodeKind := not_not.mp hne
      let s₂ : UnitState := { s₁ with log := .classifierFound name :: s₁.log }
      have hs₂ : s₂.graph.Sound := hs₁.graph
      rw [bind_run (show emit (.classifierFound name) s₁ = .ok () s₂ from rfl)] at hrun
      obtain ⟨_, s₃, hremove, hrun⟩ := bind_eq_ok.mp hrun
      cases hrun
      have hperforms : Performs (.within u [.taggedValue] []) s₂
          (change (.removeTaggedValues n generatedTag) s₂) fun _ t =>
            s₂.SameUnit t ∧ ¬t.graph.Tagged n generatedTag :=
        performs_removeTaggedValues hs₂ n generatedTag (by decide)
      obtain ⟨hremoved, -⟩ := hperforms.ok hremove
      obtain ⟨r', hr', hface⟩ := hs₂.sameFace_within hremoved (by decide) hr
        (hsame ▸ hside) (by simp)
      refine ⟨_, .kept hm ?_, r', hr', hface.kind.trans hsame, ?_⟩
      · rw [← hkinds, kind?_eq hr, hsame]
      · rw [hface.traits, ← htraits, traitsOf_node hr]

/-- The visibility of a classifier and that it is no root are said before. -/
lemma says_describeClassifier (hs : s.Faithful) (h : s.graph.Says n k
      { a with visibility := some modifiers.visibility, isRoot := false })
    (hrun : describeClassifier n kind modifiers s = .ok () t) :
    ∃ mark, kind.Marks t.graph mark ∧ t.graph.Says n k (a.ofClassifier kind modifiers mark) := by
  unfold describeClassifier at hrun
  cases kind with
  | classType =>
    obtain ⟨_, s₁, habstract, hleaf⟩ := bind_eq_ok.mp hrun
    replace h := says_update (F := ({ · with isAbstract := modifiers.isAbstract })) h habstract
      (fun _ => rfl) fun _ => rfl
    exact ⟨none, rfl, says_update (F := ({ · with isLeaf := modifiers.isFinal })) h hleaf
      (fun _ => rfl) fun _ => rfl⟩
  | enumeration =>
    obtain ⟨st, s₁, hst, hrun⟩ := bind_eq_ok.mp hrun
    obtain ⟨_, s₂, hmark, hleaf⟩ := bind_eq_ok.mp hrun
    have hnamed := ((ends_stereotype hs _ _).ok hst).2
    have hstays : ClassifierKind.enumeration.Marks s₁.graph (some st) := ⟨st, rfl, hnamed⟩
    refine ⟨some st, (hstays.keeps ((keeps inferInstance).ok hmark)).keeps
      ((keeps inferInstance).ok hleaf), ?_⟩
    replace h := says_addStereotype (says_after h hst) hmark
    exact says_update (F := ({ · with isLeaf := true })) h hleaf (fun _ => rfl) fun _ => rfl
  | interfaceType =>
    cases hrun
    exact ⟨none, rfl, h⟩

instance adding_openScope {R : Graph → Graph → Prop} [Adding R] (n : NodeId) :
    Obeys (UnitState.Relates R) (openScope n) := by
  unfold openScope
  infer_instance

instance adding_endOfHead {R : Graph → Graph → Prop} [Adding R] (n : NodeId)
    (enclosing : Option NodeId) : Obeys (UnitState.Relates R) (endOfHead u n doc enclosing) := by
  have : Obeys (UnitState.Relates R) (openHead u n doc) := by
    unfold openHead
    infer_instance
  unfold endOfHead
  refine .bind obeys_get fun s => ?_
  cases enclosing <;> cases s.component <;> dsimp only <;> infer_instance

lemma says_addClassifier (h : s.Nested) (hs : s.Faithful)
    (hrun : addClassifier u kind name modifiers doc s = .ok n t) :
    ∃ old mark, s.Earlier kind.nodeKind name n old ∧ kind.Marks t.graph mark ∧
      t.graph.Says n kind.nodeKind (old.ofClassifier kind modifiers mark) := by
  rw [addClassifier_eq] at hrun
  obtain ⟨_, _, hget, hrun⟩ := bind_eq_ok.mp hrun
  cases hget
  rw [home_eq h] at hrun
  obtain ⟨m, s₁, hupsert, hrun⟩ := bind_eq_ok.mp hrun
  obtain ⟨_, s₂, hvisibility, hrun⟩ := bind_eq_ok.mp hrun
  obtain ⟨_, s₃, hroot, hrun⟩ := bind_eq_ok.mp hrun
  have hs₃ : s₃.Faithful := faithful_run (faithful_run (faithful_run hs hupsert) hvisibility) hroot
  obtain ⟨_, s₄, hdescribe, hrun⟩ := bind_eq_ok.mp hrun
  obtain ⟨_, s₅, htouch, hrun⟩ := bind_eq_ok.mp hrun
  obtain rfl := (ends_endOfHead doc _).ok hrun
  obtain ⟨old, hearlier, hstated⟩ := says_upsertNode u h hupsert
  replace hstated := says_update (F := ({ · with visibility := some modifiers.visibility })) hstated
    hvisibility (fun _ => rfl) fun _ => rfl
  replace hstated := says_update (F := ({ · with isRoot := false })) hstated hroot (fun _ => rfl)
    fun _ => rfl
  obtain ⟨mark, hmark, hstated⟩ := says_describeClassifier hs₃ hstated hdescribe
  exact ⟨old, mark, hearlier, (hmark.keeps ((keeps inferInstance).ok htouch)).keeps
    ((keeps inferInstance).ok hrun), says_after (says_after hstated htouch) hrun⟩

/-- The edges of a classifier say nothing about it. -/
lemma says_addInheritance {superclass : Option String} {interfaces : List String} (hs : s.Sound)
    (h : s.graph.Says n kind.nodeKind a)
    (hrun : addInheritance u n kind superclass interfaces s = .ok () t) :
    t.graph.Says n kind.nodeKind a := by
  obtain ⟨r, hr, hk, rfl⟩ := h
  have hn : s.graph.Once n (·.isClassifier = true) :=
    once (kind?_eq hr) (by rw [hk]; cases kind <;> rfl)
  obtain ⟨hsteps, -⟩ := (performs_addInheritance (u := u) hs hn kind superclass interfaces).ok hrun
  obtain ⟨r', hr', hface⟩ := hs.graph.sameFace_within hsteps (by decide) hr
    (by rw [hk]; cases kind <;> rfl) (by rw [hk]; cases kind <;> decide)
  exact ⟨r', hr', hface.kind.trans hk, hface.traits⟩

/-- Stereotypes keep their names, and none that an element has goes. -/
lemma marks_addInheritance {superclass : Option String} {interfaces : List String}
    (h : kind.Marks s.graph mark) (ht : t.graph.Sound) (hin : mark.toFinset ⊆ a.stereotypes)
    (hstated : t.graph.Says n k a)
    (hrun : addInheritance u n kind superclass interfaces s = .ok () t) :
    kind.Marks t.graph mark := by
  cases kind with
  | enumeration =>
    obtain ⟨st, rfl, x, hx, hkx, hname⟩ := h
    obtain ⟨r, hr, -, rfl⟩ := hstated
    have hst : st ∈ r.stereotypes := by simpa [Node.traits] using hin
    obtain ⟨y, hy, hky⟩ := ht.stocked.stereotype hr st hst
    have htitles : s.graph.Titles t.graph :=
      (relates (M := .titled) (composed_addInheritance ..)).ok hrun
    rcases htitles.node hy with hnew | ⟨x', hx', -, hsame⟩
    · exact absurd (lt_next (isLive_of_node? hx)) hnew.not_gt
    · obtain rfl := Option.some.inj (hx.symm.trans hx')
      exact ⟨st, rfl, y, hy, hky, (hsame hkx).trans hname⟩
  | _ => exact h

/-- A declaration of a classifier of some kind; only classes have superclasses. -/
def declareClassifier (u : UnitContext) (kind : ClassifierKind) (name : String)
    (modifiers : ModifierSet) (superclass : Option String) (interfaces : List String)
    (doc : Option String) : ImportM NodeId :=
  match kind with
  | .classType => addClass u name modifiers superclass interfaces doc
  | .interfaceType => addInterface u name modifiers interfaces doc
  | .enumeration => addEnumeration u name modifiers interfaces doc

lemma says_declareClassifier {superclass : Option String} {interfaces : List String}
    (h : s.Nested) (hs : s.Faithful)
    (hrun : declareClassifier u kind name modifiers superclass interfaces doc s = .ok n t) :
    ∃ old mark, s.Earlier kind.nodeKind name n old ∧ kind.Marks t.graph mark ∧
      t.graph.Says n kind.nodeKind (old.ofClassifier kind modifiers mark) := by
  obtain ⟨superclass, hrun⟩ : ∃ superclass, (do
      let n ← addClassifier u kind name modifiers doc
      addInheritance u n kind superclass interfaces
      return n : ImportM NodeId) s = .ok n t := by
    cases kind
    exacts [⟨superclass, hrun⟩, ⟨none, hrun⟩, ⟨none, hrun⟩]
  obtain ⟨m, s₁, hhead, hrun⟩ := bind_eq_ok.mp hrun
  obtain ⟨_, s₂, hedges, hrun⟩ := bind_eq_ok.mp hrun
  cases hrun
  obtain ⟨old, mark, hearlier, hmark, hstated⟩ := says_addClassifier h hs hhead
  obtain ⟨-, frame, hopened⟩ := (performs_addClassifier h kind name modifiers doc).ok hhead
  have hs₁ := hopened.nested.toSound
  have hlater := says_addInheritance hs₁ hstated hedges
  have ht : t.graph.Sound := by
    obtain ⟨r, hr, hk, -⟩ := hstated
    have hn : s₁.graph.Once n (·.isClassifier = true) :=
      once (kind?_eq hr) (by rw [hk]; cases kind <;> rfl)
    exact hs₁.graph.steps ((performs_addInheritance hs₁ hn kind superclass interfaces).ok hedges).1
  refine ⟨old, mark, hearlier, marks_addInheritance hmark ht ?_ hlater hedges, hlater⟩
  cases kind with
  | enumeration => exact Finset.subset_union_right
  | _ =>
    obtain rfl := hmark
    simp

end ImportM

/-- What is said about a declared element is what the declaration says and, where it says nothing,
what is left of earlier ones. The initial value of an attribute stays if there is none in its
declaration, and the stereotypes of an operation and of a classifier stay in any case, the latter
even when its element is replaced by one of another kind. Parameters are those of the last
declaration. -/
theorem declaration_keeps_traces (h : s.Reached u) (hb : u.pass.buildsReferences = true) :
    (∀ {kind name modifiers superclass interfaces doc n t},
      ImportM.declareClassifier u kind name modifiers superclass interfaces doc s = .ok n t →
      ∃ old mark, s.Earlier kind.nodeKind name n old ∧ kind.Marks t.graph mark ∧
        t.graph.Says n kind.nodeKind (old.ofClassifier kind modifiers mark)) ∧
    (∀ {modifiers returnType name parameters doc op t},
      ImportM.addOperation u modifiers returnType name parameters doc s = .ok (some op) t →
      ∃ c s₁ mark result s', s.scopes.classifier = some c ∧
        ImportM.beginOperation modifiers c name s = .ok op s₁ ∧
        ImportM.resultOf u c returnType name s₁ = .ok (mark, result) s' ∧
        t.graph.Says op .operation ((s.graph.traitsOf op).ofOperation modifiers mark) ∧
        t.graph.Takes op (result ++ ImportM.facesAlong u op parameters
          (finalState (ImportM.addResult u c op returnType name s₁)))) ∧
    ∀ {modifiers type name initializer doc n t},
      ImportM.addAttribute u modifiers type name initializer doc s = .ok (some n) t →
      ∃ target multiplicity s', ImportM.fieldType u type s = .ok (target, multiplicity) s' ∧
        match if ImportM.isPlain u s'.graph target then none else target with
        | none => t.graph.Says n .attr
            ((s.graph.traitsOf n).ofField modifiers target multiplicity initializer)
        | some p => t.graph.Says n .associationEnd
            ((s.graph.traitsOf n).ofEnd modifiers p multiplicity) := by
  refine ⟨fun hrun => ImportM.says_declareClassifier h.framed.toNested h.faithful hrun, ?_,
    fun hrun => ImportM.says_addAttribute h.framed.toNested hb hrun⟩
  intro modifiers returnType name parameters doc op t hrun
  have hs := h.framed.toNested
  cases ho : s.scopes.opened with
  | nil =>
    unfold ImportM.addOperation at hrun
    rw [bind_failed (ImportM.requireClassifier_closed ho _)] at hrun
    cases hrun
  | cons scope rest =>
    have hc : s.scopes.classifier = some scope.frame.home := by
      simp [ScopeStack.classifier, ScopeStack.current, ho, hs.frames scope (by simp [ho])]
    obtain ⟨s₁, mark, result, s', hsaid⟩ := ImportM.says_addOperation hs ho hb hrun
    exact ⟨_, s₁, mark, result, s', hc, hsaid⟩

/-- A field is declared without an initial value after it was declared with one. -/
theorem declaration_keeps_traces_of_initialized :
    let u : UnitContext := { name := "x.idl", pass := .references }
    let s := [UnitCall.addClass "A" {} none [] none,
      .addAttribute {} (some "int") "n" (some "5") none].foldl (UnitCall.after u)
        (.start u { graph := .new "m" ⟨"p", [], []⟩ })
    s.Reached u ∧ u.pass.buildsReferences = true ∧ (s.graph.traitsOf 4).initialValue = some "5" ∧
      ∃ t, ImportM.addAttribute u {} (some "int") "n" none none s = .ok (some 4) t ∧
        t.graph.Says 4 .attr ((s.graph.traitsOf 4).ofField {} none single none) := by
  intro u s
  have hfresh : Imported (fun _ => True)
      ({ graph := .new "m" ⟨"p", [], []⟩ } : Store).graph := .fresh "m" ⟨"p", [], []⟩
  have hs : s.Reached u := .calls (.first _ hfresh) _
  have hfield : answer? (ImportM.fieldType u (some "int") s) = some (none, single) := by
    decide +kernel
  have hadded : answer? (ImportM.addAttribute u {} (some "int") "n" none none s) =
      some (some 4) := by decide +kernel
  have hrun := eq_ok_of_answer? hadded
  obtain ⟨target, multiplicity, s', htype, hstated⟩ :=
    (declaration_keeps_traces hs rfl).2.2 hrun
  obtain ⟨htarget, -⟩ := EStateM.Result.ok.inj (htype.symm.trans (eq_ok_of_answer? hfield))
  cases htarget
  exact ⟨hs, rfl, by decide +kernel, _, hrun, hstated⟩

/-- The same declaration of a field says something else about the attribute if that was there with
an initial value than if it was not there. -/
theorem field_keeps_initial_value :
    let u : UnitContext := { name := "x.idl", pass := .references }
    let s := UnitCall.after u (.start u { graph := .new "m" ⟨"p", [], []⟩ })
      (.addClass "A" {} none [] none)
    let s' := UnitCall.after u s (.addAttribute {} (some "int") "n" (some "5") none)
    let declare := ImportM.addAttribute u {} (some "int") "n" none none
    s.Reached u ∧ s'.Reached u ∧ u.settings.unresolvedPolicy = .warn ∧
      answer? (declare s) = some (some 4) ∧ s.graph.isLive 4 = false ∧
      answer? (declare s') = some (some 4) ∧ s'.graph.isLive 4 = true ∧
      ((finalState (declare s)).graph.traitsOf 4).type =
        ((finalState (declare s')).graph.traitsOf 4).type ∧
      ((finalState (declare s)).graph.traitsOf 4).initialValue = none ∧
      ((finalState (declare s')).graph.traitsOf 4).initialValue = some "5" := by
  intro u s s' declare
  have hfresh : Imported (fun _ => True)
      ({ graph := .new "m" ⟨"p", [], []⟩ } : Store).graph := .fresh "m" ⟨"p", [], []⟩
  have hs : s.Reached u := .call _ (.first _ hfresh)
  refine ⟨hs, .call _ hs, rfl, ?_⟩
  decide +kernel

end DeclGraph
