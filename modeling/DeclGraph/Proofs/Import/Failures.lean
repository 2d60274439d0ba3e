import DeclGraph.Proofs.Import.Registry
import DeclGraph.Proofs.Import.Runs

/-! Where imports fail, they say why: no error of a pass over a unit is left unexplained on a graph
that imports lead to, and none is about declarations that come in places where they cannot stand.
What the records of ends and the frames of scopes have to agree on is agreed on there, and what is
declared as an enumeration is known as one when its literals come. -/

namespace DeclGraph

open DeclGraph.Graph

-- the instance for a program is as long as the program
set_option synthInstance.maxSize 4096

namespace Graph

variable {g g' : Graph} {c p n : NodeId} {name : String}

/-- No end is left behind by its association. -/
lemma Sound.refuses_nextEnd? (h : g.Sound) : Refuses g (g.nextEnd? n) := by
  refine .bind_ok inferInstance fun r hr => ?_
  have hr := get_eq_ok.mp hr
  cases ha : r.association with
  | none => exact refuses_ok none
  | some a =>
    obtain ⟨ra, hra⟩ := isLive_iff.mp (h.live hr a (by simp [Node.links, ha]))
    simp only [follow_of_node? hra, except_ok_bind]
    exact refuses_ok _

lemma Sound.refuses_otherEnd (h : g.Sound) (n : NodeId) : Refuses g (do
    match ← g.nextEnd? n with
    | none => return false
    | some other => return (← g.typeOf other) = some c) :=
  .found h.refuses_nextEnd? inferInstance fun other => by unfold typeOf; infer_instance

lemma Sound.refuses_fieldEnd? (h : g.Sound) : Refuses g (g.fieldEnd? c p name) := by
  have hstands (n : NodeId) : Refuses g (g.standsForField c name n) := by
    unfold standsForField associationOf
    refine .bind inferInstance fun a => .bind inferInstance fun endName => ?_
    cases a with
    | none => exact refuses_ok _
    | some association =>
      cases endName with
      | none => exact refuses_ok _
      | some endName =>
        have hother := h.refuses_otherEnd (c := c) n
        unfold connectionsOf
        infer_instance
  unfold fieldEnd?
  infer_instance

/-- An end gets a name. -/
lemma titles_setName (hn : g.kind? n = some .associationEnd) (name : Option String) :
    g.Titles (g.modify n ({ · with name })) := by
  refine ⟨by simp, fun {m r'} hr' => Or.inr ?_⟩
  rw [node?_modify] at hr'
  split_ifs at hr' with hm
  · obtain ⟨r, hr, rfl⟩ := Option.map_eq_some_iff.mp hr'
    refine ⟨r, hr, rfl, fun hk => ?_⟩
    rw [hm] at hr
    rw [kind?_eq hr, hk] at hn
    exact absurd hn (by decide)
  · exact ⟨r', hr', rfl, fun _ => rfl⟩

end Graph

/-- What the programs of a unit rely on: the lists of the records can be followed, and what is
remembered is right. -/
structure UnitState.Ready (s : UnitState) : Prop where
  stocked : s.graph.Stocked
  faithful : s.Faithful

namespace ImportM

variable {α : Type} {x : ImportM α} {s t : UnitState} {u : UnitContext} {file : Option String}
  {c : Classifier} {scope : Scope} {rest : List Scope} {n p m : NodeId} {name : String}

/-- A program whose errors are due to what is declared if it is started in a state. -/
abbrev DueFrom (s : UnitState) (x : ImportM α) : Prop :=
  FailsFrom UnitState.Ready ImportError.IsDue s x

lemma dueFrom (x : ImportM α) [h : Composed .dutiful x] (s : UnitState) : DueFrom s x :=
  ⟨fun hs => ⟨(h.start s).keeps hs.stocked, (minds h le_rfl).final s hs.faithful⟩,
    fun hs => (h.start s).error hs.stocked⟩

lemma dueFrom_query {f : Graph → Except GraphFault α} (hf : Refuses s.graph (f s.graph)) :
    DueFrom s (query f) := by
  refine ⟨fun hs => ?_, fun hs {e t} h => ?_⟩
  · unfold query
    cases f s.graph <;> exact hs
  · unfold query at h
    split at h
    · cases h
    · next hr =>
      cases h
      simp [ImportError.IsDue, (hf.refusal hs.stocked hr).kind]

/-! Fields -/

lemma dueFrom_setName (hn : s.graph.kind? n = some .associationEnd) (name : Option String) :
    DueFrom s (change (.setName n name)) := by
  have hrun : change (.setName n name) s = .ok () { s with graph := s.graph.modify n _ } :=
    change_ok (GraphM.update_ok ({ · with name }) (isLive_of_kind? hn))
  refine ⟨fun hs => ?_, fun _ {_ _} h => nomatch hrun.symm.trans h⟩
  rw [hrun]
  have := hs.stocked
  exact ⟨.modify_same fun _ => .of_lists rfl, hs.faithful.titles (titles_setName hn name)⟩

/-- An association that was just built has the end that a field is looked up by. -/
lemma dueFrom_onFieldEnd (h : s.Sound) {kc : NodeKind} (hn : s.graph.kind? n = some kc)
    (hp : s.graph.isLive p = true) (name : String) {f : NodeId → ImportM α}
    (hf : ∀ m t, t.graph.kind? m = some .associationEnd → DueFrom t (f m)) :
    DueFrom s (upsertFieldEnd u n p name >>= f) := by
  unfold upsertFieldEnd
  rw [bind_assoc]
  refine (dueFrom_query h.graph.refuses_fieldEnd?).bind fun found s' hfound => ?_
  obtain ⟨hq, rfl⟩ := query_eq_ok.mp hfound
  cases found with
  | some m =>
    obtain ⟨r, a, hr, hend⟩ := (fieldEnd_of_found h.graph hq).record
    exact hf m s' ((kind?_eq hr).trans (congrArg some hend.kind))
  | none =>
    simp only [bind_assoc]
    refine (dueFrom (edgeName u n p) s').bind fun edge t hedge => ?_
    obtain rfl := eq_of_edgeName hedge
    obtain ⟨rc, hrc, rfl⟩ := kind?_eq_some.mp hn
    obtain ⟨g₁, g₂, g₃, hrun, hb₁, hb₂, hb₃⟩ := GraphM.buildAssociation_ok edge true false hp hrc
      fun o ho => h.graph.owner_live hrc ho
    have hend : g₃.associationEnd? p t.graph.next = .ok (some g₁.next) :=
      associationEnd?_of_built rfl rfl hb₁ hb₂ hb₃ ⟨rfl, rfl⟩ ⟨rfl, rfl⟩ rfl
    have hkind : g₃.kind? g₁.next = some .associationEnd :=
      (hb₃.kind?_old (isLive_of_node? hb₂.new_node)).trans hb₂.kind?_new
    have hbuild := dueFrom (change (.buildAssociation p true n false edge)) t
    refine .bind_ok (change_ok hrun) (hbuild.keeps_ok (change_ok hrun)) ?_
    refine .bind_ok (t := _) rfl (fun hs => ⟨hs.stocked, hs.faithful⟩) ?_
    refine .bind_ok (t := _) rfl (fun hs => ⟨hs.stocked, hs.faithful⟩) ?_
    exact .bind_ok (query_ok hend) id (.bind_ok (t := _) rfl id (hf _ _ hkind))

lemma dueFrom_addAssociatedField (h : s.Sound) (modifiers : ModifierSet) {kc : NodeKind}
    (hn : s.graph.kind? n = some kc) (hp : s.graph.isLive p = true) (multiplicity name : String)
    (doc : Option String) :
    DueFrom s (addAssociatedField u modifiers n p multiplicity name doc) := by
  have kept {x : ImportM Unit} [hx : Composed .keeping x] {t t' : UnitState} {m : NodeId}
      (hm : t.graph.kind? m = some .associationEnd) (hrun : x t = .ok () t') :
      t'.graph.kind? m = some .associationEnd := by
    obtain ⟨r, hr, hk⟩ := kind?_eq_some.mp hm
    obtain ⟨r', hr', hsame⟩ := (((keeps hx).ends t).ok hrun).node hr
    rw [kind?_eq hr', hsame.kind, hk]
  unfold addAssociatedField
  refine dueFrom_onFieldEnd h hn hp name fun m t hm => ?_
  refine (dueFrom (change (.setVisibility m _)) t).bind fun _ t₁ h₁ => ?_
  have hm₁ := kept hm h₁
  refine (dueFrom (change (.setMultiplicity m _)) t₁).bind fun _ t₂ h₂ => ?_
  have hm₂ := kept hm₁ h₂
  refine (dueFrom (change (.setType m _)) t₂).bind fun _ t₃ h₃ => ?_
  exact (dueFrom_setName (kept hm₂ h₃) (some name)).bind fun _ t₄ _ => dueFrom _ t₄

/-- What a field becomes, once its type has been looked up. -/
lemma dueFrom_field (h : s.Nested) (ho : s.scopes.opened = scope :: rest)
    {t : UnitState} (ht : s.Leads t) (modifiers : ModifierSet) {target : Option NodeId}
    (multiplicity name : String) (initializer doc : Option String)
    (htarget : ∀ y, target = some y → t.graph.isLive y = true) : DueFrom t (do
      match ← associatedType? u target with
      | none => some <$>
        addPlainField modifiers scope.frame.home target multiplicity name initializer doc
      | some n => some <$>
        addAssociatedField u modifiers scope.frame.home n multiplicity name doc) := by
  refine (dueFrom (associatedType? u target) t).bind fun found t' hfound => ?_
  have htype : Performs ⊤ t (associatedType? u target t) fun found t' => t' = t ∧
      found = if isPlain u t.graph target then none else target := performs_associatedType? target
  obtain ⟨-, rfl, hf⟩ := htype.ok hfound
  cases found with
  | none => exact dueFrom _ t'
  | some y =>
    have hy : target = some y := by
      split_ifs at hf
      exact hf.symm
    obtain ⟨k, hk, hc⟩ := h.isClassifier (show scope ∈ s.scopes.opened by simp [ho])
    have hkind := (ht.spares hk hc).kind? hk
    have hfield := dueFrom_addAssociatedField (u := u) ht.sound modifiers hkind (htarget y hy)
      multiplicity name doc
    rw [map_eq_pure_bind]
    exact hfield.bind fun m t _ => .answer _ t

lemma dueFrom_addAttribute (h : s.Nested) (ho : s.scopes.opened = scope :: rest)
    (modifiers : ModifierSet) (type : Option String) (name : String)
    (initializer doc : Option String) :
    DueFrom s (addAttribute u modifiers type name initializer doc) := by
  unfold addAttribute
  refine .bind_ok (requireClassifier_ok h ho _) id ?_
  cases u.pass.buildsReferences with
  | false => exact .answer none s
  | true =>
    simp only [Bool.not_true, Bool.false_eq_true, if_false]
    cases type with
    | none =>
      simp only [pure_bind]
      exact dueFrom_field h ho (.refl h.toSound) modifiers single name initializer doc (by simp)
    | some type =>
      simp only [pure_bind]
      refine (dueFrom (resolve u _ .any "an attribute") s).bind fun target t hres => ?_
      have hresolved := (performs_resolve_feature _ _ _ h.toSound).ok hres
      obtain ⟨hs, hu, htarget⟩ := hresolved
      have ht := Permit.Modest.leads (P := Permit.aroundFeatures u) h.toSound hs hu
      refine dueFrom_field h ho ht modifiers _ name initializer doc fun y hy => ?_
      obtain ⟨k, hk, -⟩ := htarget y hy
      exact isLive_of_kind? hk

/-! Enumerations -/

/-- What a unit knows as an enumeration. -/
def IsEnumeration (s : UnitState) (n : NodeId) : Prop :=
  s.graph.kind? n = some .classType ∧ s.graph.IsMarked n Profile.enumerationStereotype

lemma IsEnumeration.keeps (h : IsEnumeration s n) (hs : s.Keeps t) : IsEnumeration t n := by
  obtain ⟨r, hr, hk⟩ := kind?_eq_some.mp h.1
  obtain ⟨r', hr', hsame⟩ := hs.node hr
  exact ⟨by rw [kind?_eq hr', hsame.kind, hk], Graph.Keeps.isMarked hs h.2⟩

/-- A field without a type does nothing to what is there but describe it. -/
instance keeping_literal (modifiers : ModifierSet) (name : String) :
    Composed .keeping (addAttribute u modifiers none name none none) := by
  have field (classifier : NodeId) : Composed .keeping (do
      match ← associatedType? u none with
      | none => some <$> addPlainField modifiers classifier none single name none none
      | some n => some <$> addAssociatedField u modifiers classifier n single name none) := by
    have hnone : associatedType? u none = pure none := rfl
    rw [hnone, pure_bind]
    infer_instance
  unfold addAttribute
  exact .bind inferInstance fun classifier => .ite inferInstance (field classifier)

lemma keeps_run {a : α} [h : Composed .keeping x] (hrun : x s = .ok a t) : s.Keeps t :=
  ((keeps h).ends s).ok hrun

/-- Realizing an interface leaves what is there as it is marked. The branch that takes clients from
dependencies is not met on a sound graph. -/
lemma keeps_upsertRealization (h : s.Sound) (hrun : upsertRealization u n p s = .ok m t) :
    s.Keeps t := by
  unfold upsertRealization at hrun
  obtain ⟨deps, s₁, hdeps, hrest⟩ := bind_eq_ok.mp hrun
  obtain ⟨hdeps, rfl⟩ := query_eq_ok.mp hdeps
  obtain ⟨found, s₂, hfound, hlast⟩ := bind_eq_ok.mp hrest
  obtain rfl := eq_of_findRealization h.graph hdeps hfound
  cases found <;> exact keeps_run hlast

lemma keeps_realize (h : s.Sound) (hrun : realize u n name s = .ok () t) : s.Keeps t := by
  unfold realize at hrun
  obtain ⟨found, s₁, hres, hrun⟩ := bind_eq_ok.mp hrun
  have h₁ : s.Keeps s₁ := keeps_run hres
  obtain ⟨hs, hu, -⟩ := (performs_resolve (u := u) name .interfaceOnly _ h.graph).ok hres
  cases found with
  | none =>
    cases hrun
    exact h₁
  | some i =>
    obtain ⟨d, s₂, hup, hrun⟩ := bind_eq_ok.mp hrun
    cases hrun
    exact trans_of UnitState.Keeps h₁ (keeps_upsertRealization (h.steps hs hu) hup)

lemma keeps_realizes {names : List String} (h : s.Sound)
    (hn : s.graph.Once n (·.isClassifier = true))
    (hrun : (names.forM (realize u n) : ImportM PUnit) s = .ok ⟨⟩ t) : s.Keeps t := by
  induction names generalizing s with
  | nil =>
    cases hrun
    exact refl_of UnitState.Keeps t
  | cons name names ih =>
    obtain ⟨_, s₁, hone, hrest⟩ := bind_eq_ok.mp hrun
    obtain ⟨hs, hu⟩ := (performs_realize h hn name).ok hone
    have hrest : s₁.Keeps t := ih (h.steps hs hu) (hn.steps hs) hrest
    exact trans_of UnitState.Keeps (keeps_realize h hone) hrest

/-- What is declared as an enumeration is one when its literals come. -/
lemma isEnumeration_enter {head : Head} {interfaces literals : List String} (h : s.Nested)
    (hs : s.Faithful)
    (hrun : enterClassifier u file (.enumeration head interfaces literals) s = .ok n t) :
    IsEnumeration t n := by
  obtain ⟨-, t₀, frame, hadd, hinherit, hopened, -⟩ := (performs_enterClassifier h _).ok hrun
  obtain ⟨r, hr, hk, -⟩ := hopened.upserted.node
  have hkind : t₀.graph.kind? n = some .classType := (kind?_eq hr).trans (congrArg some hk)
  refine IsEnumeration.keeps ⟨hkind, addClassifier_marks hs hadd⟩ ?_
  unfold addInheritance at hinherit
  split_ifs at hinherit
  · exact keeps_realizes hopened.nested.toSound (once hkind rfl) hinherit
  · cases hinherit
    exact refl_of UnitState.Keeps _

lemma dueFrom_addEnumerationLiteral (h : s.Nested) (ho : s.scopes.opened = scope :: rest)
    (hn : IsEnumeration s scope.frame.home) (name : String) :
    DueFrom s (addEnumerationLiteral u name) := by
  unfold addEnumerationLiteral
  refine .bind_ok (requireClassifier_ok h ho _) id ?_
  refine .bind_ok (isEnumeration_of_marked h.toSound hn.1 hn.2) id ?_
  simp only [Bool.not_true, Bool.false_eq_true, if_false]
  exact dueFrom_addAttribute h ho _ _ _ _ _

/-- One literal after the other, the enumeration stays one. -/
lemma dueFrom_literals {literals : List String} (h : s.Nested)
    (ho : s.scopes.opened = scope :: rest) (hn : IsEnumeration s scope.frame.home) :
    DueFrom s (literals.forM fun literal => do
      let _ ← addEnumerationLiteral u literal : ImportM PUnit) := by
  refine .forM (J := fun t => t.Nested ∧ IsEnumeration t scope.frame.home ∧
    ∃ touched, t.scopes.opened = { scope with touched } :: rest) ⟨h, hn, scope.touched, ho⟩ ?_ ?_
  · rintro literal - t ⟨ht, hn, touched, hot⟩
    exact (dueFrom_addEnumerationLiteral ht hot hn literal).bind fun _ t' _ => .answer _ t'
  · rintro literal - t t' ⟨ht, hn, touched, hot⟩ hrun
    obtain ⟨_, t'', hadd, hlast⟩ := bind_eq_ok.mp hrun
    cases hlast
    obtain ⟨hs, touched', hv⟩ := (performs_addEnumerationLiteral ht hot literal).ok hadd
    refine ⟨hv.nested ht hot hs, hn.keeps ?_, touched', by rw [hv.scopes]⟩
    unfold addEnumerationLiteral at hadd
    rw [bind_run (requireClassifier_ok ht hot _),
      bind_run (isEnumeration_of_marked ht.toSound hn.1 hn.2)] at hadd
    exact keeps_run (h := keeping_literal _ _) hadd

/-! Visits -/

instance dutiful_enterClassifier : Composed .dutiful (enterClassifier u file c) := by
  unfold enterClassifier
  infer_instance

lemma dueFrom_importOperation (h : s.Nested) (ho : s.scopes.opened = scope :: rest)
    (o : OperationDecl) : DueFrom s (importOperation u file o) := by
  unfold importOperation
  refine (dueFrom (o.head.simpleName file) s).bind fun name t hname => ?_
  have hsimple : Performs ⊤ s (o.head.simpleName file s) fun name t =>
      t = s ∧ name = o.head.simple := performs_simpleName o.head
  obtain ⟨-, rfl, -⟩ := hsimple.ok hname
  unfold addOperation
  rw [bind_assoc]
  exact .bind_ok (requireClassifier_ok h ho _) id (dueFrom _ t)

lemma dueFrom_importAttribute (h : s.Nested) (ho : s.scopes.opened = scope :: rest)
    (a : AttributeDecl) : DueFrom s (importAttribute u file a) := by
  unfold importAttribute
  refine (dueFrom (a.head.simpleName file) s).bind fun name t hname => ?_
  have hsimple : Performs ⊤ s (a.head.simpleName file s) fun name t =>
      t = s ∧ name = a.head.simple := performs_simpleName a.head
  obtain ⟨-, rfl, -⟩ := hsimple.ok hname
  exact (dueFrom_addAttribute h ho _ _ _ _ _).bind fun _ t' _ => .answer _ t'

lemma dueFrom_importMembers {ms : List Member} (h : s.Nested)
    (ho : s.scopes.opened = scope :: rest)
    (hinner : ∀ c, .classifier c ∈ ms → ∀ s : UnitState, s.Nested →
      DueFrom s (importClassifier u file c)) :
    DueFrom s (importMembers u file ms) := by
  induction ms generalizing s scope with
  | nil =>
    rw [importMembers]
    exact .answer _ s
  | cons m ms ih =>
    rw [importMembers]
    have hm : DueFrom s (importMember u file m) := by
      cases m with
      | attr a =>
        rw [importMember]
        exact dueFrom_importAttribute h ho a
      | operation o =>
        rw [importMember]
        exact dueFrom_importOperation h ho o
      | classifier c =>
        rw [importMember]
        exact hinner c (by simp) s h
    refine hm.bind fun _ t hrun => ?_
    have hvisit : Performs (.free u) s (importMember u file m s) fun _ t =>
        ∃ touched, UnitState.Visit scope rest (memberKeys u s m) touched s t :=
      performs_importMember h ho fun c _ => performs_settled h c
    obtain ⟨hs, touched, hv⟩ := hvisit.ok hrun
    have ht : t.scopes.opened = { scope with touched } :: rest := by rw [hv.scopes]
    exact ih (hv.nested h ho hs) ht fun c hc => hinner c (by simp [hc])

/-- Something is left that was opened. -/
lemma dueFrom_popClassifier (h : s.Nested) (ho : s.scopes.opened = scope :: rest) :
    DueFrom s (popClassifier u) := by
  have hpop : placed s.scopes.pop s = .ok (scope, { s.scopes with opened := rest }) s := by
    simp [ScopeStack.pop, ho, placed]
    rfl
  unfold popClassifier
  refine .bind_ok (t := s) (a := s) rfl id (.bind_ok hpop id ?_)
  simp only [h.frames scope (by simp [ho])]
  exact dueFrom _ s

/-- What a visit fails with, for all declarations and in all states that open classifiers are in
order. -/
theorem dueFrom_importClassifier (c : Classifier) : ∀ {s : UnitState}, s.Nested →
    DueFrom s (importClassifier u file c) := by
  induction c using Classifier.nested_induction with
  | step c ih =>
    intro s h
    rw [importClassifier_eq]
    refine .assume fun hready => (dueFrom (enterClassifier u file c) s).bind fun n t₁ hrun₁ => ?_
    obtain ⟨-, t₀, frame, -, -, hopened, hl⟩ := (performs_enterClassifier h c).ok hrun₁
    have h₁ : t₁.Nested := hopened.nested.leads hl
    have ho₁ : t₁.scopes.opened = { frame } :: (s.scopes.touch n).opened := by
      rw [hl.unit.scopes, hopened.scopes]
      rfl
    have hbody : DueFrom t₁ (importBody u file c) := by
      cases c with
      | typed head heritage members =>
        exact dueFrom_importMembers h₁ ho₁ fun c hc _ hs => ih c hc hs
      | enumeration head interfaces literals =>
        refine dueFrom_literals h₁ ho₁ ?_
        rw [hopened.frames.home]
        exact isEnumeration_enter h hready.faithful hrun₁
    refine hbody.bind fun _ t₂ hrun₂ => ?_
    have hvisit : Performs (.free u) t₁ (importBody u file c t₁) fun _ t => ∃ touched,
        UnitState.Visit { frame } (s.scopes.touch n).opened (bodyKeys u file c t₁) touched t₁ t :=
      performs_importBody h₁ ho₁ fun c' _ _ hs => performs_settled hs c'
    obtain ⟨hs₂, touched, hv⟩ := hvisit.ok hrun₂
    have ho₂ : t₂.scopes.opened = { frame, touched } :: (s.scopes.touch n).opened := by
      rw [hv.scopes]
    exact (dueFrom_popClassifier (hv.nested h₁ ho₁ hs₂) ho₂).bind fun _ t' _ => .answer _ t'

/-! Units -/

/-- A package clause that comes while nothing is open. -/
lemma dueFrom_enterPackage (h : s.Sound) (ho : s.scopes.opened = []) (name : String) :
    DueFrom s (enterPackage u name) := by
  have entered (t : UnitState) (ht : t.Sound) (hot : t.scopes.opened = []) :
      DueFrom t (moveTo name) := by
    unfold moveTo moveToPackage
    refine (dueFrom (getPackage name) t).bind fun p t' hrun => ?_
    obtain ⟨-, -, hu, -⟩ := (performs_getPackage_unit (u := u) ht name).ok hrun
    have hreset : t'.scopes.resetPackage p =
        .ok { t'.scopes with package := p, packageTouched := [] } := by
      simp [ScopeStack.resetPackage, hu.scopes, hot]
    refine .bind_ok (t := t') (a := t') rfl id ?_
    rw [hreset]
    exact .bind_ok (t := t') rfl id (dueFrom _ t')
  rw [enterPackage_eq]
  refine .bind_ok (t := s) (a := s) rfl id ?_
  rw [if_neg (by simp [ScopeStack.depth, ho])]
  cases QualifiedName.segments name with
  | nil => exact entered s h ho
  | cons outer rest =>
    cases u.settings.srcPath with
    | none => exact entered s h ho
    | some path =>
      refine (dueFrom (getPackage outer) s).bind fun p t hrun => ?_
      obtain ⟨-, ht, hu, k, hk, hpack⟩ := (performs_getPackage_unit (u := u) h outer).ok hrun
      have hot : t.scopes.opened = [] := by rw [hu.scopes, ho]
      refine (dueFrom (query (·.taggedValue? p srcPathTag)) t).bind fun tagged t₁ hquery => ?_
      obtain ⟨-, rfl⟩ := query_eq_ok.mp hquery
      cases tagged with
      | some _ => exact entered t₁ ht hot
      | none =>
        refine (dueFrom (change (.setTaggedValue p srcPathTag path)) t₁).bind fun _ t₂ hset => ?_
        have hne : t₁.graph.Once p (·.mayOwn .taggedValue = true) := by
          apply once hk
          revert hpack
          cases k <;> decide
        have hperforms : Performs (.aroundUnits u) t₁ _ _ :=
          performs_setTaggedValue ht.graph hne srcPathTag path (by decide) (by decide) (by decide)
        obtain ⟨hs, hu'⟩ := hperforms.ok hset
        exact entered t₂ (ht.steps hs hu') (by rw [hu'.scopes, hot])

lemma houses_run {M : Manner} {a : α} (h : Composed M x) (hrun : x s = .ok a t)
    (hs : s.component.isSome = true) : t.component.isSome = true :=
  have ht : s.Houses t := ((houses h).ends s).ok hrun
  ht hs

/-- An import clause of a unit that has a component. -/
lemma dueFrom_addImport (hc : s.component.isSome = true) (name : String) :
    DueFrom s (addImport u name) := by
  have built (t : UnitState) (ht : t.component.isSome = true) (p : NodeId) :
      DueFrom t (buildImport u p) := by
    obtain ⟨component, hcomponent⟩ := Option.isSome_iff_exists.mp ht
    unfold buildImport
    refine .bind_ok (t := t) (a := t) rfl id ?_
    rw [hcomponent]
    refine (dueFrom _ t).bind fun deps t₁ _ => (dueFrom _ t₁).bind fun found t₂ _ => ?_
    cases found <;> exact dueFrom _ t₂
  have noted (t : UnitState) (ht : t.component.isSome = true) (f : ScopeStack → ScopeStack)
      (p : NodeId) : DueFrom t (do
        modifyScopes f
        some <$> buildImport u p) := by
    rw [map_eq_pure_bind]
    refine (dueFrom (modifyScopes f) t).bind fun _ t₁ hrun => ?_
    have hc₁ := houses_run (M := .dutiful) inferInstance hrun ht
    exact (built t₁ hc₁ p).bind fun _ t₂ _ => .answer _ t₂
  unfold addImport
  split_ifs
  · exact .answer none s
  rcases QualifiedName.split name with ⟨qualifier, simple⟩
  dsimp only
  split_ifs
  · refine (dueFrom (getPackage qualifier) s).bind fun p t hrun => ?_
    exact noted t (houses_run (M := .dutiful) inferInstance hrun hc) (·.addImportedPackage p) p
  · refine (dueFrom (resolve u name .any "an imported classifier") s).bind fun found t hrun => ?_
    have ht := houses_run (M := .dutiful) inferInstance hrun hc
    cases found with
    | none => exact .answer none t
    | some n => exact noted t ht (·.addImportedClassifier n) n

lemma component_addComponent (hrun : addComponent u s = .ok n t) : t.component.isSome = true := by
  unfold addComponent at hrun
  obtain ⟨_, _, hget, hrest⟩ := bind_eq_ok.mp hrun
  cases hget
  obtain ⟨c, s₁, -, hlast⟩ := bind_eq_ok.mp hrest
  cases hlast
  rfl

/-- What comes before the definitions of a unit. -/
lemma dueFrom_openUnit (h : s.Sound) (ho : s.scopes.opened = []) (hp : s.scopes.package = root)
    (unit : CompilationUnit) : DueFrom s (openUnit u unit) := by
  have clauses (t : UnitState) (ht : t.component.isSome = true) :
      DueFrom t (unit.imports.forM fun clause => do
        let _ ← addImport u clause.target : ImportM PUnit) := by
    refine .forM (J := fun t => t.component.isSome = true) ht ?_ ?_
    · exact fun clause _ t ht => (dueFrom_addImport ht _).bind fun _ t' _ => .answer _ t'
    · intro clause _ t t' ht hrun
      obtain ⟨_, t'', hadd, hlast⟩ := bind_eq_ok.mp hrun
      cases hlast
      exact houses_run (M := .free) inferInstance hadd ht
  unfold openUnit
  refine (dueFrom (addComponent u) s).bind fun c t hrun => ?_
  obtain ⟨-, ht, hscopes⟩ := (performs_addComponent h hp).ok hrun
  have hc := component_addComponent hrun
  cases unit.package with
  | none => exact clauses t hc
  | some clause =>
    refine (dueFrom_enterPackage ht (by rw [hscopes, ho]) clause.1).bind fun _ t' hrun' => ?_
    exact clauses t' (houses_run (M := .free) inferInstance hrun' hc)

/-- Nothing is open at the end of a unit. -/
lemma opened_definitions {ds : List Classifier} (h : s.Nested) (ho : s.scopes.opened = [])
    (hrun : (ds.forM (importClassifier u file) : ImportM PUnit) s = .ok ⟨⟩ t) :
    t.scopes.opened = [] := by
  induction ds generalizing s with
  | nil =>
    cases hrun
    exact ho
  | cons c ds ih =>
    obtain ⟨_, s₁, hone, hrest⟩ := bind_eq_ok.mp hrun
    obtain ⟨hs, n, hsettled⟩ := (performs_settled h c).ok hone
    refine ih (hsettled.nested h hs) ?_ hrest
    simp [hsettled.scopes, ScopeStack.touch, ho]

/-- A pass over a unit fails with an error that is due to the unit. -/
theorem dueFrom_importUnit (h : s.Sound) (ho : s.scopes.opened = [])
    (hp : s.scopes.package = root) (unit : CompilationUnit) : DueFrom s (importUnit u unit) := by
  rw [importUnit_eq]
  refine (dueFrom_openUnit h ho hp unit).bind fun _ t hrun => ?_
  obtain ⟨-, ht, hot⟩ := (performs_openUnit h ho hp unit).ok hrun
  have hdefinitions : DueFrom t
      (unit.definitions.forM (importClassifier u unit.file) : ImportM PUnit) := by
    refine .forM (J := UnitState.Nested) ht (fun c _ t ht => dueFrom_importClassifier c ht) ?_
    intro c _ t t' ht hrun
    obtain ⟨hs, n, hsettled⟩ := (performs_settled ht c).ok hrun
    exact hsettled.nested ht hs
  refine hdefinitions.bind fun _ t' hrun' => ?_
  unfold finish
  refine .bind_ok (t := t') (a := t') rfl id ?_
  rw [if_neg (by simp [ScopeStack.depth, opened_definitions ht hot hrun'])]
  exact .answer _ t'

end ImportM

namespace StoreM

variable {store : Store} {settings : Settings} {pass : Pass} {name : String}
  {unit : CompilationUnit}

lemma ready_start (h : store.graph.Sound) (u : UnitContext) : (UnitState.start u store).Ready :=
  ⟨h.stocked, nofun⟩

/-- Whatever a pass over a unit fails with on a sound graph is due to the unit. -/
theorem due_of_runPass (h : store.graph.Sound) {e : ImportError} {store' : Store}
    (hrun : runPass name settings unit pass store = .error e store') : e.IsDue := by
  unfold runPass at hrun
  dsimp only at hrun
  split at hrun
  · exact nomatch hrun
  · next hfailed =>
    cases hrun
    exact (ImportM.dueFrom_importUnit (UnitState.sound_start h) rfl rfl unit).error
      (ready_start h _) hfailed

end StoreM

end DeclGraph
