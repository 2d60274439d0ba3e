import DeclGraph.Proofs.Import.Descent

/-! Compilation units: components, package clauses and import clauses before the definitions, and
whole passes over a unit. -/

namespace DeclGraph

open DeclGraph.Graph

/-- What is made before the definitions of a unit. -/
def NodeKind.besideUnits : List NodeKind :=
  [.package, .component, .dependency, .stereotype, .taggedValue]

/-- What is changed before the definitions of a unit. -/
def NodeKind.describedWithUnits : List NodeKind := [.dependency, .stereotype, .taggedValue]

/-- What may be done before the definitions of a unit. -/
def Permit.aroundUnits (u : UnitContext) : Permit :=
  .within u NodeKind.besideUnits NodeKind.describedWithUnits

lemma NodeKind.role?_besideUnits : ∀ k ∈ besideUnits, k.role? = none := by decide

instance {u : UnitContext} : Permit.Modest u (.aroundUnits u) :=
  ⟨Permit.within_le_clear NodeKind.role?_besideUnits,
    fun h hs hu => h.leads hs NodeKind.role?_besideUnits hu⟩

namespace ImportM

variable {s t : UnitState} {u : UnitContext} {c n p : NodeId} {k : NodeKind}

lemma component_of_component? {g : Graph} {n : NodeId} {name : Option String}
    (h : g.component? n name = .ok (some c)) : g.kind? c = some .component := by
  obtain ⟨r, hr, hfind⟩ := childOfKind?_eq_ok h
  obtain ⟨_, rc, hrc, hq⟩ := findIn_eq_some hfind.symm
  simp only [Bool.and_eq_true, decide_eq_true_eq] at hq
  rw [kind?_eq hrc, hq.1]

lemma nameOf_eq_ok {g : Graph} {n : NodeId} {name : Option String} (h : g.nameOf n = .ok name) :
    ∃ r, g.node? n = some r ∧ r.name = name := by
  unfold nameOf at h
  cases hr : g.node? n with
  | none => simp [get_of_none hr] at h
  | some r => exact ⟨r, rfl, by simpa [get_of_node? hr] using h⟩

/-- Where no component of a name is found, or only one of them, there is no other. -/
lemma free_component {g : Graph} {r : Node} {existing : Option NodeId} (hg : g.Sound)
    (hr : g.node? c = some r) (hf : g.component? p r.name = .ok existing)
    (hself : existing.filter (· ≠ c) = none) :
    r.owner = some p ∨ g.Free (.place .component (some p) r.name) := by
  obtain ⟨rp, hrp, rfl⟩ := childOfKind?_eq_ok hf
  cases hfind : g.findIn rp.owned fun x => x.kind = .component && x.name = r.name with
  | none =>
    refine Or.inr (hg.free_place hrp (k := .component) hfind ?_)
    intro x hx hname
    simp [NodeKind.eq_of_family? hx (by decide), hname]
  | some c' =>
    rw [hfind] at hself
    obtain rfl : c' = c := by simpa using hself
    obtain ⟨r', hr', ho, -⟩ := (hg.mem_children hrp .owned c').mp (findIn_eq_some hfind).1
    obtain rfl := Option.some.inj (hr.symm.trans hr')
    exact Or.inl ho

/-- In the root, a component is found or made there. -/
lemma performs_upsertComponent (h : s.graph.Sound) (name : String) :
    Performs (.aroundUnits u) s (upsertComponent root name s) fun c t =>
      s.SameUnit t ∧ t.graph.Once c (· = .component) := by
  unfold upsertComponent
  apply bind_query
  intro found hf
  cases found with
  | some c => exact Performs.answer ⟨.refl s, once (component_of_component? hf) rfl⟩
  | none =>
    obtain ⟨g', hrun, hb⟩ := GraphM.create_under s.graph .component (some name) h.root_live
    have hadd : s.graph.Addable { kind := .component, name := some name, owner := some root } := by
      apply addable_of_role (fun s => by cases s <;> rfl) ⟨by simp, by simp, by simp⟩ ?_
        (fun _ => ⟨root, rfl⟩) (joins_of_endpoints rfl) rfl (by simp) rfl rfl
      intro p hp
      exact ⟨_, Option.some.inj hp ▸ h.root_kind, rfl⟩
    obtain ⟨rp, hrp, hfind⟩ := childOfKind?_eq_ok hf
    have hfree : s.graph.Free (.place .component (some root) (some name)) := by
      apply h.free_place hrp (k := .component) hfind.symm
      intro x hx hname
      simp [NodeKind.eq_of_family? hx (by decide), hname]
    have hstep := h.build hadd rfl hb fun key hf => eq_place_of_fits rfl hf ▸ hfree
    apply bind_change hrun (hstep.permitted
      ⟨(by decide : NodeKind.component ∈ NodeKind.besideUnits), by simp⟩)
    exact bind_register (bind_emit (Performs.answer ⟨⟨rfl, rfl⟩, once hb.kind?_new rfl⟩))

lemma performs_settleComponent (h : s.graph.Sound) (hc : s.graph.Once c (· = .component))
    (hp : s.graph.kind? p = some k) (hk : k.isPackage = true) :
    Performs (.aroundUnits u) s (settleComponent c p s) fun c' t =>
      s.SameUnit t ∧ t.graph.Once c' (· = .component) := by
  unfold settleComponent
  apply bind_query
  intro name hname
  obtain ⟨r, hr, rfl⟩ := nameOf_eq_ok hname
  have hkc := hc.kind (kind?_eq hr)
  obtain ⟨title, htitle⟩ : ∃ title, r.name = some title := by
    have hcomplete := (h.proper hr).complete
    rw [Node.isComplete, hkc] at hcomplete
    exact Option.isSome_iff_exists.mp hcomplete
  simp only [htitle]
  apply bind_query
  intro existing hf
  cases hfilter : existing.filter (· ≠ c) with
  | none =>
    have hset : s.graph.Once c fun k =>
        k ∈ NodeKind.besideUnits ∧ (k.isEdge = true ∨ k = .component) := by
      apply hc.imp
      rintro k rfl
      decide
    apply Performs.bind (performs_setNamespace h hset hp hk ?_)
    · exact fun _ t hs hu => Performs.answer ⟨hu, hc.steps hs⟩
    · intro r' hr' _
      obtain rfl := Option.some.inj (hr.symm.trans hr')
      exact free_component h hr (htitle ▸ hf) hfilter
  | some c' =>
    obtain ⟨hin, -⟩ := Option.filter_eq_some_iff.mp hfilter
    have hc' : s.graph.kind? c' = some .component := component_of_component? (hin ▸ hf)
    have hstep : Steps (Permit.aroundUnits u) s.graph (s.graph.remove (s.graph.doomedWith c)) :=
      (Step.delete hr (by rw [hkc]; rfl)).permitted
        ⟨.component, by decide, by rw [kind?_eq hr, hkc], by decide⟩
    have hkept : (s.graph.remove (s.graph.doomedWith c)).Once c' (· = .component) :=
      Once.steps (q := (· = .component)) (once hc' rfl) hstep
    apply bind_change (GraphM.delete_ok (isLive_of_node? hr)) hstep
    apply bind_discard
    apply bind_emit
    exact Performs.answer ⟨⟨rfl, rfl⟩, hkept⟩

lemma performs_addComponent (h : s.Sound) (hp : s.scopes.package = root) :
    Performs (.aroundUnits u) s (addComponent u s) fun _ t => t.Sound ∧ t.scopes = s.scopes := by
  unfold addComponent
  apply bind_get
  rw [hp]
  apply Performs.bind (performs_upsertComponent h.graph u.name)
  rintro c t hs ⟨hu, hc⟩
  have ht := h.steps hs hu
  apply bind_modify rfl
  apply Performs.answer
  refine ⟨⟨ht.graph, ht.package, fun c' hc' => ?_⟩, hu.scopes⟩
  exact Option.some.inj hc' ▸ hc

lemma performs_getPackage_unit (h : s.Sound) (name : String) :
    Performs (.aroundUnits u) s (getPackage name s) fun p t =>
      t.Sound ∧ s.SameUnit t ∧ ∃ k, t.graph.kind? p = some k ∧ k.isPackage = true :=
  Performs.sound h ((performs_getPackage name h.graph).weaken
    (Permit.within_mono (by decide) (by decide)))

/-- The component of a unit goes to a package. -/
def settle (package : NodeId) : ImportM NodeId := do
  if let some component := (← get).component then
    let component ← settleComponent component package
    modify ({ · with component := some component })
  return package

/-- The current package of a unit is another one, where its component goes as well. -/
def moveToPackage (package : NodeId) : ImportM NodeId := do
  let scopes ← placed ((← get).scopes.resetPackage package)
  modify ({ · with scopes })
  settle package

def moveTo (name : String) : ImportM NodeId := do moveToPackage (← getPackage name)

lemma enterPackage_eq (u : UnitContext) (name : String) : enterPackage u name = (do
    if (← get).scopes.depth ≠ 0 then throw (.misplaced (.packageInClassifier name))
    if let (outer :: _, some path) := (QualifiedName.segments name, u.settings.srcPath) then
      let package ← getPackage outer
      if (← query (·.taggedValue? package srcPathTag)).isNone then
        let _ ← change (.setTaggedValue package srcPathTag path)
    moveTo name) := by
  unfold enterPackage
  -- the two matches are the same only once what they are on is known
  cases QualifiedName.segments name <;> cases u.settings.srcPath <;> rfl

lemma performs_settle (h : s.Sound) (ho : s.scopes.opened = []) (hp : s.graph.kind? p = some k)
    (hk : k.isPackage = true) : Performs (.aroundUnits u) s (settle p s) fun _ t =>
      t.Sound ∧ t.scopes.opened = [] := by
  unfold settle
  apply bind_get
  cases hc : s.component with
  | none => exact Performs.answer ⟨h, ho⟩
  | some c =>
    apply Performs.bind (performs_settleComponent h.graph (h.component c hc) hp hk)
    rintro c' t hs ⟨hu, hc'⟩
    have ht := h.steps hs hu
    apply bind_modify rfl
    apply Performs.answer
    refine ⟨⟨ht.graph, ht.package, fun c₁ hc₁ => Option.some.inj hc₁ ▸ hc'⟩, ?_⟩
    rw [← ho, ← hu.scopes]

lemma performs_moveToPackage (h : s.Sound) (hp : s.graph.kind? p = some k)
    (hk : k.isPackage = true) : Performs (.aroundUnits u) s (moveToPackage p s) fun _ t =>
      t.Sound ∧ t.scopes.opened = [] := by
  unfold moveToPackage
  apply bind_get
  cases ho : s.scopes.opened with
  | cons scope rest =>
    have hreset : s.scopes.resetPackage p = .error .packageWhileOpen := by
      simp [ScopeStack.resetPackage, ho]
    rw [hreset]
    exact Performs.failure_bind
  | nil =>
    let scopes : ScopeStack := { s.scopes with package := p, packageTouched := [] }
    have hreset : s.scopes.resetPackage p = .ok scopes := by
      simp [ScopeStack.resetPackage, ho, scopes]
    have ht : ({ s with scopes } : UnitState).Sound := ⟨h.graph, ⟨k, hp, hk⟩, h.component⟩
    rw [hreset]
    apply Performs.bind_same (t := s) (a := scopes) rfl rfl
    apply bind_modify rfl
    exact performs_settle ht ho hp hk

lemma performs_enterPackage (h : s.Sound) (name : String) :
    Performs (.aroundUnits u) s (enterPackage u name s) fun _ t =>
      t.Sound ∧ t.scopes.opened = [] := by
  have entered : ∀ t : UnitState, t.Sound → Performs (.aroundUnits u) t (moveTo name t)
      fun _ t => t.Sound ∧ t.scopes.opened = [] := by
    intro t ht
    unfold moveTo
    apply Performs.bind (performs_getPackage_unit ht name)
    rintro p t' - ⟨ht', -, k, hp, hk⟩
    exact performs_moveToPackage ht' hp hk
  rw [enterPackage_eq]
  apply bind_get
  split_ifs
  · exact Performs.failure
  · cases hn : QualifiedName.segments name with
    | nil => exact entered s h
    | cons outer rest =>
      cases hp : u.settings.srcPath with
      | none => exact entered s h
      | some path =>
        apply Performs.bind (performs_getPackage_unit h outer)
        rintro p t - ⟨ht, -, k, hk, hpack⟩
        apply bind_query
        intro tagged _
        cases tagged with
        | some _ => exact entered t ht
        | none =>
          have hne : t.graph.Once p (·.mayOwn .taggedValue = true) := by
            apply once hk
            revert hpack
            cases k <;> decide
          apply Performs.bind (performs_setTaggedValue ht.graph hne srcPathTag path (by decide)
            (by decide) (by decide))
          intro _ t' hs hu
          exact entered t' (ht.steps hs hu)

/-- A clause makes something visible and becomes a dependency on it. -/
lemma performs_importOf (h : s.Sound) (hn : s.graph.Once n (·.isEndpoint = true))
    {f : ScopeStack → ScopeStack} (hpack : (f s.scopes).package = s.scopes.package)
    (hopen : (f s.scopes).opened = s.scopes.opened) : Performs (.aroundUnits u) s ((do
      modifyScopes f
      some <$> buildImport u n : ImportM (Option NodeId)) s)
      fun _ t => t.Sound ∧ t.scopes.opened = s.scopes.opened := by
  have h' : ({ s with scopes := f s.scopes } : UnitState).Sound :=
    ⟨h.graph, hpack ▸ h.package, h.component⟩
  apply bind_modify rfl
  have hrun : Performs (.aroundUnits u) { s with scopes := f s.scopes }
      (buildImport u n { s with scopes := f s.scopes }) _ :=
    (performs_buildImport h' hn).weaken (Permit.within_mono (by decide) (by decide))
  constructor
  apply Ends.map
  apply hrun.ends.imp
  rintro _ t ⟨hs, hu⟩
  refine ⟨hs, h'.steps hs hu, ?_⟩
  rw [hu.scopes, ← hopen]

lemma performs_addImport (h : s.Sound) (name : String) :
    Performs (.aroundUnits u) s (addImport u name s) fun _ t =>
      t.Sound ∧ t.scopes.opened = s.scopes.opened := by
  unfold addImport
  split_ifs
  · exact Performs.answer ⟨h, rfl⟩
  rcases QualifiedName.split name with ⟨qualifier, simple⟩
  dsimp only
  split_ifs
  · apply Performs.bind (performs_getPackage_unit h qualifier)
    rintro p t - ⟨ht, hu, k, hp, hk⟩
    have hend : k.isEndpoint = true := by
      revert hk
      cases k <;> decide
    rw [← hu.scopes]
    apply performs_importOf ht (once hp hend) <;> unfold ScopeStack.addImportedPackage <;>
      split <;> rfl
  · have hle : Permit.within u [.package] [] ≤ Permit.aroundUnits u :=
      Permit.within_mono (by decide) (by decide)
    apply Performs.bind (Performs.sound h ((performs_resolve name .any _ h.graph).weaken hle))
    rintro (_ | n) t - ⟨ht, hu, hn⟩
    · exact Performs.answer ⟨ht, by rw [hu.scopes]⟩
    · obtain ⟨k, hk, hacc⟩ := hn n rfl
      have hend := NodeKind.isEndpoint_of_isClassifier (ResolveMode.isClassifier_of_accepts hacc)
      rw [← hu.scopes]
      apply performs_importOf ht (once hk hend) <;> unfold ScopeStack.addImportedClassifier <;>
        split <;> rfl

/-- The first part of the import of a unit, up to its definitions. -/
def openUnit (u : UnitContext) (unit : CompilationUnit) : ImportM Unit := do
  let _ ← addComponent u
  if let some (name, _) := unit.package then
    let _ ← enterPackage u name
  unit.imports.forM fun clause => do
    let _ ← addImport u clause.target

lemma importUnit_eq (u : UnitContext) (unit : CompilationUnit) :
    importUnit u unit = (do
      openUnit u unit
      unit.definitions.forM (importClassifier u unit.file)
      finish u : ImportM Unit) := by
  unfold importUnit openUnit
  cases unit.package <;> simp

/-- Where the definitions of a unit begin, no classifier is open. -/
lemma performs_openUnit (h : s.Sound) (ho : s.scopes.opened = []) (hp : s.scopes.package = root)
    (unit : CompilationUnit) :
    Performs (.aroundUnits u) s (openUnit u unit s) fun _ t => t.Nested ∧ t.scopes.opened = [] := by
  have clauses : ∀ t : UnitState, t.Sound → t.scopes.opened = [] →
      Performs (.aroundUnits u) t ((unit.imports.forM fun clause => do
        let _ ← addImport u clause.target : ImportM Unit) t)
        fun _ t => t.Nested ∧ t.scopes.opened = [] := by
    intro t ht hot
    have hloop : Performs (.aroundUnits u) t ((unit.imports.forM fun clause => do
        let _ ← addImport u clause.target : ImportM Unit) t)
        fun _ t => t.Sound ∧ t.scopes.opened = [] := by
      apply performs_forM (I := fun t => t.Sound ∧ t.scopes.opened = []) _ ⟨ht, hot⟩
      rintro clause - t' ⟨ht', hot'⟩
      apply Performs.bind (performs_addImport ht' clause.target)
      rintro _ t'' - ⟨ht'', hot''⟩
      exact Performs.answer ⟨ht'', hot''.trans hot'⟩
    apply hloop.imp
    rintro _ t' ⟨ht', hot'⟩
    exact ⟨⟨ht', by simp [hot', Graph.Nested], by simp [hot']⟩, hot'⟩
  unfold openUnit
  apply Performs.bind (performs_addComponent h hp)
  rintro _ t - ⟨ht, hscopes⟩
  have hot : t.scopes.opened = [] := by rw [hscopes, ho]
  cases unit.package with
  | none => exact clauses t ht hot
  | some clause =>
    apply Performs.bind (performs_enterPackage ht clause.1)
    rintro _ t' - ⟨ht', hot'⟩
    exact clauses t' ht' hot'

/-- Definitions are imported one after the other. -/
lemma performs_definitions (h : s.Nested) {file : Option String} (ds : List Classifier) :
    Performs (.free u) s ((ds.forM (importClassifier u file) : ImportM Unit) s)
      fun _ t => t.Nested := by
  apply performs_forM (I := UnitState.Nested) _ h
  rintro c - t ht
  have hrun : Performs (.free u) t (importClassifier u file c t) fun _ t' =>
      ∃ n t₀ t₁, Visited u file c n t t₀ t₁ t' := performs_importClassifier c ht
  constructor
  apply hrun.ends.imp
  rintro _ t' ⟨hs, n, t₀, t₁, hv⟩
  exact ⟨hs, hv.settled.nested ht hs⟩

/-- A pass over a unit makes changes that are free to it. -/
theorem performs_importUnit (h : s.Sound) (ho : s.scopes.opened = []) (hp : s.scopes.package = root)
    (unit : CompilationUnit) :
    Performs (.free u) s (importUnit u unit s) fun _ t => t.Nested := by
  rw [importUnit_eq]
  apply Performs.bind ((performs_openUnit h ho hp unit).weaken Permit.within_le_free)
  rintro _ t - ⟨ht, hot⟩
  apply Performs.bind (performs_definitions ht unit.definitions)
  rintro _ t' - ht'
  unfold finish
  apply bind_get
  split_ifs
  · exact Performs.failure
  · exact Performs.answer ht'

end ImportM

end DeclGraph
