import DeclGraph.Proofs.Import.Registry
import DeclGraph.Proofs.Import.Runs

/-! The first pass over a unit sees its skeleton alone: the package and the heads of classifiers.
Import clauses, what classifiers build on, their features and literals make no difference to it, and
neither do the settings that say what becomes of those. -/

namespace DeclGraph

open DeclGraph.Graph

/-! Skeletons of units -/

/-- The name is not qualified. -/
def Head.IsSimple (h : Head) : Prop := (QualifiedName.split h.name).1 = ""

instance (h : Head) : Decidable h.IsSimple := inferInstanceAs (Decidable (_ = _))

/-- The declaration without what it builds on. -/
def Heritage.skeleton : Heritage → Heritage
  | ofClass .. => ofClass none []
  | ofInterface _ => ofInterface []

mutual

/-- The heads of a classifier and of those nested in it. -/
def Classifier.skeleton : Classifier → Classifier
  | .typed head heritage members => .typed head heritage.skeleton (Member.skeletons members)
  | .enumeration head _ _ => .enumeration head [] []

def Member.skeletons : List Member → List Member
  | [] => []
  | .attr _ :: rest => Member.skeletons rest
  | .operation _ :: rest => Member.skeletons rest
  | .classifier c :: rest => .classifier c.skeleton :: Member.skeletons rest

end

mutual

/-- The heads of the attributes and operations of a classifier and of those nested in it. -/
def Classifier.featureHeads : Classifier → List Head
  | .typed _ _ members => Member.featureHeads members
  | .enumeration .. => []

def Member.featureHeads : List Member → List Head
  | [] => []
  | .attr a :: rest => a.head :: Member.featureHeads rest
  | .operation o :: rest => o.head :: Member.featureHeads rest
  | .classifier c :: rest => c.featureHeads ++ Member.featureHeads rest

end

namespace CompilationUnit

/-- The unit without import clauses, and with the skeletons of its classifiers alone. -/
def skeleton (unit : CompilationUnit) : CompilationUnit :=
  { unit with imports := [], definitions := unit.definitions.map (·.skeleton) }

def featureHeads (unit : CompilationUnit) : List Head := unit.definitions.flatMap (·.featureHeads)

end CompilationUnit

/-- Two contexts that a first pass does not tell apart. -/
structure UnitContext.SameGround (u u' : UnitContext) : Prop where
  name : u.name = u'.name
  first : u.pass = .skeleton
  pass : u.pass = u'.pass
  srcPath : u.settings.srcPath = u'.settings.srcPath

namespace ImportM

variable {s t : UnitState} {u u' : UnitContext} {file : Option String} {c : Classifier}

/-! What the first pass leaves out -/

lemma addImport_first (h : u.pass = .skeleton) (name : String) :
    addImport u name = pure none := by
  simp [addImport, h, Pass.buildsReferences]

lemma addInheritance_first (h : u.pass = .skeleton) (n : NodeId) (kind : ClassifierKind)
    (superclass : Option String) (interfaces : List String) :
    addInheritance u n kind superclass interfaces = pure () := by
  simp [addInheritance, h, Pass.buildsReferences]

lemma addAttribute_first (h : u.pass = .skeleton) (modifiers : ModifierSet)
    (type : Option String) (name : String) (initializer doc : Option String) :
    addAttribute u modifiers type name initializer doc = (do
      let _ ← requireClassifier (.attributeOutside name)
      return none) := by
  simp [addAttribute, h, Pass.buildsReferences]

lemma addOperation_first (h : u.pass = .skeleton) (modifiers : ModifierSet)
    (returnType : Option String) (name : String) (parameters : List ParameterDeclaration)
    (doc : Option String) :
    addOperation u modifiers returnType name parameters doc = (do
      let _ ← requireClassifier (.operationOutside name)
      return none) := by
  simp [addOperation, h, Pass.buildsReferences]

/-- All that a first pass does is groundwork. -/
lemma declaring_skeleton (h : u.pass = .skeleton) : Manner.Declaring .skeleton u where
  misplaced := Manner.Misplacing.misplaced
  inconsistent := by simp [Manner.skeleton, ImportError.kind]
  addImport name := by
    rw [addImport_first h]
    infer_instance
  addInheritance n kind superclass interfaces := by
    rw [addInheritance_first h]
    infer_instance
  addAttribute modifiers type name initializer doc := by
    rw [addAttribute_first h]
    infer_instance
  addOperation modifiers returnType name parameters doc := by
    rw [addOperation_first h]
    infer_instance

/-! Features and literals -/

lemma simpleName_of_isSimple {h : Head} (hsimple : h.IsSimple) :
    h.simpleName file = pure h.simple := by
  rcases hsplit : QualifiedName.split h.name with ⟨q, simple⟩
  obtain rfl : q = "" := by rw [← hsimple, hsplit]
  unfold Head.simpleName Head.simple
  rw [hsplit]
  rfl

variable {n : NodeId}

lemma importAttribute_first (hu : u.pass = .skeleton)
    (hn : ∀ fault, requireClassifier fault s = .ok n s) {a : AttributeDecl}
    (hsimple : a.head.IsSimple) : importAttribute u file a s = .ok () s := by
  unfold importAttribute
  rw [simpleName_of_isSimple hsimple, pure_bind, addAttribute_first hu, bind_assoc]
  exact bind_run (hn _)

lemma importOperation_first (hu : u.pass = .skeleton)
    (hn : ∀ fault, requireClassifier fault s = .ok n s) {o : OperationDecl}
    (hsimple : o.head.IsSimple) : importOperation u file o s = .ok () s := by
  unfold importOperation
  rw [simpleName_of_isSimple hsimple, pure_bind, addOperation_first hu, bind_assoc]
  exact bind_run (hn _)

lemma addEnumerationLiteral_first (hu : u.pass = .skeleton)
    (hn : ∀ fault, requireClassifier fault s = .ok n s) (hs : isEnumeration n s = .ok true s)
    (literal : String) : addEnumerationLiteral u literal s = .ok none s := by
  unfold addEnumerationLiteral
  refine (bind_run (hn _)).trans ((bind_run hs).trans ?_)
  simp only [Bool.not_true, Bool.false_eq_true, if_false]
  rw [addAttribute_first hu]
  exact bind_run (hn _)

lemma literals_first (hu : u.pass = .skeleton)
    (hn : ∀ fault, requireClassifier fault s = .ok n s) (hs : isEnumeration n s = .ok true s)
    (literals : List String) : (literals.forM fun literal => do
      let _ ← addEnumerationLiteral u literal : ImportM PUnit) s = .ok ⟨⟩ s := by
  induction literals with
  | nil => rfl
  | cons literal literals ih =>
    have hfirst : (do let _ ← addEnumerationLiteral u literal : ImportM PUnit) s = .ok ⟨⟩ s :=
      bind_run (addEnumerationLiteral_first hu hn hs literal)
    exact (bind_run hfirst).trans ih

/-! Classifiers -/

lemma enterClassifier_skeleton (hu : u.SameGround u') :
    enterClassifier u file c = enterClassifier u' file c.skeleton := by
  have hhead : c.skeleton.head = c.head := by
    cases c <;> simp [Classifier.skeleton, Classifier.head]
  have hkind : c.skeleton.kind = c.kind := by
    cases c with
    | typed head heritage members =>
      cases heritage <;> simp [Classifier.skeleton, Classifier.kind, Heritage.skeleton]
    | enumeration => simp [Classifier.skeleton, Classifier.kind]
  have hadd : addClassifier u = addClassifier u' := by
    unfold addClassifier
    rw [hu.pass]
  unfold enterClassifier
  simp only [addInheritance_first hu.first, addInheritance_first (hu.pass ▸ hu.first), hhead, hkind,
    hadd]

lemma popClassifier_congr (hu : u.SameGround u') : popClassifier u = popClassifier u' := by
  unfold popClassifier
  rw [hu.pass]

/-- Of the members, the first pass sees the classifiers alone. -/
lemma importMembers_skeleton (hu : u.SameGround u') {ms : List Member} {scope : Scope}
    {rest : List Scope} (hs : s.Nested) (hf : s.Faithful) (ho : s.scopes.opened = scope :: rest)
    (hsimple : ∀ head ∈ Member.featureHeads ms, head.IsSimple)
    (hinner : ∀ c, .classifier c ∈ ms → (∀ head ∈ c.featureHeads, head.IsSimple) →
      ∀ s : UnitState, s.Nested → s.Faithful →
        importClassifier u file c s = importClassifier u' file c.skeleton s) :
    importMembers u file ms s = importMembers u' file (Member.skeletons ms) s := by
  induction ms generalizing s scope with
  | nil => simp only [Member.skeletons, importMembers]
  | cons m ms ih =>
    have hn := requireClassifier_ok hs ho
    have hrest : ∀ c, .classifier c ∈ ms → (∀ head ∈ c.featureHeads, head.IsSimple) →
        ∀ s : UnitState, s.Nested → s.Faithful →
          importClassifier u file c s = importClassifier u' file c.skeleton s :=
      fun c hc => hinner c (by simp [hc])
    rw [importMembers]
    cases m with
    | attr a =>
      simp only [Member.featureHeads, List.forall_mem_cons] at hsimple
      rw [importMember, Member.skeletons, bind_run (importAttribute_first hu.first hn hsimple.1)]
      exact ih hs hf ho hsimple.2 hrest
    | operation o =>
      simp only [Member.featureHeads, List.forall_mem_cons] at hsimple
      rw [importMember, Member.skeletons, bind_run (importOperation_first hu.first hn hsimple.1)]
      exact ih hs hf ho hsimple.2 hrest
    | classifier c =>
      simp only [Member.featureHeads, List.forall_mem_append] at hsimple
      rw [Member.skeletons, importMembers, importMember, importMember]
      refine bind_congr_run (hinner c (by simp) hsimple.1 s hs hf) fun _ t hrun => ?_
      obtain ⟨hst, n, hsettled⟩ := (performs_settled hs c).ok hrun
      have hv := hsettled.visit ho
      have := declaring_skeleton hu.first
      have hot : t.scopes.opened = { scope with touched := n :: scope.touched } :: rest := by
        rw [hv.scopes]
      exact ih (hv.nested hs ho hst) (faithful_run hf hrun) hot hsimple.2 hrest

lemma importBody_skeleton (hu : u.SameGround u') {scope : Scope} {rest : List Scope}
    (hs : s.Nested) (hf : s.Faithful) (ho : s.scopes.opened = scope :: rest)
    (hkind : c.kind = .enumeration → isEnumeration scope.frame.home s = .ok true s)
    (hsimple : ∀ head ∈ c.featureHeads, head.IsSimple)
    (hinner : ∀ c', .classifier c' ∈ c.members → (∀ head ∈ c'.featureHeads, head.IsSimple) →
      ∀ s : UnitState, s.Nested → s.Faithful →
        importClassifier u file c' s = importClassifier u' file c'.skeleton s) :
    importBody u file c s = importBody u' file c.skeleton s := by
  cases c with
  | typed head heritage members =>
    rw [Classifier.featureHeads] at hsimple
    rw [Classifier.skeleton]
    exact importMembers_skeleton hu hs hf ho hsimple hinner
  | enumeration head interfaces literals =>
    rw [Classifier.skeleton]
    exact literals_first hu.first (requireClassifier_ok hs ho) (hkind rfl) literals

/-- The first pass sees the skeletons of classifiers alone. -/
theorem importClassifier_skeleton (hu : u.SameGround u') (c : Classifier)
    (hsimple : ∀ head ∈ c.featureHeads, head.IsSimple) : ∀ {s : UnitState}, s.Nested → s.Faithful →
      importClassifier u file c s = importClassifier u' file c.skeleton s := by
  have := declaring_skeleton hu.first
  induction c using Classifier.nested_induction with
  | step c ih =>
    intro s hs hf
    rw [importClassifier_eq, importClassifier_eq, ← enterClassifier_skeleton hu,
      ← popClassifier_congr hu]
    refine bind_congr_run rfl fun n t₁ hrun => ?_
    obtain ⟨-, t₀, frame, hadd, hinherit, hopened, -⟩ := (performs_enterClassifier hs c).ok hrun
    obtain rfl : t₀ = t₁ := by
      rw [addInheritance_first hu.first] at hinherit
      exact (EStateM.Result.ok.inj hinherit).2
    have hf₀ : t₀.Faithful := faithful_run hf hadd
    have ho₀ : t₀.scopes.opened = { frame } :: (s.scopes.touch n).opened := by
      rw [hopened.scopes]
      rfl
    refine bind_congr_run (importBody_skeleton hu hopened.nested hf₀ ho₀ (fun hkind => ?_) hsimple
      fun c' hc' h s hs hf => ih c' hc' h hs hf) fun _ _ _ => rfl
    rw [hkind] at hadd
    rw [hopened.frames.home]
    exact isEnumeration_addClassifier hs hf hadd

/-! Units -/

lemma openUnit_skeleton (hu : u.SameGround u') (unit : CompilationUnit) :
    openUnit u unit = openUnit u' unit.skeleton := by
  have hcomponent : addComponent u = addComponent u' := by
    unfold addComponent
    rw [hu.name]
  have hpackage : enterPackage u = enterPackage u' := by
    unfold enterPackage
    rw [hu.srcPath]
  have himports : (unit.imports.forM fun clause => do
      let _ ← addImport u clause.target : ImportM PUnit) = pure ⟨⟩ := by
    simp only [addImport_first hu.first, pure_bind]
    induction unit.imports with
    | nil => rfl
    | cons clause clauses ih => exact ih
  unfold openUnit
  rw [hcomponent, hpackage, himports]
  rfl

lemma definitions_skeleton (hu : u.SameGround u') {ds : List Classifier} (hs : s.Nested)
    (hf : s.Faithful) (hsimple : ∀ c ∈ ds, ∀ head ∈ c.featureHeads, head.IsSimple) :
    (ds.forM (importClassifier u file) : ImportM Unit) s =
      ((ds.map (·.skeleton)).forM (importClassifier u' file) : ImportM Unit) s := by
  have := declaring_skeleton hu.first
  induction ds generalizing s with
  | nil => rfl
  | cons c ds ih =>
    refine bind_congr_run (importClassifier_skeleton hu c (hsimple c (by simp)) hs hf)
      fun _ t hrun => ?_
    obtain ⟨hst, n, hsettled⟩ := (performs_settled hs c).ok hrun
    exact ih (hsettled.nested hs hst) (faithful_run hf hrun) fun c hc => hsimple c (by simp [hc])

theorem importUnit_skeleton (hu : u.SameGround u') {unit : CompilationUnit} (hs : s.Sound)
    (hf : s.Faithful) (ho : s.scopes.opened = []) (hp : s.scopes.package = root)
    (hsimple : ∀ head ∈ unit.featureHeads, head.IsSimple) :
    importUnit u unit s = importUnit u' unit.skeleton s := by
  have := declaring_skeleton hu.first
  have hfinish : finish u = finish u' := by
    unfold finish
    rw [hu.name]
  rw [importUnit_eq, importUnit_eq, ← openUnit_skeleton hu, ← hfinish]
  refine bind_congr_run rfl fun _ t hrun => ?_
  obtain ⟨-, ht, -⟩ := (performs_openUnit hs ho hp unit).ok hrun
  have hheads : ∀ c ∈ unit.definitions, ∀ head ∈ c.featureHeads, head.IsSimple :=
    fun c hc head hhead => hsimple head (List.mem_flatMap.mpr ⟨c, hc, hhead⟩)
  exact bind_congr_run (definitions_skeleton hu ht (faithful_run hf hrun) hheads) fun _ _ _ => rfl

end ImportM

namespace StoreM

variable {store : Store} {settings settings' : Settings} {unit : CompilationUnit} {name : String}

/-- A unit starts without stereotypes that it remembers. -/
lemma faithful_start (u : UnitContext) (store : Store) : (UnitState.start u store).Faithful :=
  fun _ _ => nofun

/-- A unit and its skeleton lead to the same, and so do settings that differ in what becomes of
references. -/
lemma runPass_skeleton_congr (h : store.graph.Sound)
    (hsimple : ∀ head ∈ unit.featureHeads, head.IsSimple)
    (hpath : settings.srcPath = settings'.srcPath)
    (hsynth : settings.synthesizeStereotypes = settings'.synthesizeStereotypes) :
    runPass name settings unit .skeleton store =
      runPass name settings' unit.skeleton .skeleton store := by
  let u : UnitContext := ⟨name, .skeleton, settings⟩
  let u' : UnitContext := ⟨name, .skeleton, settings'⟩
  have hu : u.SameGround u' := ⟨rfl, rfl, rfl, hpath⟩
  have hstart : UnitState.start u' store = .start u store := by
    simp only [UnitState.start, u, u', hsynth]
  have hunit := ImportM.importUnit_skeleton hu (UnitState.sound_start h) (faithful_start u store)
    rfl rfl hsimple
  have hrun : ImportM.importUnit u unit (.start u store) =
      ImportM.importUnit u' unit.skeleton (.start u' store) := by rw [hstart, hunit]
  unfold runPass
  dsimp only
  rw [hrun]

section

variable (name : String) (settings : Settings) (unit : CompilationUnit)

lemma composed_firstPass :
    Composed .skeleton (ImportM.importUnit ⟨name, .skeleton, settings⟩ unit) :=
  have := ImportM.declaring_skeleton (u := ⟨name, .skeleton, settings⟩) rfl
  inferInstance

/-- The first pass over a unit lays groundwork and warns about nothing. -/
lemma laid_runPass (store : Store) :
    store.graph.Lays (finalState (runPass name settings unit .skeleton store)).graph ∧
      (finalState (runPass name settings unit .skeleton store)).session.diagnostics =
        store.session.diagnostics := by
  have hlaid := (ImportM.laid (composed_firstPass name settings unit)).final
    (.start ⟨name, .skeleton, settings⟩ store)
  unfold runPass
  dsimp only
  split <;> next hr =>
    rw [hr] at hlaid
    exact ⟨hlaid.graph, hlaid.diagnostics⟩

/-- The first pass over a unit resolves no names. -/
lemma resolved_of_runPass {store store' : Store} {e : ImportError} (hs : store.graph.Stocked)
    (h : runPass name settings unit .skeleton store = .error e store') : e.kind ≠ .unresolved := by
  unfold runPass at h
  dsimp only at h
  split at h
  · exact nomatch h
  · next hr =>
    cases h
    exact (composed_firstPass name settings unit).failsIn.error hs hr

end

/-- What the first pass over a unit does depends on the skeleton of the unit alone, and on none of
the settings that say what becomes of references. It warns about nothing, leaves no name unresolved
and makes neither features nor edges between classifiers. -/
theorem runPass_skeleton (h : Imported (fun _ => True) store.graph)
    (hsimple : ∀ head ∈ unit.featureHeads, head.IsSimple) (name : String) (settings : Settings) :
    let run := runPass name settings unit .skeleton store
    run = runPass name settings unit.skeleton .skeleton store ∧
      (∀ policy associations names arrays,
        run = runPass name { settings with
          unresolvedPolicy := policy, generateAssociations := associations,
          generateNames := names, arraysAsDatatype := arrays } unit .skeleton store) ∧
      (finalState run).session.diagnostics = store.session.diagnostics ∧
      (∀ x context t, run ≠ .error (.classifierNotFound x context) t) ∧
      ∀ k ∈ [NodeKind.operation, .attr, .parameter, .association, .associationEnd,
          .generalization, .abstraction, .dependency],
        ∀ n, (finalState run).graph.kind? n = some k → store.graph.kind? n = some k := by
  have hskeleton : ∀ settings', settings'.srcPath = settings.srcPath →
      settings'.synthesizeStereotypes = settings.synthesizeStereotypes →
      runPass name settings' unit .skeleton store =
        runPass name settings unit.skeleton .skeleton store :=
    fun settings' hpath hsynth => runPass_skeleton_congr h.sound hsimple hpath hsynth
  have hfails : ∀ x context t, runPass name settings unit .skeleton store ≠
      .error (.classifierNotFound x context) t := by
    intro x context t hrun
    exact resolved_of_runPass name settings unit h.sound.stocked hrun rfl
  obtain ⟨hlays, hdiagnostics⟩ := laid_runPass name settings unit store
  intro run
  refine ⟨hskeleton settings rfl rfl, fun policy associations names arrays => ?_, hdiagnostics,
    hfails, fun k hk n hn => ?_⟩
  · have hother := hskeleton { settings with
      unresolvedPolicy := policy, generateAssociations := associations,
      generateNames := names, arraysAsDatatype := arrays } rfl rfl
    exact (hskeleton settings rfl rfl).trans hother.symm
  · obtain ⟨r', hr', rfl⟩ := kind?_eq_some.mp hn
    rcases hlays.node hr' with ⟨r, hr, hkind, -⟩ | ⟨-, hground⟩
    · rw [kind?_eq hr, hkind]
    · exfalso
      revert hk hground
      cases r'.kind <;> decide

/-- A unit with an import clause and a class that extends another one, with a field, an operation
and an enumeration in it. -/
def shop : CompilationUnit :=
  let loc : Loc := ⟨1, 1, 0, 0⟩
  { package := some ("trade", loc)
    imports := [⟨"goods.Ware", false, loc⟩]
    definitions := [.typed ⟨"Shop", [], loc, none⟩ (.ofClass (some "House") ["Open"])
      [.attr ⟨⟨"wares", [], loc, none⟩, ⟨"Ware", 1, false⟩, none⟩,
        .operation ⟨⟨"sell", [], loc, none⟩, some ⟨"Price", 0, false⟩, [], []⟩,
        .classifier (.enumeration ⟨"State", [], loc, none⟩ ["Open"] ["OPEN", "CLOSED"])]] }

/-- No name in the unit means anything, which the first pass does not notice. -/
theorem runPass_skeleton_shop :
    let store : Store := { graph := .new "m" ⟨"p", [], []⟩ }
    let settings : Settings := { unresolvedPolicy := .fail }
    (∀ head ∈ shop.featureHeads, head.IsSimple) ∧
      runPass "shop" settings shop .skeleton store =
        runPass "shop" settings shop.skeleton .skeleton store ∧
      (finalState (runPass "shop" settings shop .skeleton store)).session.diagnostics = [] := by
  intro store settings
  have himported : Imported (fun _ => True) store.graph := .fresh "m" ⟨"p", [], []⟩
  have hsimple : ∀ head ∈ shop.featureHeads, head.IsSimple := by decide +kernel
  obtain ⟨hrun, -, hdiagnostics, -⟩ := runPass_skeleton himported hsimple "shop" settings
  exact ⟨hsimple, hrun, hdiagnostics⟩

end StoreM

end DeclGraph
