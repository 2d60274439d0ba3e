import DeclGraph.Proofs.Graph.Seclusion
import DeclGraph.Proofs.Import.Registry
import DeclGraph.Proofs.Import.Steadiness
import DeclGraph.Proofs.Import.Units

/-! Imports leave what the profile of a graph brings along as it is: the elements that they give to
the operations of the graph for a change lie outside the profile package. Only what a name means may
lie inside, and this is referred to but never changed. -/

namespace DeclGraph

open DeclGraph.Graph

/-- The elements that a frame refers to. -/
def ScopeFrame.members (f : ScopeFrame) : List NodeId :=
  f.classifier.toList ++ f.priorFeatures ++ f.priorInner

/-- A unit works outside the profile package of `g`, which is still as it was there. -/
structure UnitState.Secluded (g : Graph) (s : UnitState) : Prop where
  graph : g.Secludes s.graph
  package : g.Outside s.scopes.package
  component : ∀ {n}, s.component = some n → g.Outside n
  opened : ∀ {scope}, scope ∈ s.scopes.opened → ∀ n ∈ scope.frame.members, g.Outside n
  imported : ∀ {n}, n ∈ s.scopes.importedPackages → g.Outside n

namespace UnitState.Secluded

variable {g : Graph} {s : UnitState} {n : NodeId}

lemma enclosing (h : s.Secluded g) (hn : s.scopes.classifier = some n) : g.Outside n := by
  unfold ScopeStack.classifier ScopeStack.current at hn
  cases ho : s.scopes.opened with
  | nil => simp [ho] at hn
  | cons scope rest =>
    rw [ho] at hn
    replace hn : scope.frame.classifier = some n := hn
    have hin : scope ∈ s.scopes.opened := by simp [ho]
    exact h.opened hin n (by simp [ScopeFrame.members, hn])

/-- Where a classifier is declared. -/
lemma home (h : s.Secluded g) : g.Outside (s.scopes.classifier.getD s.scopes.package) := by
  cases hn : s.scopes.classifier with
  | none => exact h.package
  | some n => exact h.enclosing hn

end UnitState.Secluded

namespace ImportM

variable {α : Type} {g : Graph}

-- the instance for a program is as long as the program
set_option synthInstance.maxSize 1024

instance secluded_query (f : Graph → Except GraphFault α) :
    Maintains (UnitState.Secluded g) (query f) := by
  constructor
  intro s hs
  unfold query
  cases f s.graph <;> exact hs

instance secluded_change (m : GraphM α) [hm : Maintains g.Secludes m] :
    Maintains (UnitState.Secluded g) (change m) :=
  obeys_change hm fun _ _ hg hs => ⟨hg hs.graph, hs.package, hs.component, hs.opened, hs.imported⟩

instance secluded_emit (e : Event) : Maintains (UnitState.Secluded g) (emit e) :=
  obeys_modify fun _ hs => ⟨hs.graph, hs.package, hs.component, hs.opened, hs.imported⟩

instance secluded_register (n : NodeId) : Maintains (UnitState.Secluded g) (register n) :=
  obeys_modify fun _ hs => ⟨hs.graph, hs.package, hs.component, hs.opened, hs.imported⟩

instance secluded_discard (n : NodeId) : Maintains (UnitState.Secluded g) (discard n) :=
  obeys_modify fun _ hs => ⟨hs.graph, hs.package, hs.component, hs.opened, hs.imported⟩

instance secluded_warn (code message : String) :
    Maintains (UnitState.Secluded g) (warn u code message) :=
  .bind (obeys_modify fun _ hs => ⟨hs.graph, hs.package, hs.component, hs.opened, hs.imported⟩)
    fun _ => secluded_emit _

lemma secluded_modifyScopes {f : ScopeStack → ScopeStack} (hp : ∀ s, (f s).package = s.package)
    (ho : ∀ s : ScopeStack, (f s).opened.map (·.frame) = s.opened.map (·.frame))
    (hi : ∀ s : ScopeStack, ∀ n ∈ (f s).importedPackages, n ∈ s.importedPackages ∨ g.Outside n) :
    Maintains (UnitState.Secluded g) (modifyScopes f) := by
  apply obeys_modify
  intro s hs
  refine ⟨hs.graph, ?_, hs.component, ?_, fun hn => (hi s.scopes _ hn).elim hs.imported id⟩
  · rw [hp]
    exact hs.package
  · intro scope hscope
    have hframe : scope.frame ∈ s.scopes.opened.map (·.frame) :=
      ho s.scopes ▸ List.mem_map_of_mem hscope
    obtain ⟨scope', hscope', heq⟩ := List.mem_map.mp hframe
    rw [← heq]
    exact hs.opened hscope'

instance secluded_touch (n : NodeId) :
    Maintains (UnitState.Secluded g) (modifyScopes (·.touch n)) :=
  secluded_modifyScopes (fun s => s.package_touch n) (fun s => s.frames_touch n) fun s m hm => by
    cases ho : s.opened <;> simp only [ScopeStack.touch, ho] at hm <;> exact Or.inl hm

instance secluded_addImportedPackage (n : NodeId) [hout : g.Outside n] :
    Maintains (UnitState.Secluded g) (modifyScopes (·.addImportedPackage n)) := by
  refine secluded_modifyScopes (fun s => ?_) (fun s => ?_) fun s m hm => ?_
  · unfold ScopeStack.addImportedPackage
    split_ifs <;> rfl
  · unfold ScopeStack.addImportedPackage
    split_ifs <;> rfl
  · unfold ScopeStack.addImportedPackage at hm
    split_ifs at hm
    · exact Or.inl hm
    · refine (List.mem_append.mp hm).imp_right fun hm => ?_
      rwa [List.mem_singleton.mp hm]

instance secluded_addImportedClassifier (n : NodeId) :
    Maintains (UnitState.Secluded g) (modifyScopes (·.addImportedClassifier n)) := by
  apply secluded_modifyScopes <;> intro s <;> by_cases hn : n ∈ s.importedClassifiers <;>
    simp +contextual [ScopeStack.addImportedClassifier, hn]

lemma yields_change {m : GraphM α} {Q : α → Prop} (hm : Yields g.Secludes m Q) :
    Yields (UnitState.Secluded g) (change m) Q := by
  constructor
  intro s hs
  have hrun := hm.ends s.graph hs.graph
  unfold change
  cases hr : m s.graph with
  | ok a g' =>
    rw [hr] at hrun
    exact ⟨hrun.1, hrun.2, hs.package, hs.component, hs.opened, hs.imported⟩
  | error e g' =>
    rw [hr] at hrun
    exact ⟨hrun, hs.package, hs.component, hs.opened, hs.imported⟩

lemma yields_query {f : Graph → Except GraphFault α} {Q : α → Prop}
    (hf : Yields g.Secludes (GraphM.query f) Q) : Yields (UnitState.Secluded g) (query f) Q := by
  constructor
  intro s hs
  have hrun := hf.ends s.graph hs.graph
  unfold GraphM.query at hrun
  unfold query
  cases hr : f s.graph with
  | ok a =>
    rw [hr] at hrun
    exact ⟨hrun.1, hs⟩
  | error e => exact hs

section closed

variable [Closed g]

instance secluded_stereotype (name : String) (base : Option String) :
    Maintains (UnitState.Secluded g) (stereotype name base) := by
  unfold stereotype
  apply obeys_get.bind
  intro s
  apply Obeys.bind inferInstance
  rintro ⟨result, registry⟩
  have hset : Maintains (UnitState.Secluded g) (modify ({ · with registry }) : ImportM Unit) :=
    obeys_modify fun _ hs => ⟨hs.graph, hs.package, hs.component, hs.opened, hs.imported⟩
  apply hset.bind
  intro _
  cases result <;> infer_instance

/-! Packages and names -/

lemma yields_packageBelow (n : NodeId) [hn : g.Outside n] (segments : List String) :
    Yields (UnitState.Secluded g) (packageBelow n segments) g.Outside := by
  induction segments generalizing n with
  | nil => exact .answer hn
  | cons segment rest ih =>
    unfold packageBelow
    apply (yields_query (GraphM.yields_find .owned _)).bind
    intro found hfound
    cases found with
    | some p =>
      have := hfound p rfl
      exact ih p
    | none =>
      apply (yields_change (GraphM.yields_createIn .package (some segment) n)).bind
      intro p _
      exact Obeys.yields_bind inferInstance fun _ => Obeys.yields_bind inferInstance fun _ => ih p

lemma yields_getPackage (name : String) :
    Yields (UnitState.Secluded g) (getPackage name) g.Outside :=
  yields_packageBelow root _

instance secluded_getPackage (name : String) :
    Maintains (UnitState.Secluded g) (getPackage name) := (yields_getPackage name).maintains

/-- The package that a prefix of a name stands for lies outside. -/
lemma yields_contextFor (name : String) : Yields (UnitState.Secluded g) (contextFor name)
    fun c => ∀ p, c.2.2 = some p → g.Outside p := by
  unfold contextFor
  split
  · have hscopes : Maintains (UnitState.Secluded g) scopeNamespaces := by
      unfold scopeNamespaces
      infer_instance
    exact hscopes.yields_bind fun _ => obeys_get.yields_bind fun _ => .answer (by simp)
  · apply (yields_getPackage _).bind
    intro package hpackage
    apply Yields.answer
    rintro _ ⟨⟩
    exact hpackage

lemma yields_forceCreate (simple : String) (mode : ResolveMode) {package : Option NodeId}
    (h : ∀ p, package = some p → g.Outside p) (context : String) :
    Yields (UnitState.Secluded g) (forceCreate simple mode package context) g.Outside := by
  have hhome : g.Outside (package.getD root) := by
    cases package with
    | none => exact Closed.root
    | some p => exact h p rfl
  unfold forceCreate
  apply (yields_change (GraphM.yields_createIn _ (some simple) _)).bind
  intro n hn
  iterate 3 apply Obeys.yields_bind inferInstance; intro _
  exact .answer hn

/-- What a name means may lie inside. -/
instance secluded_resolve (u : UnitContext) (name : String) (mode : ResolveMode)
    (context : String) : Maintains (UnitState.Secluded g) (resolve u name mode context) := by
  unfold resolve resolveWith
  apply (yields_contextFor name).next
  rintro ⟨chain, simple, package⟩ hpackage
  apply (secluded_query _).found
  · cases u.settings.unresolvedPolicy with
    | fail => infer_instance
    | warn => infer_instance
    | force =>
      have := (yields_forceCreate simple mode hpackage context).maintains
      infer_instance
  · infer_instance

/-! Classifiers -/

lemma yields_adoptClassifier (name : String) (home : NodeId) [g.Outside home] :
    Yields (UnitState.Secluded g) (adoptClassifier name home)
      fun o => ∀ n, o = some n → g.Outside n := by
  unfold adoptClassifier
  apply (yields_query (GraphM.yields_find .owned _)).bind
  intro found hfound
  cases found with
  | some n => exact .answer hfound
  | none =>
    have hnone : Yields (UnitState.Secluded g) (return none : ImportM (Option NodeId))
        fun o => ∀ n, o = some n → g.Outside n := .answer (by simp)
    apply Yields.ite hnone
    apply (yields_query (GraphM.yields_find .owned _)).bind
    intro found hfound
    cases found with
    | none => exact hnone
    | some stray =>
      have := hfound stray rfl
      exact (secluded_query _).yields_bind fun _ => .ite
        ((secluded_change _).yields_bind fun _ => .answer hfound) hnone

lemma yields_supersede (old : NodeId) [g.Outside old] (kind : ClassifierKind) (name : String)
    (home : NodeId) [g.Outside home] :
    Yields (UnitState.Secluded g) (supersede old kind name home) g.Outside := by
  unfold supersede
  apply (yields_change (GraphM.yields_createIn _ (some name) home)).bind
  intro new hnew
  iterate 5 apply Obeys.yields_bind inferInstance; intro _
  exact .answer hnew

lemma yields_upsertNode (kind : ClassifierKind) (name : String) (home : NodeId) [g.Outside home] :
    Yields (UnitState.Secluded g) (upsertNode kind name home) g.Outside := by
  unfold upsertNode
  apply (yields_adoptClassifier name home).bind
  intro found hfound
  cases found with
  | none =>
    apply (yields_change (GraphM.yields_createIn _ (some name) home)).bind
    intro n hn
    exact Obeys.yields_bind inferInstance fun _ => Obeys.yields_bind inferInstance fun _ =>
      .answer hn
  | some n =>
    have hn := hfound n rfl
    exact (secluded_query _).yields_bind fun _ => .ite (yields_supersede n kind name home)
      (Obeys.yields_bind inferInstance fun _ => Obeys.yields_bind inferInstance fun _ => .answer hn)

instance secluded_describeClassifier (n : NodeId) [g.Outside n] (kind : ClassifierKind)
    (modifiers : ModifierSet) :
    Maintains (UnitState.Secluded g) (describeClassifier n kind modifiers) := by
  cases kind <;> (unfold describeClassifier; infer_instance)

instance secluded_openScope (n : NodeId) [hn : g.Outside n] :
    Maintains (UnitState.Secluded g) (openScope n) := by
  unfold openScope
  apply (yields_query (GraphM.yields_children .features)).next
  intro priorFeatures hfeatures
  apply (yields_query (GraphM.yields_followAll .owned _)).next
  intro priorInner hinner
  apply obeys_modify
  intro s hs
  refine ⟨hs.graph, hs.package, hs.component, ?_, hs.imported⟩
  intro scope hscope m hm
  rcases List.mem_cons.mp hscope with rfl | hscope
  · simp only [ScopeFrame.members, Option.toList_some, List.mem_append, List.mem_singleton] at hm
    rcases hm with (rfl | hm) | hm
    · exact hn
    · exact hfeatures m hm
    · exact hinner m hm
  · exact hs.opened hscope m hm

lemma yields_endOfHead (u : UnitContext) (n : NodeId) [hn : g.Outside n] (doc : Option String)
    (enclosing : Option NodeId) :
    Yields (UnitState.Secluded g) (endOfHead u n doc enclosing) g.Outside := by
  have hopen : Yields (UnitState.Secluded g) (openHead u n doc) g.Outside := by
    have hscope : Yields (UnitState.Secluded g) (do openScope n; return n : ImportM NodeId)
        g.Outside := Obeys.yields_bind inferInstance fun _ => .answer hn
    unfold openHead
    exact .ite (Obeys.yields_bind inferInstance fun _ => hscope) hscope
  unfold endOfHead
  apply obeys_get.yields_bind
  intro s
  cases enclosing with
  | some _ => exact hopen
  | none =>
    cases s.component with
    | none => exact hopen
    | some component =>
      exact (secluded_query _).yields_bind fun _ => .ite
        (Obeys.yields_bind inferInstance fun _ => hopen) hopen

lemma yields_addClassifier (u : UnitContext) (kind : ClassifierKind) (name : String)
    (modifiers : ModifierSet) (doc : Option String) :
    Yields (UnitState.Secluded g) (addClassifier u kind name modifiers doc) g.Outside := by
  rw [addClassifier_eq]
  apply Yields.get.bind
  intro s hs
  have := hs.home
  apply (yields_upsertNode kind name _).bind
  intro n hn
  iterate 4 apply Obeys.yields_bind inferInstance; intro _
  exact yields_endOfHead u n doc _

omit [Closed g] in
/-- An edge is put into the package of the scope. -/
lemma secluded_place (n : NodeId) [g.Outside n] : Maintains (UnitState.Secluded g) (do
    change (.setNamespace n (some (← get).scopes.package))
    return n : ImportM NodeId) := by
  apply Yields.get.next
  intro s hs
  have := hs.package
  infer_instance

instance secluded_upsertGeneralization (child : NodeId) [g.Outside child] (parent : NodeId) :
    Maintains (UnitState.Secluded g) (upsertGeneralization child parent) := by
  unfold upsertGeneralization
  apply Yields.get.next
  intro s hs
  cases hgen : s.graph.generalizationBetween? child parent with
  | some gen =>
    obtain ⟨hin, -⟩ := findIn_eq_some hgen
    obtain ⟨r, hr, hq⟩ := mem_select.mp hin
    simp only [Bool.and_eq_true, decide_eq_true_eq] at hq
    have : g.Outside gen :=
      hs.graph.outside_of_endpoint hr (m := child) (by simp [Node.endpoints, hq.2])
    exact secluded_place gen
  | none =>
    apply (yields_change (GraphM.yields_buildGeneralization parent)).next
    intro gen _
    have := secluded_place (g := g) gen
    simp only [pure_bind]
    infer_instance

lemma yields_clientDependencies (client : NodeId) :
    Yields (UnitState.Secluded g) (query (·.clientDependencies client))
      fun deps => ∀ dep ∈ deps, g.Outside dep := by
  apply yields_query
  apply GraphM.yields_query
  intro g' deps hg' hdeps dep hdep
  obtain ⟨_, -, hselect⟩ := except_bind_eq_ok.mp hdeps
  obtain rfl := Except.ok.inj hselect
  obtain ⟨r, hr, hq⟩ := mem_select.mp hdep
  simp only [Bool.and_eq_true, decide_eq_true_eq] at hq
  exact hg'.outside_of_endpoint hr (m := client) (by simp [Node.endpoints, hq.2])

lemma yields_findRealization (client supplier : NodeId) {deps : List NodeId}
    (h : ∀ dep ∈ deps, g.Outside dep) :
    Yields (UnitState.Secluded g) (findRealization client supplier deps)
      fun o => ∀ dep, o = some dep → g.Outside dep := by
  induction deps with
  | nil => exact .answer (by simp)
  | cons dep rest ih =>
    have hdep : g.Outside dep := h dep (by simp)
    have hrest := ih fun dep hin => h dep (by simp [hin])
    unfold findRealization
    apply (secluded_query _).yields_bind
    intro suppliers
    apply (secluded_query _).yields_bind
    intro realizes
    apply Yields.ite
    · exact Obeys.yields_bind inferInstance fun _ => hrest
    · apply Yields.ite _ hrest
      apply Yields.answer
      rintro _ ⟨⟩
      exact hdep

instance secluded_edgeName (u : UnitContext) (source target : NodeId) :
    Maintains (UnitState.Secluded g) (edgeName u source target) := by
  unfold edgeName
  infer_instance

instance secluded_upsertRealization (u : UnitContext) (client : NodeId) [g.Outside client]
    (supplier : NodeId) : Maintains (UnitState.Secluded g) (upsertRealization u client supplier) := by
  unfold upsertRealization
  apply (yields_clientDependencies client).next
  intro deps hdeps
  apply (yields_findRealization client supplier hdeps).next
  intro found hfound
  cases found with
  | some dep =>
    have := hfound dep rfl
    exact secluded_place dep
  | none =>
    apply (secluded_edgeName u client supplier).bind
    intro name
    apply (yields_change (GraphM.yields_buildDependency supplier .abstraction name)).next
    intro dep _
    have := secluded_place (g := g) dep
    simp only [pure_bind]
    infer_instance

instance secluded_inheritFrom (u : UnitContext) (n : NodeId) [g.Outside n] (mode : ResolveMode)
    (name : String) : Maintains (UnitState.Secluded g) (inheritFrom u n mode name) := by
  unfold inheritFrom
  exact .found inferInstance inferInstance inferInstance

instance secluded_realize (u : UnitContext) (n : NodeId) [g.Outside n] (name : String) :
    Maintains (UnitState.Secluded g) (realize u n name) := by
  unfold realize
  exact .found inferInstance inferInstance inferInstance

instance secluded_addInheritance (u : UnitContext) (n : NodeId) [g.Outside n]
    (kind : ClassifierKind) (superclass : Option String) (interfaces : List String) :
    Maintains (UnitState.Secluded g) (addInheritance u n kind superclass interfaces) := by
  unfold addInheritance
  cases kind with
  | interfaceType => infer_instance
  | enumeration => infer_instance
  | classType =>
    dsimp only
    cases superclass.filter (· ≠ "") <;> infer_instance

instance secluded_evict (n : NodeId) [g.Outside n] : Maintains (UnitState.Secluded g) (evict n) := by
  unfold evict
  apply obeys_get.bind
  intro s
  cases s.graph.node? n <;> infer_instance

instance secluded_placed (x : Except Misplacement α) :
    Maintains (UnitState.Secluded g) (placed x) := by
  cases x <;> (unfold placed; infer_instance)

omit [Closed g] in
lemma yields_pop {s : UnitState} (hs : s.Secluded g) :
    Yields (UnitState.Secluded g) (placed s.scopes.pop) fun p =>
      (∀ n ∈ p.1.frame.members, g.Outside n) ∧ g.Outside p.2.package ∧
        (∀ {scope}, scope ∈ p.2.opened → ∀ n ∈ scope.frame.members, g.Outside n) ∧
        ∀ {n}, n ∈ p.2.importedPackages → g.Outside n := by
  unfold ScopeStack.pop
  cases ho : s.scopes.opened with
  | nil => exact .failure _
  | cons scope rest =>
    apply Yields.answer
    refine ⟨hs.opened (by simp [ho]), hs.package, ?_, hs.imported⟩
    intro scope' hin
    exact hs.opened (by simp [ho, show scope' ∈ rest from hin])

instance secluded_popClassifier (u : UnitContext) :
    Maintains (UnitState.Secluded g) (popClassifier u) := by
  unfold popClassifier
  apply Yields.get.next
  intro s hs
  apply (yields_pop hs).next
  rintro ⟨scope, scopes⟩ ⟨hmembers, hpackage, hopened, himported⟩
  have hleave : Maintains (UnitState.Secluded g) (modify ({ · with scopes }) : ImportM Unit) :=
    obeys_modify fun t ht => ⟨ht.graph, hpackage, ht.component, hopened, himported⟩
  have hstale : Maintains (UnitState.Secluded g)
      ((staleMembers u.pass scope).forM evict : ImportM PUnit) := by
    apply maintains_forM
    intro n hn
    have : g.Outside n := by
      apply hmembers
      simp only [ScopeFrame.members, List.mem_append]
      rcases (mem_staleMembers.mp hn).1 with hinner | ⟨-, hfeature⟩
      · exact Or.inr hinner
      · exact Or.inl (Or.inr hfeature)
    infer_instance
  apply hleave.bind
  intro _
  apply hstale.bind
  intro _
  cases scope.frame.classifier <;> infer_instance

/-! Members -/

omit [Closed g] in
lemma yields_requireClassifier (fault : Misplacement) :
    Yields (UnitState.Secluded g) (requireClassifier fault) g.Outside := by
  unfold requireClassifier
  apply Yields.get.bind
  intro s hs
  cases hn : s.scopes.classifier with
  | none => exact .failure _
  | some n => exact .answer (hs.enclosing hn)

instance secluded_addResult (u : UnitContext) (classifier op : NodeId) [g.Outside op]
    (returnType : Option String) (name : String) :
    Maintains (UnitState.Secluded g) (addResult u classifier op returnType name) := by
  rw [addResult_eq]
  apply (secluded_query _).bind
  intro constructs
  cases returnType.filter fun _ => !constructs with
  | none => infer_instance
  | some type => exact .found (secluded_resolve ..) inferInstance inferInstance

instance secluded_addParameter (u : UnitContext) (op : NodeId) [g.Outside op]
    (p : ParameterDeclaration) : Maintains (UnitState.Secluded g) (addParameter u op p) := by
  unfold addParameter
  cases withoutVarargs? p.type <;> infer_instance

lemma yields_upsertOperation (classifier : NodeId) [g.Outside classifier] (name : String) :
    Yields (UnitState.Secluded g) (upsertOperation classifier name) g.Outside := by
  unfold upsertOperation
  apply (yields_query (GraphM.yields_find .features _)).bind
  intro found hfound
  cases found with
  | some op => exact Obeys.yields_bind inferInstance fun _ => .answer (hfound op rfl)
  | none =>
    apply Obeys.yields_bind inferInstance
    intro _
    apply (yields_change (GraphM.yields_buildOperation (some name))).bind
    intro op hop
    exact Obeys.yields_bind inferInstance fun _ => .answer hop

instance secluded_addOperation (u : UnitContext) (modifiers : ModifierSet)
    (returnType : Option String) (name : String) (parameters : List ParameterDeclaration)
    (doc : Option String) : Maintains (UnitState.Secluded g)
      (addOperation u modifiers returnType name parameters doc) := by
  unfold addOperation
  apply (yields_requireClassifier _).next
  intro classifier _
  split_ifs
  · exact obeys_pure _
  apply (yields_upsertOperation classifier name).next
  intro op _
  iterate 4 apply Obeys.bind inferInstance; intro _
  apply (yields_query (GraphM.yields_children .parameters)).next
  intro old hold
  have hclear : Maintains (UnitState.Secluded g)
      (old.forM fun p => change (.removeParameter op p) : ImportM PUnit) := by
    apply maintains_forM
    intro p hp
    have := hold p hp
    infer_instance
  apply hclear.bind
  intro _
  have hparameters : Maintains (UnitState.Secluded g)
      (parameters.forM (addParameter u op) : ImportM PUnit) := obeys_forM
  infer_instance

lemma yields_upsertAttribute (classifier : NodeId) [g.Outside classifier] (type : Option NodeId)
    (name : String) :
    Yields (UnitState.Secluded g) (upsertAttribute classifier type name) g.Outside := by
  unfold upsertAttribute
  apply (yields_query (GraphM.yields_find .features _)).bind
  intro found hfound
  cases found with
  | some n => exact .answer (hfound n rfl)
  | none =>
    apply (yields_change (GraphM.yields_buildAttribute type (some name))).bind
    intro n hn
    exact Obeys.yields_bind inferInstance fun _ => Obeys.yields_bind inferInstance fun _ =>
      .answer hn

/-- The ends of associations lie outside, whatever their types. -/
lemma yields_fieldEnd? (classifier target : NodeId) (name : String) :
    Yields (UnitState.Secluded g) (query (·.fieldEnd? classifier target name))
      fun o => ∀ n, o = some n → g.Outside n := by
  apply yields_query
  apply GraphM.yields_query
  intro g' o hg' ho n hn
  obtain ⟨ends, hends, ho⟩ := except_bind_eq_ok.mp ho
  obtain ⟨fitting, hfitting, ho⟩ := except_bind_eq_ok.mp ho
  obtain rfl := Except.ok.inj ho
  obtain ⟨_, -, hselect⟩ := except_bind_eq_ok.mp hends
  obtain rfl := Except.ok.inj hselect
  have hin := ((mem_filterM hfitting).mp (List.mem_of_getLast? hn)).1
  obtain ⟨r, hr, hq⟩ := mem_select.mp hin
  simp only [Bool.and_eq_true, decide_eq_true_eq] at hq
  exact hg'.outside_of_endpoint hr (m := target) (by simp [Node.endpoints, hq.2])

lemma yields_upsertFieldEnd (u : UnitContext) (classifier : NodeId) [g.Outside classifier]
    (target : NodeId) (name : String) :
    Yields (UnitState.Secluded g) (upsertFieldEnd u classifier target name) g.Outside := by
  unfold upsertFieldEnd
  apply (yields_fieldEnd? classifier target name).bind
  intro found hfound
  cases found with
  | some n => exact .answer (hfound n rfl)
  | none =>
    apply (secluded_edgeName u classifier target).yields_bind
    intro edge
    apply (yields_change (GraphM.yields_buildAssociation target true false edge)).bind
    intro association _
    iterate 2 apply Obeys.yields_bind inferInstance; intro _
    apply (yields_query (GraphM.yields_followFirst .connections _)).bind
    intro found hfound
    cases found with
    | some n => exact .answer (hfound n rfl)
    | none => exact .failure _

instance secluded_associatedType? (u : UnitContext) (type : Option NodeId) :
    Maintains (UnitState.Secluded g) (associatedType? u type) := by
  unfold associatedType?
  cases type.filter fun _ => u.settings.generateAssociations <;> infer_instance

instance secluded_addPlainField (modifiers : ModifierSet) (classifier : NodeId)
    [g.Outside classifier] (type : Option NodeId) (multiplicity name : String)
    (initializer doc : Option String) : Maintains (UnitState.Secluded g)
      (addPlainField modifiers classifier type multiplicity name initializer doc) := by
  unfold addPlainField
  apply (yields_upsertAttribute classifier type name).next
  intro n _
  cases initializer <;> dsimp only <;> infer_instance

instance secluded_addAssociatedField (u : UnitContext) (modifiers : ModifierSet)
    (classifier : NodeId) [g.Outside classifier] (type : NodeId) (multiplicity name : String)
    (doc : Option String) : Maintains (UnitState.Secluded g)
      (addAssociatedField u modifiers classifier type multiplicity name doc) := by
  unfold addAssociatedField
  apply (yields_upsertFieldEnd u classifier type name).next
  intro n _
  dsimp only
  infer_instance

instance secluded_addAttribute (u : UnitContext) (modifiers : ModifierSet) (type : Option String)
    (name : String) (initializer doc : Option String) :
    Maintains (UnitState.Secluded g) (addAttribute u modifiers type name initializer doc) := by
  have hfield (classifier : NodeId) (_ : g.Outside classifier) (target : Option NodeId)
      (multiplicity : String) : Maintains (UnitState.Secluded g) (do
        match ← associatedType? u target with
        | none =>
          some <$> addPlainField modifiers classifier target multiplicity name initializer doc
        | some n => some <$> addAssociatedField u modifiers classifier n multiplicity name doc :
        ImportM (Option NodeId)) :=
    .found (secluded_associatedType? ..) inferInstance inferInstance
  unfold addAttribute
  apply (yields_requireClassifier _).next
  intro classifier hclassifier
  have := hfield classifier hclassifier
  cases type <;> simp only [pure_bind] <;> infer_instance

instance secluded_addEnumerationLiteral (u : UnitContext) (name : String) :
    Maintains (UnitState.Secluded g) (addEnumerationLiteral u name) := by
  unfold addEnumerationLiteral isEnumeration
  exact .bind (yields_requireClassifier _).maintains inferInstance

/-! Units -/

instance secluded_buildImport (u : UnitContext) (target : NodeId) :
    Maintains (UnitState.Secluded g) (buildImport u target) := by
  unfold buildImport
  apply Yields.get.next
  intro s hs
  cases hc : s.component with
  | none => exact obeys_throw _
  | some component =>
    have := hs.component hc
    apply (secluded_query _).bind
    intro deps
    apply (secluded_query _).found
    · apply (secluded_edgeName u component target).bind
      intro name
      apply (yields_change (GraphM.yields_buildDependency target .dependency name)).next
      intro dep _
      infer_instance
    · infer_instance

instance secluded_addImport (u : UnitContext) (name : String) :
    Maintains (UnitState.Secluded g) (addImport u name) := by
  have hfound (found : Option NodeId) : Maintains (UnitState.Secluded g) (match found with
      | none => return none
      | some n => do
        modifyScopes (·.addImportedClassifier n)
        some <$> buildImport u n : ImportM (Option NodeId)) := by
    cases found <;> infer_instance
  have hpackage (qualifier : String) : Maintains (UnitState.Secluded g) (do
      let package ← getPackage qualifier
      modifyScopes (·.addImportedPackage package)
      some <$> buildImport u package : ImportM (Option NodeId)) := by
    apply (yields_getPackage qualifier).next
    intro package _
    infer_instance
  unfold addImport
  infer_instance

lemma yields_upsertComponent (n : NodeId) [g.Outside n] (name : String) :
    Yields (UnitState.Secluded g) (upsertComponent n name) g.Outside := by
  unfold upsertComponent
  apply (yields_query (GraphM.yields_find .owned _)).bind
  intro found hfound
  cases found with
  | some c => exact .answer (hfound c rfl)
  | none =>
    apply (yields_change (GraphM.yields_createIn .component (some name) root)).bind
    intro c hc
    exact Obeys.yields_bind inferInstance fun _ => Obeys.yields_bind inferInstance fun _ =>
      .answer hc

omit [Closed g] in
lemma secluded_setComponent {c : NodeId} (hc : g.Outside c) :
    Maintains (UnitState.Secluded g) (modify ({ · with component := some c }) : ImportM Unit) := by
  apply obeys_modify
  intro s hs
  refine ⟨hs.graph, hs.package, ?_, hs.opened, hs.imported⟩
  rintro _ ⟨⟩
  exact hc

instance secluded_addComponent (u : UnitContext) :
    Maintains (UnitState.Secluded g) (addComponent u) := by
  unfold addComponent
  apply Yields.get.next
  intro s hs
  have := hs.package
  apply (yields_upsertComponent s.scopes.package u.name).next
  intro c hc
  have := secluded_setComponent hc
  infer_instance

/-- A component that was found by its name is kept, and the other one is deleted. -/
lemma yields_settledComponent (component package : NodeId) (name : Option String)
    (existing : Option NodeId) [hc : g.Outside component] [g.Outside package]
    (h : ∀ c, existing = some c → g.Outside c) : Yields (UnitState.Secluded g) (do
      match existing.filter (· ≠ component) with
      | some c =>
        change (.delete component)
        discard component
        emit (.componentReused (name.getD ""))
        return c
      | none =>
        change (.setNamespace component (some package))
        return component : ImportM NodeId) g.Outside := by
  cases hother : existing.filter (· ≠ component) with
  | some c =>
    have hout := h c (Option.filter_eq_some_iff.mp hother).1
    iterate 3 apply Obeys.yields_bind inferInstance; intro _
    exact .answer hout
  | none => exact Obeys.yields_bind inferInstance fun _ => .answer hc

lemma yields_settleComponent (component package : NodeId) [g.Outside component]
    [g.Outside package] :
    Yields (UnitState.Secluded g) (settleComponent component package) g.Outside := by
  unfold settleComponent
  apply (secluded_query _).yields_bind
  intro name
  cases name with
  | none => exact yields_settledComponent component package none none (by simp)
  | some name =>
    apply (yields_query (GraphM.yields_find .owned _)).bind
    intro existing hexisting
    exact yields_settledComponent component package (some name) existing hexisting

instance secluded_settle (package : NodeId) [g.Outside package] :
    Maintains (UnitState.Secluded g) (settle package) := by
  unfold settle
  apply Yields.get.next
  intro s hs
  cases hc : s.component with
  | none => exact obeys_pure _
  | some component =>
    have := hs.component hc
    apply (yields_settleComponent component package).next
    intro c hc
    have := secluded_setComponent hc
    infer_instance

omit [Closed g] in
lemma yields_resetPackage {s : UnitState} (hs : s.Secluded g) (package : NodeId)
    [hp : g.Outside package] :
    Yields (UnitState.Secluded g) (placed (s.scopes.resetPackage package))
      fun scopes => g.Outside scopes.package ∧ scopes.opened = [] ∧
        ∀ {n}, n ∈ scopes.importedPackages → g.Outside n := by
  unfold ScopeStack.resetPackage
  cases ho : s.scopes.opened with
  | nil => exact .answer ⟨hp, rfl, hs.imported⟩
  | cons scope rest => exact .failure _

instance secluded_moveTo (name : String) : Maintains (UnitState.Secluded g) (moveTo name) := by
  unfold moveTo moveToPackage
  apply (yields_getPackage name).next
  intro package _
  apply Yields.get.next
  intro s hs
  apply (yields_resetPackage hs package).next
  rintro scopes ⟨hpackage, hopened, himported⟩
  have hset : Maintains (UnitState.Secluded g) (modify ({ · with scopes }) : ImportM Unit) :=
    obeys_modify fun t ht =>
      ⟨ht.graph, hpackage, ht.component, by simp [hopened], himported⟩
  exact hset.bind fun _ => inferInstance

instance secluded_enterPackage (u : UnitContext) (name : String) :
    Maintains (UnitState.Secluded g) (enterPackage u name) := by
  have hpath (outer path : String) : Maintains (UnitState.Secluded g) (do
      let package ← getPackage outer
      if (← query (·.taggedValue? package srcPathTag)).isNone then
        let _ ← change (.setTaggedValue package srcPathTag path)
      moveTo name : ImportM NodeId) := by
    apply (yields_getPackage outer).next
    intro package _
    infer_instance
  rw [enterPackage_eq]
  apply obeys_get.bind
  intro s
  cases QualifiedName.segments name <;> cases u.settings.srcPath <;> infer_instance

instance secluded_openUnit (u : UnitContext) (unit : CompilationUnit) :
    Maintains (UnitState.Secluded g) (openUnit u unit) := by
  unfold openUnit
  cases unit.package <;> infer_instance

instance secluded_simpleName (h : Head) (file : Option String) :
    Maintains (UnitState.Secluded g) (h.simpleName file) := by
  unfold Head.simpleName
  split <;> infer_instance

instance secluded_enterClassifier (u : UnitContext) (file : Option String) (c : Classifier) :
    Maintains (UnitState.Secluded g) (enterClassifier u file c) := by
  unfold enterClassifier
  apply (secluded_simpleName _ file).bind
  intro name
  apply (yields_addClassifier ..).next
  intro n _
  infer_instance

lemma secluded_importMembers (u : UnitContext) (file : Option String) {members : List Member}
    (h : ∀ c, Member.classifier c ∈ members →
      Maintains (UnitState.Secluded g) (importClassifier u file c)) :
    Maintains (UnitState.Secluded g) (importMembers u file members) := by
  induction members with
  | nil => exact obeys_pure ()
  | cons m rest ih =>
    have hm : Maintains (UnitState.Secluded g) (importMember u file m) := by
      cases m with
      | attr a =>
        unfold importMember importAttribute
        infer_instance
      | operation o =>
        unfold importMember importOperation
        infer_instance
      | classifier c => exact h c (by simp)
    unfold importMembers
    exact hm.bind fun _ => ih fun c hc => h c (by simp [hc])

instance secluded_importClassifier (u : UnitContext) (file : Option String) (c : Classifier) :
    Maintains (UnitState.Secluded g) (importClassifier u file c) := by
  induction c using Classifier.nested_induction with
  | step c ih =>
    have hbody : Maintains (UnitState.Secluded g) (importBody u file c) := by
      cases c with
      | typed head heritage members => exact secluded_importMembers u file ih
      | enumeration head interfaces literals =>
        unfold importBody
        infer_instance
    rw [importClassifier_eq]
    infer_instance

instance secluded_importUnit (u : UnitContext) (unit : CompilationUnit) :
    Maintains (UnitState.Secluded g) (importUnit u unit) := by
  have hfinish : Maintains (UnitState.Secluded g) (finish u) := by
    unfold finish
    infer_instance
  rw [importUnit_eq]
  infer_instance

end closed

end ImportM

end DeclGraph
