import DeclGraph.Import.Clause
import DeclGraph.Import.Member
import DeclGraph.Proofs.Import.Performance

/-! Programs that open and close no scope, whether they fail or not. -/

namespace DeclGraph

open DeclGraph.Graph

/-- The package, what is open in it and the component are what they were. More may be declared in
the innermost scope, and what was imported may differ. -/
structure UnitState.InPlace (s t : UnitState) : Prop where
  package : t.scopes.package = s.scopes.package
  frames : t.scopes.opened.map (·.frame) = s.scopes.opened.map (·.frame)
  component : t.component = s.component
  touched : s.scopes.touched ⊆ t.scopes.touched

namespace UnitState.InPlace

variable {s t s' : UnitState}

lemma refl (s : UnitState) : s.InPlace s := ⟨rfl, rfl, rfl, .refl _⟩

lemma trans (h : s.InPlace t) (h' : t.InPlace s') : s.InPlace s' :=
  ⟨h'.package.trans h.package, h'.frames.trans h.frames, h'.component.trans h.component,
    List.Subset.trans h.touched h'.touched⟩

end UnitState.InPlace

lemma ScopeStack.frames_touch (s : ScopeStack) (n : NodeId) :
    (s.touch n).opened.map (·.frame) = s.opened.map (·.frame) := by
  cases ho : s.opened <;> simp [touch, ho]

lemma ScopeStack.touched_touch (s : ScopeStack) (n : NodeId) :
    (s.touch n).touched = n :: s.touched := by
  cases ho : s.opened <;> simp [touch, touched, ho]

/-- A program opens and closes no scope and leaves the package and the component. -/
class Steady {α : Type} (x : ImportM α) : Prop where
  inPlace : ∀ s : UnitState, s.InPlace (finalState (x s))

section steady

variable {α β : Type} {x y : ImportM α} {f : α → ImportM β}

lemma Steady.ends (h : Steady x) (s : UnitState) : Ends (x s) (fun _ => s.InPlace) s.InPlace :=
  .of_final (h.inPlace s)

lemma steady_of_ends (h : ∀ s : UnitState, Ends (x s) (fun _ => s.InPlace) s.InPlace) : Steady x :=
  ⟨fun s => (h s).final⟩

instance steady_pure (a : α) : Steady (pure a : ImportM α) := ⟨.refl⟩

instance steady_throw (e : ImportError) : Steady (throw e : ImportM α) := ⟨.refl⟩

instance steady_get : Steady (get : ImportM UnitState) := ⟨.refl⟩

lemma steady_modify {g : UnitState → UnitState} (hg : ∀ s : UnitState, s.InPlace (g s)) :
    Steady (modify g : ImportM Unit) := ⟨hg⟩

lemma Steady.next (hx : Steady x) (hf : ∀ a, Steady (f a)) : Steady (x >>= f) := by
  refine steady_of_ends fun s => (hx.ends s).bind fun a t ht => ?_
  exact ((hf a).ends t).mono (fun _ _ => ht.trans) fun _ => ht.trans

instance steady_bind [hx : Steady x] [hf : ∀ a, Steady (f a)] : Steady (x >>= f) := hx.next hf

instance steady_map {g : α → β} [hx : Steady x] : Steady (g <$> x) :=
  steady_of_ends fun s => Ends.map (S := fun _ => s.InPlace) (hx.ends s)

instance steady_ite {p : Prop} [Decidable p] [hx : Steady x] [hy : Steady y] :
    Steady (if p then x else y) := by
  split_ifs
  exacts [hx, hy]

/-- What comes after a value was found or not. -/
lemma Steady.found {o : ImportM (Option α)} {g : Option α → ImportM β} (ho : Steady o)
    (hnone : Steady (g none)) (hsome : ∀ a, Steady (g (some a))) : Steady (o >>= g) :=
  ho.next fun found => found.casesOn hnone hsome

instance steady_forM {xs : List α} {f : α → ImportM PUnit} [hf : ∀ a, Steady (f a)] :
    Steady (xs.forM f : ImportM PUnit) := by
  induction xs with
  | nil => exact steady_pure _
  | cons a xs ih => exact (hf a).next fun _ => ih

/-- Where a program fails, it has opened and closed no scope. -/
class FailsInPlace (x : ImportM α) : Prop where
  ends : ∀ s : UnitState, Ends (x s) (fun _ _ => True) s.InPlace

instance (priority := low) failsInPlace_of_steady [hx : Steady x] : FailsInPlace x :=
  ⟨fun s => (hx.ends s).imp fun _ _ _ => trivial⟩

lemma Steady.last (hx : Steady x) (hf : ∀ a, FailsInPlace (f a)) : FailsInPlace (x >>= f) := by
  refine ⟨fun s => (hx.ends s).bind fun a t ht => ?_⟩
  exact ((hf a).ends t).mono (fun _ _ _ => trivial) fun _ => ht.trans

/-- After what may fail comes an answer. -/
lemma FailsInPlace.map {g : α → β} (hx : FailsInPlace x) : FailsInPlace (g <$> x) :=
  ⟨fun s => Ends.map (S := fun _ _ => True) (hx.ends s)⟩

end steady

namespace ImportM

variable {α : Type} {u : UnitContext}

-- the instance for a program is as long as the program
set_option synthInstance.maxSize 1024

instance steady_change (m : GraphM α) : Steady (change m) := by
  refine ⟨fun s => ?_⟩
  unfold change
  cases m s.graph <;> exact ⟨rfl, rfl, rfl, .refl _⟩

instance steady_query (f : Graph → Except GraphFault α) : Steady (query f) := by
  refine ⟨fun s => ?_⟩
  unfold query
  cases f s.graph <;> exact .refl s

instance steady_emit (e : Event) : Steady (emit e) := ⟨fun _ => ⟨rfl, rfl, rfl, .refl _⟩⟩

instance steady_register (n : NodeId) : Steady (register n) := ⟨fun _ => ⟨rfl, rfl, rfl, .refl _⟩⟩

instance steady_discard (n : NodeId) : Steady (discard n) := ⟨fun _ => ⟨rfl, rfl, rfl, .refl _⟩⟩

lemma steady_modifyScopes {f : ScopeStack → ScopeStack} (hp : ∀ s, (f s).package = s.package)
    (ho : ∀ s, (f s).opened.map (·.frame) = s.opened.map (·.frame))
    (ht : ∀ s : ScopeStack, s.touched ⊆ (f s).touched) : Steady (modifyScopes f) :=
  steady_modify fun s => ⟨hp s.scopes, ho s.scopes, rfl, ht s.scopes⟩

instance steady_touch (n : NodeId) : Steady (modifyScopes (·.touch n)) :=
  steady_modifyScopes (fun s => by cases ho : s.opened <;> simp [ScopeStack.touch, ho])
    (fun s => s.frames_touch n) fun s => by simp [s.touched_touch n]

instance steady_addImportedPackage (n : NodeId) :
    Steady (modifyScopes (·.addImportedPackage n)) := by
  refine steady_modifyScopes (fun s => ?_) (fun s => ?_) fun s => ?_ <;>
    by_cases hn : n ∈ s.importedPackages <;>
    simp [ScopeStack.addImportedPackage, ScopeStack.touched, hn]

instance steady_addImportedClassifier (n : NodeId) :
    Steady (modifyScopes (·.addImportedClassifier n)) := by
  refine steady_modifyScopes (fun s => ?_) (fun s => ?_) fun s => ?_ <;>
    by_cases hn : n ∈ s.importedClassifiers <;>
    simp [ScopeStack.addImportedClassifier, ScopeStack.touched, hn]

instance steady_warn (u : UnitContext) (code message : String) :
    Steady (warn u code message) := by
  unfold warn
  refine Steady.next (steady_modify fun _ => ⟨rfl, rfl, rfl, .refl _⟩) fun _ => ?_
  exact steady_emit _

instance steady_stereotype (name : String) (base : Option String) :
    Steady (stereotype name base) := by
  unfold stereotype
  refine steady_get.next fun s => (steady_change _).next fun ⟨result, registry⟩ => ?_
  refine Steady.next (steady_modify fun _ => ⟨rfl, rfl, rfl, .refl _⟩) fun _ => ?_
  cases result <;> infer_instance

/-! Names -/

instance steady_packageBelow (n : NodeId) (segments : List String) :
    Steady (packageBelow n segments) := by
  induction segments generalizing n with
  | nil => exact steady_pure n
  | cons segment rest ih =>
    unfold packageBelow
    exact .found (steady_query _) inferInstance inferInstance

instance steady_getPackage (name : String) : Steady (getPackage name) := by
  unfold getPackage
  infer_instance

instance steady_contextFor (name : String) : Steady (contextFor name) := by
  unfold contextFor scopeNamespaces
  split <;> infer_instance

instance steady_forceCreate (simple : String) (mode : ResolveMode) (package : Option NodeId)
    (context : String) : Steady (forceCreate simple mode package context) := by
  unfold forceCreate
  infer_instance

instance steady_resolve (u : UnitContext) (name : String) (mode : ResolveMode)
    (context : String) : Steady (resolve u name mode context) := by
  unfold resolve resolveWith
  refine (steady_contextFor name).next fun ⟨chain, simple, package⟩ => ?_
  refine .found (steady_query _) ?_ inferInstance
  cases u.settings.unresolvedPolicy <;> infer_instance

/-! Classifiers -/

instance steady_adoptClassifier (name : String) (home : NodeId) :
    Steady (adoptClassifier name home) := by
  unfold adoptClassifier
  refine .found (steady_query _) ?_ inferInstance
  have : Steady (do
      match ← query (·.classifier? root (some name)) with
      | none => return none
      | some stray =>
        if ← query (·.isPlaceholder stray) then
          change (.setNamespace stray (some home))
          return some stray
        else return none : ImportM (Option NodeId)) :=
    .found (steady_query _) inferInstance inferInstance
  exact steady_ite

instance steady_supersede (old : NodeId) (kind : ClassifierKind) (name : String)
    (home : NodeId) : Steady (supersede old kind name home) := by
  unfold supersede
  infer_instance

instance steady_upsertNode (kind : ClassifierKind) (name : String) (home : NodeId) :
    Steady (upsertNode kind name home) := by
  unfold upsertNode
  exact .found (steady_adoptClassifier name home) inferInstance inferInstance

instance steady_describeClassifier (n : NodeId) (kind : ClassifierKind) (modifiers : ModifierSet) :
    Steady (describeClassifier n kind modifiers) := by
  cases kind <;> (unfold describeClassifier; infer_instance)

instance steady_upsertGeneralization (child parent : NodeId) :
    Steady (upsertGeneralization child parent) := by
  unfold upsertGeneralization
  refine steady_get.next fun s => ?_
  cases s.graph.generalizationBetween? child parent <;> dsimp only <;> infer_instance

instance steady_findRealization (client supplier : NodeId) (deps : List NodeId) :
    Steady (findRealization client supplier deps) := by
  induction deps with
  | nil => exact steady_pure none
  | cons dep deps ih =>
    unfold findRealization
    infer_instance

instance steady_edgeName (u : UnitContext) (source target : NodeId) :
    Steady (edgeName u source target) := by
  unfold edgeName
  infer_instance

instance steady_upsertRealization (u : UnitContext) (client supplier : NodeId) :
    Steady (upsertRealization u client supplier) := by
  unfold upsertRealization
  refine (steady_query _).next fun deps => (steady_findRealization ..).next fun found => ?_
  cases found <;> dsimp only <;> infer_instance

instance steady_inheritFrom (u : UnitContext) (n : NodeId) (mode : ResolveMode) (name : String) :
    Steady (inheritFrom u n mode name) := by
  unfold inheritFrom
  exact .found (steady_resolve ..) inferInstance inferInstance

instance steady_realize (u : UnitContext) (n : NodeId) (name : String) :
    Steady (realize u n name) := by
  unfold realize
  exact .found (steady_resolve ..) inferInstance inferInstance

instance steady_addInheritance (u : UnitContext) (n : NodeId) (kind : ClassifierKind)
    (superclass : Option String) (interfaces : List String) :
    Steady (addInheritance u n kind superclass interfaces) := by
  unfold addInheritance
  cases kind with
  | interfaceType => infer_instance
  | enumeration => infer_instance
  | classType =>
    dsimp only
    cases superclass.filter (· ≠ "") <;> infer_instance

/-! Members -/

instance steady_requireClassifier (fault : Misplacement) : Steady (requireClassifier fault) := by
  unfold requireClassifier
  refine steady_get.next fun s => ?_
  cases s.scopes.classifier <;> infer_instance

instance steady_addResult (u : UnitContext) (classifier op : NodeId) (returnType : Option String)
    (name : String) : Steady (addResult u classifier op returnType name) := by
  rw [addResult_eq]
  refine (steady_query _).next fun constructs => ?_
  cases returnType.filter fun _ => !constructs with
  | none => infer_instance
  | some type => exact .found (steady_resolve ..) inferInstance inferInstance

instance steady_addParameter (u : UnitContext) (op : NodeId) (p : ParameterDeclaration) :
    Steady (addParameter u op p) := by
  unfold addParameter
  cases withoutVarargs? p.type <;> infer_instance

instance steady_upsertOperation (classifier : NodeId) (name : String) :
    Steady (upsertOperation classifier name) := by
  unfold upsertOperation
  exact .found (steady_query _) inferInstance inferInstance

instance steady_addOperation (u : UnitContext) (modifiers : ModifierSet)
    (returnType : Option String) (name : String) (parameters : List ParameterDeclaration)
    (doc : Option String) :
    Steady (addOperation u modifiers returnType name parameters doc) := by
  unfold addOperation
  infer_instance

instance steady_upsertAttribute (classifier : NodeId) (type : Option NodeId) (name : String) :
    Steady (upsertAttribute classifier type name) := by
  unfold upsertAttribute
  exact .found (steady_query _) inferInstance inferInstance

instance steady_upsertFieldEnd (u : UnitContext) (classifier target : NodeId) (name : String) :
    Steady (upsertFieldEnd u classifier target name) := by
  unfold upsertFieldEnd
  refine .found (steady_query _) ?_ inferInstance
  refine (steady_edgeName ..).next fun edge => (steady_change _).next fun association => ?_
  refine (steady_register _).next fun _ => (steady_emit _).next fun _ => ?_
  exact .found (steady_query _) inferInstance inferInstance

instance steady_associatedType? (u : UnitContext) (type : Option NodeId) :
    Steady (associatedType? u type) := by
  unfold associatedType?
  cases type.filter fun _ => u.settings.generateAssociations <;> infer_instance

instance steady_addPlainField (modifiers : ModifierSet) (classifier : NodeId)
    (type : Option NodeId) (multiplicity name : String) (initializer doc : Option String) :
    Steady (addPlainField modifiers classifier type multiplicity name initializer doc) := by
  unfold addPlainField
  cases initializer <;> dsimp only <;> infer_instance

instance steady_addAssociatedField (u : UnitContext) (modifiers : ModifierSet)
    (classifier type : NodeId) (multiplicity name : String) (doc : Option String) :
    Steady (addAssociatedField u modifiers classifier type multiplicity name doc) := by
  unfold addAssociatedField
  dsimp only
  infer_instance

instance steady_addAttribute (u : UnitContext) (modifiers : ModifierSet) (type : Option String)
    (name : String) (initializer doc : Option String) :
    Steady (addAttribute u modifiers type name initializer doc) := by
  have : ∀ classifier target multiplicity, Steady (do
      match ← associatedType? u target with
      | none =>
        some <$> addPlainField modifiers classifier target multiplicity name initializer doc
      | some n => some <$> addAssociatedField u modifiers classifier n multiplicity name doc :
      ImportM (Option NodeId)) :=
    fun _ _ _ => .found (steady_associatedType? ..) inferInstance inferInstance
  unfold addAttribute
  cases type <;> simp only [pure_bind] <;> exact steady_bind

instance steady_addEnumerationLiteral (u : UnitContext) (name : String) :
    Steady (addEnumerationLiteral u name) := by
  unfold addEnumerationLiteral isEnumeration
  infer_instance

/-! Import clauses and components -/

instance steady_buildImport (u : UnitContext) (target : NodeId) : Steady (buildImport u target) := by
  unfold buildImport
  refine steady_get.next fun s => ?_
  cases s.component with
  | none => infer_instance
  | some component =>
    refine (steady_query _).next fun deps => ?_
    exact .found (steady_query _) inferInstance inferInstance

instance steady_addImport (u : UnitContext) (name : String) : Steady (addImport u name) := by
  have : ∀ found : Option NodeId, Steady (match found with
      | none => return none
      | some n => do
        modifyScopes (·.addImportedClassifier n)
        some <$> buildImport u n : ImportM (Option NodeId)) := by
    intro found
    cases found <;> infer_instance
  unfold addImport
  infer_instance

instance steady_upsertComponent (n : NodeId) (name : String) : Steady (upsertComponent n name) := by
  unfold upsertComponent
  exact .found (steady_query _) inferInstance inferInstance

instance steady_settleComponent (component package : NodeId) :
    Steady (settleComponent component package) := by
  have : ∀ (name : Option String) (existing : Option NodeId), Steady (do
      match existing.filter (· ≠ component) with
      | some c =>
        change (.delete component)
        discard component
        emit (.componentReused (name.getD ""))
        return c
      | none =>
        change (.setNamespace component (some package))
        return component : ImportM NodeId) := by
    intro name existing
    cases existing.filter (· ≠ component) <;> infer_instance
  unfold settleComponent
  exact .found (steady_query _) inferInstance fun name => steady_bind

end ImportM

end DeclGraph
