import DeclGraph.Proofs.Graph.Groundwork
import DeclGraph.Proofs.Import.Refusal
import DeclGraph.Proofs.Import.Units

/-! How the programs of an import are put together: each of them is composed of readings and changes
of the graph and of a few operations on the state besides, and looks at nothing that happened
before. What is proved about the parts holds of all programs. -/

namespace DeclGraph

/-- An error that is due to what is declared, not to the order in which it is declared. -/
def ImportError.IsDue (e : ImportError) : Prop := e.kind ∉ [.other, .misplaced]

lemma ImportError.IsDue.contained {e : ImportError} (h : e.IsDue) : e.kind ≠ .other :=
  fun hk => h (by simp [hk])

lemma GraphFault.IsRefusal.kind {f : GraphFault} (h : f.IsRefusal) :
    (ImportError.graph f).kind = .graph := by
  cases f with
  | missingRecord => exact h.elim
  | _ => rfl

/-- The same outcome in another form of the state. -/
def mapFinal {ε σ τ α : Type} (f : σ → τ) : EStateM.Result ε σ α → EStateM.Result ε τ α
  | .ok a s => .ok a (f s)
  | .error e s => .error e (f s)

lemma Session.diagnostics_register (s : Session) (n : NodeId) :
    (s.register n).diagnostics = s.diagnostics := by
  unfold register
  split_ifs <;> rfl

namespace UnitState

/-- A state with more events before those it has. -/
def withPast (past : List Event) (s : UnitState) : UnitState := { s with log := s.log ++ past }

/-- The model, the stereotypes that are remembered and the diagnostics are what they were, and
there still is a component. -/
structure SameModel (s t : UnitState) : Prop where
  graph : t.graph = s.graph
  registry : t.registry = s.registry
  diagnostics : t.session.diagnostics = s.session.diagnostics
  component : s.component.isSome = true → t.component.isSome = true

end UnitState

/-- It makes no difference to a program what happened before. -/
def IgnoresPast {α : Type} (x : ImportM α) : Prop :=
  ∀ past s, x (s.withPast past) = mapFinal (·.withPast past) (x s)

namespace IgnoresPast

variable {α β : Type} {x : ImportM α} {f : α → ImportM β}

lemma bind (hx : IgnoresPast x) (hf : ∀ a, IgnoresPast (f a)) : IgnoresPast (x >>= f) := by
  intro past s
  cases hr : x s with
  | ok a t => rw [bind_run hr, bind_run (by rw [hx, hr]; rfl), hf]
  | error e t => rw [bind_failed hr, bind_failed (by rw [hx, hr]; rfl)]; rfl

lemma look {f : UnitState → ImportM α} (hf : ∀ s, IgnoresPast (f s))
    (hpast : ∀ past s, f (s.withPast past) = f s) : IgnoresPast (get >>= f) := by
  intro past s
  change f (s.withPast past) (s.withPast past) = mapFinal _ (f s s)
  rw [hpast, hf]

lemma change (m : GraphM α) : IgnoresPast (ImportM.change m) := by
  intro past s
  have hgraph : (s.withPast past).graph = s.graph := rfl
  unfold ImportM.change
  rw [hgraph]
  cases m s.graph <;> rfl

lemma query (f : Graph → Except GraphFault α) : IgnoresPast (ImportM.query f) := by
  intro past s
  have hgraph : (s.withPast past).graph = s.graph := rfl
  unfold ImportM.query
  rw [hgraph]
  cases f s.graph <;> rfl

lemma modify {f : UnitState → UnitState}
    (hpast : ∀ past s, f (s.withPast past) = (f s).withPast past) :
    IgnoresPast (modify f : ImportM Unit) := by
  intro past s
  change EStateM.Result.ok () (f (s.withPast past)) = EStateM.Result.ok () ((f s).withPast past)
  rw [hpast]

lemma stereotype (name : String) (base : Option String) :
    IgnoresPast (ImportM.stereotype name base) := by
  unfold ImportM.stereotype
  refine look (fun s => ?_) fun _ _ => rfl
  apply (change _).bind
  rintro ⟨result, registry⟩
  refine bind (modify fun _ _ => rfl) fun _ => ?_
  cases result with
  | error m => exact fun _ _ => rfl
  | ok n =>
    dsimp only
    split_ifs
    · exact bind (modify fun _ _ => rfl) fun _ _ _ => rfl
    · exact fun _ _ => rfl

lemma warn (u : UnitContext) (code message : String) :
    IgnoresPast (ImportM.warn u code message) :=
  bind (modify fun _ _ => rfl) fun _ _ _ => rfl

end IgnoresPast

/-- What the parts of a program may do: the errors that they raise, what becomes of graphs, and
whether warnings are given. -/
structure Manner where
  raises : ImportError → Prop
  alters : Graph → Graph → Prop
  warns : Prop

namespace Manner

instance : LE Manner :=
  ⟨fun M M' => M.raises ≤ M'.raises ∧ M.alters ≤ M'.alters ∧ (M.warns → M'.warns)⟩

/-- A change of the graph is made in a manner. -/
class Allows {α : Type} (M : Manner) (m : GraphM α) : Prop where
  raises : FailsIn Graph.Stocked (fun f => M.raises (.graph f)) m
  alters : Obeys M.alters m

/-- In a manner, elements are described and added to the groundwork of a model. -/
class Describing (M : Manner) : Prop extends Graph.Tolerates M.alters where
  raises : ∀ e : ImportError, e.kind ∉ [.other, .misplaced, .unresolved] → M.raises e

/-- In a manner, all that belongs to the groundwork is laid down. -/
class Laying (M : Manner) : Prop extends Describing M where
  alters : Graph.Lays ≤ M.alters

/-- In a manner, names are resolved, and features and edges are added. -/
class Referring (M : Manner) : Prop extends Describing M, Graph.Accepts M.alters where
  unresolved : ∀ e : ImportError, e.kind = .unresolved → M.raises e
  warns : M.warns

/-- In a manner, declarations may come in places where they cannot stand. -/
class Misplacing (M : Manner) : Prop where
  misplaced : ∀ m, M.raises (.misplaced m)

/-- Errors are due to what is declared, and stereotypes keep their names. -/
def dutiful : Manner := ⟨ImportError.IsDue, Graph.Titles, True⟩

/-- Anything may be done. -/
def free : Manner := ⟨fun _ => True, fun _ _ => True, True⟩

/-- Groundwork is laid down, no name is left unresolved and nothing is warned about. -/
def skeleton : Manner := ⟨fun e => e.kind ≠ .unresolved, Graph.Lays, False⟩

/-- What is there stays and is described. -/
def keeping : Manner := ⟨fun _ => True, Graph.Keeps, True⟩

instance : Referring dutiful where
  toAccepts := inferInstanceAs (Graph.Accepts Graph.Titles)
  raises e h := fun hk => h (by revert hk; simp only [List.mem_cons]; tauto)
  unresolved e h := by simp [dutiful, ImportError.IsDue, h]
  warns := trivial

instance : Laying dutiful := ⟨fun _ _ => Graph.Lays.titles⟩

instance : Referring free where
  refl _ := trivial
  trans _ _ _ _ _ := trivial
  add _ _ _ := trivial
  add_any _ _ := trivial
  modify _ _ _ _ := trivial
  raises _ _ := trivial
  unresolved _ _ := trivial
  warns := trivial

instance : Laying free := ⟨fun _ _ _ => trivial⟩

instance : Misplacing free := ⟨fun _ => trivial⟩

instance : Laying skeleton where
  toTolerates := inferInstanceAs (Graph.Tolerates Graph.Lays)
  raises e h := fun hk => h (by simp [hk])
  alters := le_rfl

instance : Misplacing skeleton := ⟨fun _ => by simp [skeleton, ImportError.kind]⟩

instance : Referring keeping where
  toAccepts := inferInstanceAs (Graph.Accepts Graph.Keeps)
  raises _ _ := trivial
  unresolved _ _ := trivial
  warns := trivial

instance : Misplacing keeping := ⟨fun _ => trivial⟩

end Manner

/-- How programs are put together from parts that keep to a manner. -/
class inductive Composed (M : Manner) : {α : Type} → ImportM α → Prop
  | answer {α : Type} (a : α) : Composed M (pure a : ImportM α)
  | refuse {α : Type} {e : ImportError} (h : M.raises e) : Composed M (throw e : ImportM α)
  | bind {α β : Type} {x : ImportM α} {f : α → ImportM β} (hx : Composed M x)
    (hf : ∀ a, Composed M (f a)) : Composed M (x >>= f)
  | look {α : Type} {f : UnitState → ImportM α} (hf : ∀ s, Composed M (f s))
    (hpast : ∀ past s, f (s.withPast past) = f s) : Composed M (get >>= f)
  | change {α : Type} {m : GraphM α} (hm : M.Allows m) : Composed M (ImportM.change m)
  | query {α : Type} {f : Graph → Except GraphFault α}
    (hf : ∀ {g e}, g.Stocked → f g = .error e → M.raises (.graph e)) : Composed M (ImportM.query f)
  | stereotype {name : String} {base : Option String}
    (hm : ∀ registry : StereotypeRegistry, M.Allows (registry.resolve name base))
    (h : ∀ m, M.raises (.missingStereotype m)) : Composed M (ImportM.stereotype name base)
  | emit (e : Event) : Composed M (ImportM.emit e)
  | warn (u : UnitContext) (code message : String) (h : M.warns) :
    Composed M (ImportM.warn u code message)
  | modify {f : UnitState → UnitState} (hsame : ∀ s : UnitState, s.SameModel (f s))
    (hpast : ∀ past s, f (s.withPast past) = (f s).withPast past) :
    Composed M (modify f : ImportM Unit)

lemma ImportM.failsIn_change {α : Type} {I : Graph → Prop} {P : ImportError → Prop} {m : GraphM α}
    (hm : FailsIn I (fun f => P (.graph f)) m) : FailsIn (I ·.graph) P (change m) := by
  refine ⟨fun s => ⟨fun hs => ?_, fun hs {e t} h => ?_⟩⟩
  · have hk := hm.keeps hs
    unfold change
    cases hr : m s.graph <;> rwa [hr] at hk
  · unfold change at h
    split at h
    · exact nomatch h
    · next hr =>
      cases h
      exact hm.error hs hr

namespace Composed

variable {M M' : Manner} {α : Type} {x : ImportM α}

lemma failsIn (h : Composed M x) : FailsIn (·.graph.Stocked) M.raises x := by
  induction h with
  | answer a => exact failsIn_pure a
  | refuse h => exact failsIn_throw h
  | bind _ _ hx hf => exact hx.bind hf
  | look _ _ hf => exact failsIn_get.bind hf
  | change hm => exact ImportM.failsIn_change hm.raises
  | @query α f hf =>
    refine ⟨fun s => ⟨fun hs => ?_, fun hs {e t} h => ?_⟩⟩
    · unfold ImportM.query
      cases f s.graph <;> exact hs
    · unfold ImportM.query at h
      split at h
      · cases h
      · next hr =>
        cases h
        exact hf hs hr
  | stereotype hm h =>
    unfold ImportM.stereotype
    refine failsIn_get.bind fun s => ?_
    apply (ImportM.failsIn_change (hm s.registry).raises).bind
    rintro ⟨result, registry⟩
    refine FailsIn.bind (failsIn_modify fun _ hs => hs) fun _ => ?_
    cases result with
    | error m => exact failsIn_throw (h m)
    | ok n =>
      have : FailsIn (·.graph.Stocked) M.raises (ImportM.register n) :=
        failsIn_modify fun _ hs => hs
      infer_instance
  | emit e => exact failsIn_modify fun _ hs => hs
  | warn => exact FailsIn.bind (failsIn_modify fun _ hs => hs) fun _ => failsIn_modify fun _ hs => hs
  | modify hsame => exact failsIn_modify fun s hs => (hsame s).graph ▸ hs

lemma start (h : Composed M x) (s : UnitState) : FailsFrom (·.graph.Stocked) M.raises s x :=
  h.failsIn.start s

lemma mono (h : Composed M x) (hM : M ≤ M') : Composed M' x := by
  obtain ⟨hraises, halters, hwarns⟩ := hM
  have allows {β : Type} {m : GraphM β} (hm : M.Allows m) : M'.Allows m :=
    ⟨hm.raises.imp fun _ => hraises _, ⟨fun g => halters _ _ (hm.alters.final g)⟩⟩
  induction h with
  | answer a => exact .answer a
  | refuse h => exact .refuse (hraises _ h)
  | bind _ _ hx hf => exact .bind hx hf
  | look _ hpast hf => exact .look hf hpast
  | change hm => exact .change (allows hm)
  | query hf => exact .query fun hg h => hraises _ (hf hg h)
  | stereotype hm h =>
    exact .stereotype (fun registry => allows (hm registry)) fun m => hraises _ (h m)
  | emit e => exact .emit e
  | warn u code message h => exact .warn u code message (hwarns h)
  | modify hsame hpast => exact .modify hsame hpast

/-- What happened before a program makes no difference to it. -/
theorem withPast (h : Composed M x) : IgnoresPast x := by
  induction h with
  | answer a => exact fun _ _ => rfl
  | refuse h => exact fun _ _ => rfl
  | bind _ _ hx hf => exact hx.bind hf
  | look _ hpast hf => exact .look hf hpast
  | change => exact .change _
  | query => exact .query _
  | stereotype => exact .stereotype _ _
  | emit e => exact fun _ _ => rfl
  | warn => exact .warn _ _ _
  | modify _ hpast => exact .modify hpast

/-- What the parts of a program obey, the program obeys. -/
theorem obeys {R : UnitState → UnitState → Prop} [IsPreorder UnitState R] (h : Composed M x)
    (hsame : ∀ {s t : UnitState}, s.SameModel t → R s t)
    (hchange : ∀ {α : Type} {m : GraphM α}, M.Allows m → Obeys R (ImportM.change m))
    (hstereotype : ∀ {name base}, (∀ registry : StereotypeRegistry,
      M.Allows (registry.resolve name base)) → Obeys R (ImportM.stereotype name base))
    (hwarn : M.warns → ∀ u code message, Obeys R (ImportM.warn u code message)) : Obeys R x := by
  induction h with
  | answer a => exact obeys_pure a
  | refuse h => exact obeys_throw _
  | bind _ _ hx hf => exact hx.bind hf
  | look _ _ hf => exact obeys_get.bind hf
  | change hm => exact hchange hm
  | @query α f hf =>
    refine ⟨fun s => ?_⟩
    unfold ImportM.query
    cases f s.graph <;> exact refl_of R s
  | stereotype hm _ => exact hstereotype hm
  | emit e => exact obeys_modify fun _ => hsame ⟨rfl, rfl, rfl, id⟩
  | warn u code message h => exact hwarn h u code message
  | modify h _ => exact obeys_modify fun s => hsame (h s)

end Composed

-- the instance for a program is as long as the program
set_option synthInstance.maxSize 4096

section programs

variable {M : Manner} {α β : Type} {x y : ImportM α} {f : α → ImportM β}

instance composed_pure (a : α) : Composed M (pure a : ImportM α) := .answer a

instance composed_bind [hx : Composed M x] [hf : ∀ a, Composed M (f a)] : Composed M (x >>= f) :=
  .bind hx hf

instance composed_map {g : α → β} [hx : Composed M x] : Composed M (g <$> x) := by
  rw [map_eq_pure_bind]
  infer_instance

lemma Composed.ite {p : Prop} [Decidable p] (hx : Composed M x) (hy : Composed M y) :
    Composed M (if p then x else y) := by
  split_ifs
  exacts [hx, hy]

instance composed_ite {p : Prop} [Decidable p] [hx : Composed M x] [hy : Composed M y] :
    Composed M (if p then x else y) :=
  .ite hx hy

/-- What comes after a value was found or not. -/
lemma Composed.found {o : ImportM (Option α)} {f : Option α → ImportM β} (ho : Composed M o)
    (hnone : Composed M (f none)) (hsome : ∀ a, Composed M (f (some a))) : Composed M (o >>= f) :=
  ho.bind fun found => found.casesOn hnone hsome

/-- What comes after a failure does not matter. -/
lemma composed_refuse_bind {e : ImportError} (h : M.raises e) :
    Composed M ((throw e : ImportM α) >>= f) :=
  show Composed M (throw e : ImportM β) from .refuse h

instance composed_forM {xs : List α} {f : α → ImportM PUnit} [hf : ∀ a, Composed M (f a)] :
    Composed M (xs.forM f : ImportM PUnit) := by
  induction xs with
  | nil => exact .answer _
  | cons a xs ih => exact (hf a).bind fun _ => ih

instance composed_change {m : GraphM α} [hm : M.Allows m] : Composed M (ImportM.change m) :=
  .change hm

instance composed_emit (e : Event) : Composed M (ImportM.emit e) := .emit e

instance composed_register (n : NodeId) : Composed M (ImportM.register n) :=
  .modify (fun s => ⟨rfl, rfl, s.session.diagnostics_register n, id⟩) fun _ _ => rfl

instance composed_discard (n : NodeId) : Composed M (ImportM.discard n) :=
  .modify (fun _ => ⟨rfl, rfl, rfl, id⟩) fun _ _ => rfl

instance composed_modifyScopes (f : ScopeStack → ScopeStack) :
    Composed M (ImportM.modifyScopes f) :=
  .modify (fun _ => ⟨rfl, rfl, rfl, id⟩) fun _ _ => rfl

instance composed_setScopes (scopes : ScopeStack) :
    Composed M (modify ({ · with scopes }) : ImportM Unit) :=
  .modify (fun _ => ⟨rfl, rfl, rfl, id⟩) fun _ _ => rfl

instance composed_setComponent (component : NodeId) :
    Composed M (modify ({ · with component := some component }) : ImportM Unit) :=
  .modify (fun _ => ⟨rfl, rfl, rfl, fun _ => rfl⟩) fun _ _ => rfl

end programs

namespace ImportM

variable {α : Type} {M : Manner} {u : UnitContext}

section describing

variable [hM : M.Describing]

instance allows_of_obeys {m : GraphM α} [hm : GraphM.Sure m] [ho : Obeys M.alters m] :
    M.Allows m where
  raises := hm.imp fun _ hf => hM.raises _ (by simp [hf.kind])
  alters := ho

instance composed_query {f : Graph → Except GraphFault α} [hf : ∀ g, Refuses g (f g)] :
    Composed M (query f) :=
  .query fun {g _} hg h => hM.raises _ (by simp [((hf g).refusal hg h).kind])

instance composed_misplaced [hm : M.Misplacing] (m : Misplacement) :
    Composed M (throw (.misplaced m) : ImportM α) :=
  .refuse (hm.misplaced m)

instance composed_placed [M.Misplacing] (x : Except Misplacement α) : Composed M (placed x) := by
  cases x <;> unfold placed <;> infer_instance

instance composed_stereotype (name : String) (base : Option String) :
    Composed M (stereotype name base) :=
  .stereotype (fun _ => inferInstance) fun _ => hM.raises _ (by simp [ImportError.kind])

instance composed_describeClassifier (n : NodeId) (kind : ClassifierKind)
    (modifiers : ModifierSet) : Composed M (describeClassifier n kind modifiers) := by
  cases kind <;> (unfold describeClassifier; infer_instance)

instance composed_openScope (n : NodeId) : Composed M (openScope n) := by
  unfold openScope
  infer_instance

instance composed_endOfHead (n : NodeId) (doc : Option String) (enclosing : Option NodeId) :
    Composed M (endOfHead u n doc enclosing) := by
  unfold endOfHead openHead
  refine .look (fun s => ?_) fun _ _ => rfl
  cases enclosing <;> cases s.component <;> dsimp only <;> infer_instance

instance composed_packageBelow (n : NodeId) (segments : List String) :
    Composed M (packageBelow n segments) := by
  induction segments generalizing n with
  | nil => exact composed_pure n
  | cons segment rest ih =>
    unfold packageBelow
    exact .found inferInstance inferInstance inferInstance

instance composed_getPackage (name : String) : Composed M (getPackage name) := by
  unfold getPackage
  infer_instance

instance composed_requireClassifier [M.Misplacing] (fault : Misplacement) :
    Composed M (requireClassifier fault) := by
  unfold requireClassifier
  refine .look (fun s => ?_) fun _ _ => rfl
  cases s.scopes.classifier <;> infer_instance

instance composed_isEnumeration (n : NodeId) : Composed M (isEnumeration n) := by
  unfold isEnumeration
  infer_instance

end describing

/-- What lays groundwork is allowed wherever that may be laid. -/
lemma allows_of_lays [hM : M.Laying] {m : GraphM α} [hm : GraphM.Sure m] [ho : Obeys Graph.Lays m] :
    M.Allows m :=
  have : Obeys M.alters m := ⟨fun g => hM.alters _ _ (ho.final g)⟩
  inferInstance

/-! What lays groundwork -/

section laying

variable [hM : M.Laying]

instance allows_delete (n : NodeId) : M.Allows (GraphM.delete n) :=
  allows_of_lays

instance allows_removeClientDependency (client dep : NodeId) :
    M.Allows (GraphM.removeClientDependency client dep) :=
  allows_of_lays

instance allows_removeParameter (op p : NodeId) : M.Allows (GraphM.removeParameter op p) :=
  allows_of_lays

instance allows_removeTaggedValues (n : NodeId) (tag : String) :
    M.Allows (GraphM.removeTaggedValues n tag) :=
  allows_of_lays

instance allows_replaceReferences (old new : NodeId) :
    M.Allows (GraphM.replaceReferences old new) :=
  allows_of_lays

instance composed_adoptClassifier (name : String) (home : NodeId) :
    Composed M (adoptClassifier name home) := by
  unfold adoptClassifier
  refine .found inferInstance ?_ inferInstance
  exact .ite inferInstance (.found inferInstance inferInstance inferInstance)

instance composed_supersede (old : NodeId) (kind : ClassifierKind) (name : String)
    (home : NodeId) : Composed M (supersede old kind name home) := by
  unfold supersede
  infer_instance

instance composed_upsertNode (kind : ClassifierKind) (name : String) (home : NodeId) :
    Composed M (upsertNode kind name home) := by
  unfold upsertNode
  exact .found inferInstance inferInstance inferInstance

instance composed_addClassifier (u : UnitContext) (kind : ClassifierKind) (name : String)
    (modifiers : ModifierSet) (doc : Option String) :
    Composed M (addClassifier u kind name modifiers doc) := by
  rw [addClassifier_eq]
  exact .look (fun _ => inferInstance) fun _ _ => rfl

instance composed_evict (n : NodeId) : Composed M (evict n) := by
  unfold evict
  refine .look (fun s => ?_) fun _ _ => rfl
  cases s.graph.node? n <;> dsimp only <;> infer_instance

instance composed_upsertComponent (n : NodeId) (name : String) :
    Composed M (upsertComponent n name) := by
  unfold upsertComponent
  exact .found inferInstance inferInstance inferInstance

instance composed_settleComponent (component package : NodeId) :
    Composed M (settleComponent component package) := by
  unfold settleComponent
  refine .bind inferInstance fun name => ?_
  cases name <;> dsimp only <;> refine .bind inferInstance fun existing => ?_ <;>
    cases existing.filter (· ≠ component) <;> infer_instance

instance composed_addComponent (u : UnitContext) : Composed M (addComponent u) := by
  unfold addComponent
  refine .look (fun s => ?_) fun _ _ => rfl
  infer_instance

instance composed_settle (package : NodeId) : Composed M (settle package) := by
  unfold settle
  refine .look (fun s => ?_) fun _ _ => rfl
  cases s.component <;> dsimp only <;> infer_instance

instance composed_moveTo [M.Misplacing] (name : String) : Composed M (moveTo name) := by
  have moved (package : NodeId) : Composed M (moveToPackage package) :=
    .look (fun _ => inferInstance) fun _ _ => rfl
  unfold moveTo
  infer_instance

instance composed_enterPackage [hm : M.Misplacing] (u : UnitContext) (name : String) :
    Composed M (enterPackage u name) := by
  rw [enterPackage_eq]
  refine .look (fun s => .ite (composed_refuse_bind ?_) ?_) fun _ _ => rfl
  · exact hm.misplaced _
  · cases QualifiedName.segments name <;> cases u.settings.srcPath <;> dsimp only <;> infer_instance

instance composed_finish [M.Misplacing] (u : UnitContext) : Composed M (finish u) := by
  unfold finish
  refine .look (fun s => ?_) fun _ _ => rfl
  infer_instance

end laying

section referring

variable [hM : M.Referring]

instance composed_warn (code message : String) : Composed M (warn u code message) :=
  .warn u code message hM.warns

/-! Names -/

instance composed_contextFor (name : String) : Composed M (contextFor name) := by
  have : Composed M scopeNamespaces := .look (fun _ => inferInstance) fun _ _ => rfl
  unfold contextFor
  split
  · refine .bind this fun namespaces => .look (fun s => ?_) fun _ _ => rfl
    infer_instance
  · infer_instance

instance composed_forceCreate (simple : String) (mode : ResolveMode) (package : Option NodeId)
    (context : String) : Composed M (forceCreate simple mode package context) := by
  unfold forceCreate
  infer_instance

instance composed_resolve (u : UnitContext) (name : String) (mode : ResolveMode)
    (context : String) : Composed M (resolve u name mode context) := by
  unfold resolve resolveWith
  refine .bind inferInstance fun ⟨chain, simple, package⟩ => ?_
  refine .found inferInstance ?_ inferInstance
  cases u.settings.unresolvedPolicy with
  | fail => exact .refuse (hM.unresolved _ rfl)
  | warn => infer_instance
  | force => infer_instance

/-! Classifiers -/

/-- An edge is put into the current package. -/
instance composed_place (edge : NodeId) : Composed M (do
    change (.setNamespace edge (some (← get).scopes.package))
    return edge : ImportM NodeId) :=
  .look (fun _ => inferInstance) fun _ _ => rfl

instance composed_upsertGeneralization (child parent : NodeId) :
    Composed M (upsertGeneralization child parent) := by
  unfold upsertGeneralization
  refine .look (fun s => ?_) fun _ _ => rfl
  cases s.graph.generalizationBetween? child parent <;> dsimp only <;> infer_instance

instance composed_findRealization [M.Laying] (client supplier : NodeId) (deps : List NodeId) :
    Composed M (findRealization client supplier deps) := by
  induction deps with
  | nil => exact composed_pure none
  | cons dep deps ih =>
    unfold findRealization
    infer_instance

instance composed_edgeName (u : UnitContext) (source target : NodeId) :
    Composed M (edgeName u source target) := by
  unfold edgeName
  infer_instance

instance composed_upsertRealization [M.Laying] (u : UnitContext) (client supplier : NodeId) :
    Composed M (upsertRealization u client supplier) := by
  unfold upsertRealization
  refine .bind inferInstance fun deps => .bind inferInstance fun found => ?_
  cases found <;> dsimp only <;> infer_instance

instance composed_inheritFrom (u : UnitContext) (n : NodeId) (mode : ResolveMode)
    (name : String) : Composed M (inheritFrom u n mode name) := by
  unfold inheritFrom
  exact .found inferInstance inferInstance inferInstance

instance composed_realize [M.Laying] (u : UnitContext) (n : NodeId) (name : String) :
    Composed M (realize u n name) := by
  unfold realize
  exact .found inferInstance inferInstance inferInstance

instance composed_addInheritance [M.Laying] (u : UnitContext) (n : NodeId) (kind : ClassifierKind)
    (superclass : Option String) (interfaces : List String) :
    Composed M (addInheritance u n kind superclass interfaces) := by
  unfold addInheritance
  cases kind with
  | interfaceType => infer_instance
  | enumeration => infer_instance
  | classType =>
    dsimp only
    cases superclass.filter (· ≠ "") <;> infer_instance

/-! Members -/

instance composed_addResult (u : UnitContext) (classifier op : NodeId)
    (returnType : Option String) (name : String) :
    Composed M (addResult u classifier op returnType name) := by
  rw [addResult_eq]
  refine .bind inferInstance fun constructs => ?_
  cases returnType.filter fun _ => !constructs with
  | none => infer_instance
  | some type => exact .found inferInstance inferInstance inferInstance

instance composed_addParameter (u : UnitContext) (op : NodeId) (p : ParameterDeclaration) :
    Composed M (addParameter u op p) := by
  unfold addParameter
  cases withoutVarargs? p.type <;> infer_instance

instance composed_upsertOperation (classifier : NodeId) (name : String) :
    Composed M (upsertOperation classifier name) := by
  unfold upsertOperation
  exact .found inferInstance inferInstance inferInstance

instance composed_addOperation [M.Laying] [M.Misplacing] (u : UnitContext) (modifiers : ModifierSet)
    (returnType : Option String) (name : String) (parameters : List ParameterDeclaration)
    (doc : Option String) :
    Composed M (addOperation u modifiers returnType name parameters doc) := by
  unfold addOperation
  refine .bind inferInstance fun classifier => ?_
  infer_instance

instance composed_upsertAttribute (classifier : NodeId) (type : Option NodeId) (name : String) :
    Composed M (upsertAttribute classifier type name) := by
  unfold upsertAttribute
  exact .found inferInstance inferInstance inferInstance

instance composed_associatedType? (u : UnitContext) (type : Option NodeId) :
    Composed M (associatedType? u type) := by
  unfold associatedType?
  cases type.filter fun _ => u.settings.generateAssociations <;> infer_instance

instance composed_addPlainField (modifiers : ModifierSet) (classifier : NodeId)
    (type : Option NodeId) (multiplicity name : String) (initializer doc : Option String) :
    Composed M (addPlainField modifiers classifier type multiplicity name initializer doc) := by
  unfold addPlainField
  cases initializer <;> dsimp only <;> infer_instance

/-! Import clauses and components -/

instance composed_buildImport [M.Misplacing] (u : UnitContext) (target : NodeId) :
    Composed M (buildImport u target) := by
  unfold buildImport
  refine .look (fun s => ?_) fun _ _ => rfl
  cases s.component with
  | none => infer_instance
  | some component =>
    refine .bind inferInstance fun deps => ?_
    exact .found inferInstance inferInstance inferInstance

instance composed_addImport [M.Laying] [M.Misplacing] (u : UnitContext) (name : String) : Composed M (addImport u name) := by
  have : ∀ found : Option NodeId, Composed M (match found with
      | none => return none
      | some n => do
        modifyScopes (·.addImportedClassifier n)
        some <$> buildImport u n : ImportM (Option NodeId)) := by
    intro found
    cases found <;> infer_instance
  unfold addImport
  infer_instance

end referring

end ImportM

end DeclGraph
