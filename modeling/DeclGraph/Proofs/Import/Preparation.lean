import DeclGraph.Proofs.Graph.Dependencies
import DeclGraph.Proofs.Import.Bookkeeping

/-! What an edge takes before it can be built: the elements that it connects are looked up and made
where they are missing, and the edge gets a name. No dependency comes or goes meanwhile, and no
stereotype is asked for. -/

namespace DeclGraph

open DeclGraph.Graph

lemma GraphM.ends_create_next (kind : NodeKind) (name : Option String) (home : Option NodeId)
    (g : Graph) : Ends (create kind name home g) (fun n g' => n < g'.next) fun _ => True := by
  unfold create
  refine Ends.bind_ok (a := g.next) (t := (g.add { kind, name }).2) rfl ?_
  have hnew : g.next < (g.add { kind, name }).2.next := by
    rw [next_add]
    exact lt_add_one g.next
  split_ifs
  · have hplace : Obeys SameDependencies (setNamespace g.next home) := inferInstance
    refine Ends.bind ((hplace.ends _).mono (fun _ _ h => h) fun _ _ => trivial) ?_
    exact fun _ _ h => Ends.answer (hnew.trans_le h.next)
  · exact Ends.answer hnew

namespace UnitState

/-- No dependency has come or gone, and the session has noted none. -/
structure Prepares (s t : UnitState) : Prop where
  graph : s.graph.SameDependencies t.graph
  registry : t.registry = s.registry
  noted : ∀ n ∈ t.session.created, n ∈ s.session.created ∨ n < t.graph.next

instance : IsPreorder UnitState Prepares where
  refl s := ⟨refl_of SameDependencies s.graph, rfl, fun _ => Or.inl⟩
  trans _ _ _ h h' := by
    refine ⟨trans_of SameDependencies h.graph h'.graph, h'.registry.trans h.registry, ?_⟩
    intro n hn
    rcases h'.noted n hn with hn | hn
    · exact (h.noted n hn).imp_right fun hlt => hlt.trans_le h'.graph.next
    · exact Or.inr hn

/-- A run makes no dependency and misses no stereotype. -/
structure Readies {α : Type} (s : UnitState) (r : EStateM.Result ImportError UnitState α) :
    Prop where
  prepares : s.Prepares (finalState r)
  error : ∀ {m t}, r ≠ .error (.missingStereotype m) t

end UnitState

namespace UnitState.Readies

variable {α β : Type} {x y : ImportM α} {f : α → ImportM β} {s t : UnitState} {u : UnitContext}
  {n : NodeId} {a : α}

lemma ok (h : s.Readies (x s)) (hrun : x s = .ok a t) : s.Prepares t := by
  have := h.prepares
  rwa [hrun] at this

lemma answer (a : α) : s.Readies ((pure a : ImportM α) s) := ⟨refl_of Prepares s, nofun⟩

lemma get : s.Readies ((get : ImportM UnitState) s) := ⟨refl_of Prepares s, nofun⟩

lemma failure {e : ImportError} (he : ∀ m, e ≠ .missingStereotype m) :
    s.Readies ((throw e : ImportM α) s) := by
  refine ⟨refl_of Prepares s, fun {m t} h => ?_⟩
  cases h
  exact he m rfl

lemma bind (hx : s.Readies (x s)) (hf : ∀ a t, x s = .ok a t → t.Readies (f a t)) :
    s.Readies ((x >>= f) s) := by
  cases hrun : x s with
  | ok a t =>
    rw [bind_run hrun]
    exact ⟨trans_of Prepares (hx.ok hrun) (hf a t hrun).prepares, (hf a t hrun).error⟩
  | error e t =>
    rw [bind_failed hrun]
    have hprepares := hx.prepares
    rw [hrun] at hprepares
    refine ⟨hprepares, fun {m t'} h => ?_⟩
    cases h
    exact hx.error hrun

/-- A first part that does something else to the state. -/
lemma bind_ok (hrun : x s = .ok a t) (ht : s.Prepares t) (hf : t.Readies (f a t)) :
    s.Readies ((x >>= f) s) := by
  rw [bind_run hrun]
  exact ⟨trans_of Prepares ht hf.prepares, hf.error⟩

lemma query (g : Graph → Except GraphFault α) : s.Readies (ImportM.query g s) := by
  unfold ImportM.query
  cases g s.graph with
  | ok a => exact .answer a
  | error e => exact .failure nofun

lemma change (m : GraphM α) [hm : Obeys SameDependencies m] : s.Readies (ImportM.change m s) := by
  have hgraph := hm.final s.graph
  unfold ImportM.change
  cases hrun : m s.graph <;> rw [hrun] at hgraph <;>
    exact ⟨⟨hgraph, rfl, fun _ => Or.inl⟩, nofun⟩

lemma emit (e : Event) : s.Readies (ImportM.emit e s) :=
  ⟨⟨refl_of SameDependencies s.graph, rfl, fun _ => Or.inl⟩, nofun⟩

lemma warn (code message : String) : s.Readies (ImportM.warn u code message s) :=
  ⟨⟨refl_of SameDependencies s.graph, rfl, fun _ => Or.inl⟩, nofun⟩

lemma modifyScopes (f : ScopeStack → ScopeStack) : s.Readies (ImportM.modifyScopes f s) :=
  ⟨⟨refl_of SameDependencies s.graph, rfl, fun _ => Or.inl⟩, nofun⟩

/-- What is there may be noted. -/
lemma register (hn : n < s.graph.next) : s.Readies (ImportM.register n s) := by
  refine ⟨⟨refl_of SameDependencies s.graph, rfl, fun m hm => ?_⟩, nofun⟩
  rcases UnitState.Booked.mem_register.mp hm with rfl | hm
  · exact Or.inr hn
  · exact Or.inl hm

/-- What belongs to the groundwork is made. -/
lemma bind_create {kind : NodeKind} [Fact (kind ∈ NodeKind.groundwork)] {name : Option String}
    {home : Option NodeId} {f : NodeId → ImportM β}
    (hf : ∀ n (t : UnitState), n < t.graph.next → t.Readies (f n t)) :
    s.Readies ((ImportM.change (.create kind name home) >>= f) s) := by
  refine (change _).bind fun n t hrun => hf n t ?_
  exact ((ImportM.ends_change (GraphM.ends_create_next kind name home s.graph)).ok hrun).1

end UnitState.Readies

namespace ImportM

open UnitState (Readies)

variable {s : UnitState} {u : UnitContext} {n c p : NodeId}

lemma readies_packageBelow (segments : List String) (n : NodeId) (s : UnitState) :
    s.Readies (packageBelow n segments s) := by
  induction segments generalizing n s with
  | nil => exact .answer n
  | cons segment rest ih =>
    unfold packageBelow
    refine (Readies.query _).bind fun found t _ => ?_
    cases found with
    | some p => exact ih p t
    | none =>
      refine .bind_create fun p t hp => (Readies.register hp).bind fun _ t₁ _ => ?_
      exact (Readies.emit _).bind fun _ t₂ _ => ih p t₂

lemma readies_addComponent (s : UnitState) : s.Readies (addComponent u s) := by
  have hcomponent : s.Readies (upsertComponent s.scopes.package u.name s) := by
    unfold upsertComponent
    refine (Readies.query _).bind fun found t _ => ?_
    cases found with
    | some c => exact .answer c
    | none =>
      refine .bind_create fun c t hc => (Readies.register hc).bind fun _ t₁ _ => ?_
      exact (Readies.emit _).bind fun _ _ _ => .answer c
  unfold addComponent
  refine .bind .get fun _ _ hget => ?_
  cases hget
  refine hcomponent.bind fun c t _ => ?_
  exact .bind_ok rfl ⟨refl_of SameDependencies t.graph, rfl, fun _ => Or.inl⟩ (.answer c)

lemma readies_getPackage (name : String) (s : UnitState) : s.Readies (getPackage name s) :=
  readies_packageBelow ..

lemma readies_contextFor (name : String) (s : UnitState) : s.Readies (contextFor name s) := by
  rcases hsplit : QualifiedName.split name with ⟨qualifier, simple⟩
  by_cases hq : qualifier = ""
  · rw [contextFor_unqualified (hq ▸ hsplit)]
    have hspaces : s.Readies (scopeNamespaces s) := Readies.query (·.scopeNamespaces s.scopes)
    exact hspaces.bind fun _ _ _ => .bind .get fun _ _ _ => .answer _
  · rw [contextFor_qualified hsplit hq]
    exact (readies_getPackage qualifier s).bind fun _ _ _ => .answer _

lemma readies_forceCreate (simple : String) (mode : ResolveMode) (package : Option NodeId)
    (context : String) (s : UnitState) : s.Readies (forceCreate simple mode package context s) := by
  have made (kind : ClassifierKind) : s.Readies ((do
      let n ← change (.create kind.nodeKind (some simple) (some (package.getD root)))
      let _ ← change (.setTaggedValue n generatedTag "true")
      register n
      emit (.classifierForced kind.nodeKind.label simple context)
      return n : ImportM NodeId) s) := by
    refine .bind_create fun n t hn => ?_
    have htag : t.Readies (change (.setTaggedValue n generatedTag "true") t) := .change _
    refine htag.bind fun _ t₁ hrun => ?_
    refine (Readies.register (hn.trans_le (htag.ok hrun).graph.next)).bind fun _ t₂ _ => ?_
    exact (Readies.emit _).bind fun _ _ _ => .answer n
  cases mode with
  | interfaceOnly => exact made .interfaceType
  | _ => exact made .classType

lemma readies_resolve (name : String) (mode : ResolveMode) (context : String) (s : UnitState) :
    s.Readies (resolve u name mode context s) := by
  unfold resolve resolveWith
  refine (readies_contextFor name s).bind fun ⟨chain, simple, package⟩ t _ => ?_
  refine (Readies.query _).bind fun found t₁ _ => ?_
  cases found with
  | some n => exact .answer (some n)
  | none =>
    cases u.settings.unresolvedPolicy with
    | fail => exact .failure nofun
    | warn => exact (Readies.warn _ _).bind fun _ _ _ => .answer none
    | force =>
      exact (readies_forceCreate simple mode package context t₁).bind fun n _ _ => .answer (some n)

lemma readies_edgeName (source target : NodeId) (s : UnitState) :
    s.Readies (edgeName u source target s) := by
  unfold edgeName
  split_ifs
  · exact (Readies.query _).bind fun _ _ _ => (Readies.query _).bind fun _ _ _ => .answer _
  · exact .answer none

/-- On a sound graph, no dependency is without suppliers, so none loses its client. -/
lemma readies_findRealization (h : s.graph.Sound) {deps : List NodeId}
    (hd : ∀ d ∈ deps, s.graph.Once d (·.isDependency = true)) :
    s.Readies (findRealization c p deps s) := by
  induction deps with
  | nil => exact .answer none
  | cons d deps ih =>
    unfold findRealization
    refine (Readies.query _).bind fun suppliers t hsup => ?_
    refine (Readies.query _).bind fun marked t' hm => ?_
    obtain ⟨hsup, rfl⟩ := query_eq_ok.mp hsup
    obtain ⟨-, rfl⟩ := query_eq_ok.mp hm
    obtain ⟨r, hr, rfl⟩ := suppliersOf_eq_ok hsup
    obtain ⟨c', p', -, hsuppliers⟩ := (h.proper hr).dependency ((hd d (by simp)).kind (kind?_eq hr))
    split_ifs with hempty
    · simp [hsuppliers] at hempty
    · exact .answer (some d)
    · exact ih fun d hd' => hd d (by simp [hd'])

end ImportM

end DeclGraph
