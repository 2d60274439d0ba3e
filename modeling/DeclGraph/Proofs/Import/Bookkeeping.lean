import DeclGraph.Proofs.Graph.Arrivals
import DeclGraph.Proofs.Import.Registry
import DeclGraph.Proofs.Import.Steadiness
import DeclGraph.Proofs.Import.Units

/-! The account of a session: what imports make is noted in it, each element once, apart from minor
elements that come along with others. An element is noted after it was made and dropped after it was
deleted, so between the two the account is behind; `Books` says how a program catches up. -/

namespace DeclGraph

open DeclGraph.Graph

namespace StereotypeRegistry

/-- A search makes at most the stereotype that it answers. -/
lemma ends_resolve_brings (ρ : StereotypeRegistry) (name : String) (base : Option String) (g : Graph) :
    Ends (ρ.resolve name base g)
      (fun a g' => a.2.synthesized = ρ.synthesized ∧ Brings [] g g' ∨
        ∃ n, a.1 = .ok n ∧ a.2.synthesized = ρ.synthesized ++ [n] ∧ Brings [n] g g')
      fun _ => True := by
  unfold resolve
  apply Ends.bind_ok (a := g) (t := g) rfl
  have same : Brings [] g g := refl_of (Brings []) g
  cases (ρ.remembered? name base).filter g.isLive with
  | some n => exact Ends.answer (Or.inl ⟨rfl, same⟩)
  | none =>
    have hquery : Obeys (Brings []) (GraphM.query (·.stereotype? name base)) := inferInstance
    apply ((hquery.ends g).mono (fun _ _ h => h) fun _ _ => trivial).bind
    intro found g' hg'
    cases found with
    | some n => exact Ends.answer (Or.inl ⟨rfl, hg'⟩)
    | none =>
      dsimp only
      split_ifs
      · have hmake : GraphM.Makes (GraphM.create .stereotype (some name) (some root)) := inferInstance
        apply (hmake.ends g').bind
        intro n g₁ hn
        replace hn := hg'.after hn
        cases base with
        | none => exact Ends.answer (Or.inr ⟨n, rfl, rfl, hn⟩)
        | some b =>
          have hbase : Obeys (Brings []) (GraphM.addBaseClass n b) := inferInstance
          apply ((hbase.ends g₁).mono (fun _ _ h => h) fun _ _ => trivial).bind
          intro _ g₂ hg₂
          exact Ends.answer (Or.inr ⟨n, rfl, rfl, hn.trans hg₂⟩)
      · exact Ends.answer (Or.inl ⟨rfl, hg'⟩)

end StereotypeRegistry

/-- What came since `g` and is not minor is noted in the session or pending; nothing else is noted.
The stereotypes that the unit has made came since `g` as well. -/
structure UnitState.Booked (g : Graph) (pending : List NodeId) (s : UnitState) : Prop where
  ages : g.Ages s.graph
  nodup : s.session.created.Nodup
  fresh : ∀ n, n ∈ s.session.created ∨ n ∈ s.registry.synthesized ∨ n ∈ pending → g.next ≤ n
  booked : ∀ {n k}, s.graph.kind? n = some k → k.isRegistered = true → g.next ≤ n →
    n ∈ s.session.created ∨ n ∈ pending

namespace UnitState.Booked

variable {g g' : Graph} {ns pending : List NodeId} {n : NodeId} {s t : UnitState}

lemma congr (h : s.Booked g pending) (hg : t.graph = s.graph)
    (hc : t.session.created = s.session.created)
    (hr : t.registry.synthesized = s.registry.synthesized) : t.Booked g pending := by
  refine ⟨hg ▸ h.ages, hc ▸ h.nodup, ?_, ?_⟩
  · rw [hc, hr]
    exact h.fresh
  · rw [hg, hc]
    exact h.booked

/-- What an operation brings is pending. -/
lemma brings (h : s.Booked g pending) (hb : Brings ns s.graph g') :
    ({ s with graph := g' } : UnitState).Booked g (ns ++ pending) := by
  refine ⟨h.ages.trans hb.ages, h.nodup, ?_, ?_⟩
  · rintro m (hm | hm | hm)
    · exact h.fresh m (Or.inl hm)
    · exact h.fresh m (Or.inr (Or.inl hm))
    · rcases List.mem_append.mp hm with hm | hm
      · exact h.ages.next.trans (hb.new m hm)
      · exact h.fresh m (Or.inr (Or.inr hm))
  · intro m k hk hreg hm
    rcases hb.kind hk with hk | ⟨-, hin | hminor⟩
    · exact (h.booked hk hreg hm).imp_right (List.mem_append_right ns)
    · exact Or.inr (List.mem_append_left pending hin)
    · exact absurd (hreg.symm.trans hminor) nofun

/-- Another registry, which has made nothing that was there before. -/
lemma setRegistry (h : s.Booked g pending) {registry : StereotypeRegistry}
    (hr : ∀ m ∈ registry.synthesized, g.next ≤ m) :
    ({ s with registry } : UnitState).Booked g pending := by
  refine ⟨h.ages, h.nodup, ?_, h.booked⟩
  rintro m (hm | hm | hm)
  · exact h.fresh m (Or.inl hm)
  · exact hr m hm
  · exact h.fresh m (Or.inr (Or.inr hm))

/-- What came since `g` may be noted again. -/
lemma expect (h : s.Booked g pending) (hn : g.next ≤ n) : s.Booked g (n :: pending) := by
  refine ⟨h.ages, h.nodup, ?_, ?_⟩
  · rintro m (hm | hm | hm)
    · exact h.fresh m (Or.inl hm)
    · exact h.fresh m (Or.inr (Or.inl hm))
    · rcases List.mem_cons.mp hm with rfl | hm
      · exact hn
      · exact h.fresh m (Or.inr (Or.inr hm))
  · intro m k hk hreg hm
    exact (h.booked hk hreg hm).imp_right (List.mem_cons_of_mem n)

lemma mem_register {session : Session} {m : NodeId} :
    m ∈ (session.register n).created ↔ m = n ∨ m ∈ session.created := by
  unfold Session.register
  split_ifs with hn
  · exact ⟨Or.inr, fun h => h.elim (fun h => h ▸ hn) id⟩
  · simp [or_comm]

lemma nodup_register {session : Session} (h : session.created.Nodup) :
    (session.register n).created.Nodup := by
  unfold Session.register
  split_ifs with hn
  · exact h
  · apply List.nodup_append.mpr ⟨h, List.nodup_singleton n, _⟩
    rintro m hm _ hm' rfl
    exact hn (List.mem_singleton.mp hm' ▸ hm)

/-- What is noted is no longer pending. -/
lemma register (h : s.Booked g (n :: pending)) :
    ({ s with session := s.session.register n } : UnitState).Booked g pending := by
  refine ⟨h.ages, nodup_register h.nodup, ?_, ?_⟩
  · rintro m (hm | hm | hm)
    · rcases mem_register.mp hm with rfl | hm
      · exact h.fresh m (Or.inr (Or.inr (List.mem_cons_self ..)))
      · exact h.fresh m (Or.inl hm)
    · exact h.fresh m (Or.inr (Or.inl hm))
    · exact h.fresh m (Or.inr (Or.inr (List.mem_cons_of_mem n hm)))
  · intro m k hk hreg hm
    rcases h.booked hk hreg hm with hin | hin
    · exact Or.inl (mem_register.mpr (Or.inr hin))
    · rcases List.mem_cons.mp hin with rfl | hin
      · exact Or.inl (mem_register.mpr (Or.inl rfl))
      · exact Or.inr hin

/-- What is gone may be dropped. -/
lemma discard (h : s.Booked g pending) (hn : ¬s.graph.isLive n = true) :
    ({ s with session := s.session.discard n } : UnitState).Booked g pending := by
  refine ⟨h.ages, h.nodup.filter _, ?_, ?_⟩
  · rintro m (hm | hm)
    · exact h.fresh m (Or.inl (List.mem_filter.mp hm).1)
    · exact h.fresh m (Or.inr hm)
  · intro m k hk hreg hm
    have hne : m ≠ n := by
      rintro rfl
      exact hn (isLive_of_kind? hk)
    exact (h.booked hk hreg hm).imp_left fun hin =>
      List.mem_filter.mpr ⟨hin, decide_eq_true hne⟩

end UnitState.Booked

/-- A program that ends with an answer notes the pending elements `ns`, and what it makes itself. -/
class Books (g : Graph) (ns : List NodeId) {α : Type} (x : ImportM α) : Prop where
  ends : ∀ {pending s}, UnitState.Booked g (ns ++ pending) s →
    Ends (x s) (fun _ t => t.Booked g pending) fun _ => True

section books

variable {α β : Type} {g : Graph} {ns : List NodeId} {n : NodeId} {x y : ImportM α}
  {f : α → ImportM β}

instance books_pure (a : α) : Books g [] (pure a : ImportM α) := ⟨id⟩

instance books_throw (e : ImportError) : Books g ns (throw e : ImportM α) := ⟨fun _ => trivial⟩

instance books_get : Books g [] (get : ImportM UnitState) := ⟨id⟩

lemma books_modify {f : UnitState → UnitState} (hg : ∀ s, (f s).graph = s.graph)
    (hc : ∀ s, (f s).session.created = s.session.created)
    (hr : ∀ s, (f s).registry.synthesized = s.registry.synthesized) :
    Books g [] (modify f : ImportM Unit) :=
  ⟨fun {_ s} hs => hs.congr (hg s) (hc s) (hr s)⟩

lemma Books.bind (hx : Books g [] x) (hf : ∀ a, Books g ns (f a)) : Books g ns (x >>= f) :=
  ⟨fun hs => (hx.ends hs).bind fun a _ ht => (hf a).ends ht⟩

instance books_bind [hx : Books g [] x] [hf : ∀ a, Books g ns (f a)] : Books g ns (x >>= f) :=
  hx.bind hf

instance books_map {h : α → β} [hx : Books g ns x] : Books g ns (h <$> x) :=
  ⟨fun hs => Ends.map (S := fun _ => UnitState.Booked g _) (hx.ends hs)⟩

instance books_ite {p : Prop} [Decidable p] [hx : Books g ns x] [hy : Books g ns y] :
    Books g ns (if p then x else y) := by
  split_ifs
  exacts [hx, hy]

/-- What comes after a value was found or not. -/
lemma Books.found {o : ImportM (Option α)} {f : Option α → ImportM β} (ho : Books g [] o)
    (hnone : Books g ns (f none)) (hsome : ∀ a, Books g ns (f (some a))) : Books g ns (o >>= f) :=
  ho.bind fun found => found.casesOn hnone hsome

instance books_forM {xs : List α} {f : α → ImportM PUnit} [hf : ∀ a, Books g [] (f a)] :
    Books g [] (xs.forM f : ImportM PUnit) := by
  induction xs with
  | nil => exact books_pure _
  | cons a xs ih => exact (hf a).bind fun _ => ih

end books

namespace ImportM

variable {α : Type} {g : Graph} {ns : List NodeId} {n : NodeId} {u : UnitContext}

-- the instance for a program is as long as the program
set_option synthInstance.maxSize 1024

instance books_query (f : Graph → Except GraphFault α) : Books g [] (query f) := by
  constructor
  intro pending s hs
  unfold query
  cases f s.graph with
  | ok a => exact hs
  | error e => trivial

lemma ends_change {m : GraphM α} {s : UnitState} {Q : α → Graph → Prop}
    (h : Ends (m s.graph) Q fun _ => True) : Ends (change m s)
      (fun a t => Q a t.graph ∧ t = { s with graph := t.graph }) fun _ => True := by
  unfold change
  cases hr : m s.graph with
  | ok a g' =>
    rw [hr] at h
    exact ⟨h, rfl⟩
  | error e g' => trivial

instance books_change (m : GraphM α) [hm : Obeys (Brings []) m] : Books g [] (change m) := by
  constructor
  intro pending s hs
  apply (ends_change ((hm.ends s.graph).mono (fun _ _ h => h) fun _ _ => trivial)).imp
  rintro _ t ⟨hb, ht⟩
  rw [ht]
  exact hs.brings hb

/-- What comes after an element was made has to note it. -/
instance books_make {m : GraphM NodeId} {f : NodeId → ImportM α} [hm : GraphM.Makes m]
    [hf : ∀ n, Books g (n :: ns) (f n)] : Books g ns (change m >>= f) := by
  constructor
  intro pending s hs
  apply (ends_change (hm.ends s.graph)).bind
  rintro n t ⟨hb, ht⟩
  apply (hf n).ends
  rw [ht]
  exact hs.brings hb

instance books_register {f : Unit → ImportM α} [hf : Books g ns (f ())] :
    Books g (n :: ns) (register n >>= f) :=
  ⟨fun hs => Ends.bind_ok rfl (hf.ends hs.register)⟩

/-- What was deleted is dropped. -/
instance books_delete : Books g [] (do change (.delete n); discard n : ImportM Unit) := by
  constructor
  intro pending s hs
  have hdelete : Ends (GraphM.delete n s.graph)
      (fun _ g' => Brings [] s.graph g' ∧ ¬g'.isLive n = true) fun _ => True := by
    by_cases hn : s.graph.isLive n = true
    · rw [GraphM.delete_ok hn]
      refine ⟨brings_remove s.graph _, ?_⟩
      intro hlive
      exact (isLive_remove.mp hlive).2 (self_mem_doomedWith hn)
    · rw [GraphM.delete_unknown hn]
      trivial
  apply (ends_change hdelete).bind
  rintro _ t ⟨⟨hb, hgone⟩, ht⟩
  apply Ends.modified
  apply UnitState.Booked.discard _ hgone
  rw [ht]
  exact hs.brings hb

instance books_delete_bind {f : Unit → ImportM α} [hf : Books g ns (f ())] :
    Books g ns (change (.delete n) >>= fun _ => discard n >>= f) := by
  rw [← bind_assoc]
  exact books_delete.bind fun _ => hf

instance books_emit (e : Event) : Books g [] (emit e) :=
  books_modify (fun _ => rfl) (fun _ => rfl) fun _ => rfl

instance books_modifyScopes (f : ScopeStack → ScopeStack) : Books g [] (modifyScopes f) :=
  books_modify (fun _ => rfl) (fun _ => rfl) fun _ => rfl

instance books_setScopes (scopes : ScopeStack) :
    Books g [] (modify ({ · with scopes }) : ImportM Unit) :=
  books_modify (fun _ => rfl) (fun _ => rfl) fun _ => rfl

instance books_setComponent (component : Option NodeId) :
    Books g [] (modify ({ · with component }) : ImportM Unit) :=
  books_modify (fun _ => rfl) (fun _ => rfl) fun _ => rfl

instance books_warn (code message : String) : Books g [] (warn u code message) :=
  Books.bind (books_modify (fun _ => rfl) (fun _ => rfl) fun _ => rfl) fun _ => books_emit _

instance books_placed (x : Except Misplacement α) : Books g [] (placed x) := by
  cases x <;> (unfold placed; infer_instance)

/-- A stereotype that had to be made is noted at once. -/
instance books_stereotype (name : String) (base : Option String) :
    Books g [] (stereotype name base) := by
  constructor
  intro pending s hs
  have hresolve := s.registry.ends_resolve_brings name base s.graph
  rw [stereotype_run]
  cases hr : s.registry.resolve name base s.graph with
  | error e g' => trivial
  | ok a g' =>
    obtain ⟨_ | n, registry⟩ := a
    · trivial
    rw [hr] at hresolve
    rcases hresolve with ⟨hsame, hb⟩ | ⟨m, hm, hmade, hb⟩
    · have hmade : ∀ m ∈ registry.synthesized, g.next ≤ m := fun m hm =>
        hs.fresh m (Or.inr (Or.inl (hsame ▸ hm)))
      have ht := (hs.brings hb).setRegistry hmade
      dsimp only
      -- what this unit made earlier is noted again each time it is found
      split_ifs with hn
      · exact (ht.expect (hmade n hn)).register
      · exact ht
    · obtain rfl := Except.ok.inj hm
      have hn : n ∈ registry.synthesized := by
        rw [show registry.synthesized = s.registry.synthesized ++ [n] from hmade]
        simp
      have ht : ∀ m ∈ registry.synthesized, g.next ≤ m := by
        intro m hm
        rw [show registry.synthesized = s.registry.synthesized ++ [n] from hmade] at hm
        rcases List.mem_append.mp hm with hm | hm
        · exact hs.fresh m (Or.inr (Or.inl hm))
        · exact (hs.brings hb).fresh m (Or.inr (Or.inr (List.mem_append_left _ hm)))
      simp only [if_pos hn]
      exact ((hs.brings hb).setRegistry ht).register

/-! Names -/

instance books_packageBelow (n : NodeId) (segments : List String) :
    Books g [] (packageBelow n segments) := by
  induction segments generalizing n with
  | nil => exact books_pure n
  | cons segment rest ih =>
    unfold packageBelow
    exact .found (books_query _) inferInstance inferInstance

instance books_getPackage (name : String) : Books g [] (getPackage name) := by
  unfold getPackage
  infer_instance

instance books_contextFor (name : String) : Books g [] (contextFor name) := by
  unfold contextFor scopeNamespaces
  split <;> infer_instance

instance books_forceCreate (simple : String) (mode : ResolveMode) (package : Option NodeId)
    (context : String) : Books g [] (forceCreate simple mode package context) := by
  unfold forceCreate
  infer_instance

instance books_resolve (u : UnitContext) (name : String) (mode : ResolveMode)
    (context : String) : Books g [] (resolve u name mode context) := by
  unfold resolve resolveWith
  apply (books_contextFor name).bind
  rintro ⟨chain, simple, package⟩
  apply (books_query _).found
  · cases u.settings.unresolvedPolicy <;> infer_instance
  · infer_instance

/-! Classifiers -/

instance books_adoptClassifier (name : String) (home : NodeId) :
    Books g [] (adoptClassifier name home) := by
  have : Books g [] (do
      match ← query (·.classifier? root (some name)) with
      | none => return none
      | some stray =>
        if ← query (·.isPlaceholder stray) then
          change (.setNamespace stray (some home))
          return some stray
        else return none : ImportM (Option NodeId)) :=
    .found (books_query _) inferInstance inferInstance
  unfold adoptClassifier
  exact .found (books_query _) books_ite inferInstance

instance books_supersede (old : NodeId) (kind : ClassifierKind) (name : String) (home : NodeId) :
    Books g [] (supersede old kind name home) := by
  unfold supersede
  infer_instance

instance books_upsertNode (kind : ClassifierKind) (name : String) (home : NodeId) :
    Books g [] (upsertNode kind name home) := by
  unfold upsertNode
  exact .found (books_adoptClassifier name home) inferInstance inferInstance

instance books_describeClassifier (n : NodeId) (kind : ClassifierKind) (modifiers : ModifierSet) :
    Books g [] (describeClassifier n kind modifiers) := by
  cases kind <;> (unfold describeClassifier; infer_instance)

instance books_openScope (n : NodeId) : Books g [] (openScope n) := by
  unfold openScope
  infer_instance

instance books_endOfHead (n : NodeId) (doc : Option String) (enclosing : Option NodeId) :
    Books g [] (endOfHead u n doc enclosing) := by
  unfold endOfHead openHead
  apply books_get.bind
  intro s
  cases enclosing <;> cases s.component <;> infer_instance

instance books_addClassifier (u : UnitContext) (kind : ClassifierKind) (name : String)
    (modifiers : ModifierSet) (doc : Option String) :
    Books g [] (addClassifier u kind name modifiers doc) := by
  rw [addClassifier_eq]
  infer_instance

instance books_upsertGeneralization (child parent : NodeId) :
    Books g [] (upsertGeneralization child parent) := by
  unfold upsertGeneralization
  apply books_get.bind
  intro s
  cases s.graph.generalizationBetween? child parent <;> dsimp only <;> infer_instance

instance books_findRealization (client supplier : NodeId) (deps : List NodeId) :
    Books g [] (findRealization client supplier deps) := by
  induction deps with
  | nil => exact books_pure none
  | cons dep deps ih =>
    unfold findRealization
    infer_instance

instance books_edgeName (u : UnitContext) (source target : NodeId) :
    Books g [] (edgeName u source target) := by
  unfold edgeName
  infer_instance

instance books_upsertRealization (u : UnitContext) (client supplier : NodeId) :
    Books g [] (upsertRealization u client supplier) := by
  unfold upsertRealization
  apply (books_query _).bind
  intro deps
  exact .found (books_findRealization ..) inferInstance inferInstance

instance books_inheritFrom (u : UnitContext) (n : NodeId) (mode : ResolveMode) (name : String) :
    Books g [] (inheritFrom u n mode name) := by
  unfold inheritFrom
  exact .found (books_resolve ..) inferInstance inferInstance

instance books_realize (u : UnitContext) (n : NodeId) (name : String) :
    Books g [] (realize u n name) := by
  unfold realize
  exact .found (books_resolve ..) inferInstance inferInstance

instance books_addInheritance (u : UnitContext) (n : NodeId) (kind : ClassifierKind)
    (superclass : Option String) (interfaces : List String) :
    Books g [] (addInheritance u n kind superclass interfaces) := by
  unfold addInheritance
  cases kind with
  | interfaceType => infer_instance
  | enumeration => infer_instance
  | classType =>
    dsimp only
    cases superclass.filter (· ≠ "") <;> infer_instance

instance books_evict (n : NodeId) : Books g [] (evict n) := by
  unfold evict
  apply books_get.bind
  intro s
  cases s.graph.node? n <;> infer_instance

instance books_popClassifier (u : UnitContext) : Books g [] (popClassifier u) := by
  unfold popClassifier
  apply books_get.bind
  intro s
  apply (books_placed _).bind
  rintro ⟨scope, scopes⟩
  dsimp only
  cases scope.frame.classifier <;> infer_instance

/-! Members -/

instance books_requireClassifier (fault : Misplacement) : Books g [] (requireClassifier fault) := by
  unfold requireClassifier
  apply books_get.bind
  intro s
  cases s.scopes.classifier <;> infer_instance

instance books_addResult (u : UnitContext) (classifier op : NodeId) (returnType : Option String)
    (name : String) : Books g [] (addResult u classifier op returnType name) := by
  rw [addResult_eq]
  apply (books_query _).bind
  intro constructs
  cases returnType.filter fun _ => !constructs with
  | none => infer_instance
  | some type => exact .found (books_resolve ..) inferInstance inferInstance

instance books_addParameter (u : UnitContext) (op : NodeId) (p : ParameterDeclaration) :
    Books g [] (addParameter u op p) := by
  unfold addParameter
  cases withoutVarargs? p.type <;> infer_instance

instance books_upsertOperation (classifier : NodeId) (name : String) :
    Books g [] (upsertOperation classifier name) := by
  unfold upsertOperation
  exact .found (books_query _) inferInstance inferInstance

instance books_addOperation (u : UnitContext) (modifiers : ModifierSet)
    (returnType : Option String) (name : String) (parameters : List ParameterDeclaration)
    (doc : Option String) :
    Books g [] (addOperation u modifiers returnType name parameters doc) := by
  have hmembers (classifier op : NodeId) : Books g [] (do
      addResult u classifier op returnType name
      parameters.forM (addParameter u op)
      let _ ← change (.addDocumentation op doc)
      return some op : ImportM (Option NodeId)) := by
    infer_instance
  unfold addOperation
  infer_instance

instance books_upsertAttribute (classifier : NodeId) (type : Option NodeId) (name : String) :
    Books g [] (upsertAttribute classifier type name) := by
  unfold upsertAttribute
  exact .found (books_query _) inferInstance inferInstance

instance books_upsertFieldEnd (u : UnitContext) (classifier target : NodeId) (name : String) :
    Books g [] (upsertFieldEnd u classifier target name) := by
  have hend (association : NodeId) : Books g [] (do
      match ← query (·.associationEnd? target association) with
      | some n => return n
      | none => throw .inconsistent : ImportM NodeId) :=
    .found (books_query _) inferInstance inferInstance
  unfold upsertFieldEnd
  exact .found (books_query _) inferInstance inferInstance

instance books_associatedType? (u : UnitContext) (type : Option NodeId) :
    Books g [] (associatedType? u type) := by
  unfold associatedType?
  cases type.filter fun _ => u.settings.generateAssociations <;> infer_instance

instance books_addPlainField (modifiers : ModifierSet) (classifier : NodeId)
    (type : Option NodeId) (multiplicity name : String) (initializer doc : Option String) :
    Books g [] (addPlainField modifiers classifier type multiplicity name initializer doc) := by
  unfold addPlainField
  cases initializer <;> dsimp only <;> infer_instance

instance books_addAssociatedField (u : UnitContext) (modifiers : ModifierSet)
    (classifier type : NodeId) (multiplicity name : String) (doc : Option String) :
    Books g [] (addAssociatedField u modifiers classifier type multiplicity name doc) := by
  unfold addAssociatedField
  dsimp only
  infer_instance

instance books_addAttribute (u : UnitContext) (modifiers : ModifierSet) (type : Option String)
    (name : String) (initializer doc : Option String) :
    Books g [] (addAttribute u modifiers type name initializer doc) := by
  have hfield (classifier : NodeId) (target : Option NodeId) (multiplicity : String) :
      Books g [] (do
        match ← associatedType? u target with
        | none =>
          some <$> addPlainField modifiers classifier target multiplicity name initializer doc
        | some n => some <$> addAssociatedField u modifiers classifier n multiplicity name doc :
        ImportM (Option NodeId)) :=
    .found (books_associatedType? ..) inferInstance inferInstance
  unfold addAttribute
  cases type <;> simp only [pure_bind] <;> infer_instance

instance books_addEnumerationLiteral (u : UnitContext) (name : String) :
    Books g [] (addEnumerationLiteral u name) := by
  unfold addEnumerationLiteral isEnumeration
  infer_instance

/-! Units -/

instance books_buildImport (u : UnitContext) (target : NodeId) :
    Books g [] (buildImport u target) := by
  unfold buildImport
  apply books_get.bind
  intro s
  cases s.component with
  | none => infer_instance
  | some component =>
    apply (books_query _).bind
    intro deps
    exact .found (books_query _) inferInstance inferInstance

instance books_addImport (u : UnitContext) (name : String) : Books g [] (addImport u name) := by
  have hfound (found : Option NodeId) : Books g [] (match found with
      | none => return none
      | some n => do
        modifyScopes (·.addImportedClassifier n)
        some <$> buildImport u n : ImportM (Option NodeId)) := by
    cases found <;> infer_instance
  unfold addImport
  infer_instance

instance books_upsertComponent (n : NodeId) (name : String) :
    Books g [] (upsertComponent n name) := by
  unfold upsertComponent
  exact .found (books_query _) inferInstance inferInstance

instance books_addComponent (u : UnitContext) : Books g [] (addComponent u) := by
  unfold addComponent
  infer_instance

instance books_settleComponent (component package : NodeId) :
    Books g [] (settleComponent component package) := by
  have hsettle (name : Option String) (existing : Option NodeId) : Books g [] (do
      match existing.filter (· ≠ component) with
      | some c =>
        change (.delete component)
        discard component
        emit (.componentReused (name.getD ""))
        return c
      | none =>
        change (.setNamespace component (some package))
        return component : ImportM NodeId) := by
    cases existing.filter (· ≠ component) <;> infer_instance
  unfold settleComponent
  exact .found (books_query _) inferInstance fun name => books_bind

instance books_moveTo (name : String) : Books g [] (moveTo name) := by
  have hsettle (package : NodeId) : Books g [] (settle package) := by
    unfold settle
    apply books_get.bind
    intro s
    cases s.component <;> infer_instance
  unfold moveTo moveToPackage
  infer_instance

instance books_enterPackage (u : UnitContext) (name : String) : Books g [] (enterPackage u name) := by
  rw [enterPackage_eq]
  cases QualifiedName.segments name <;> cases u.settings.srcPath <;> infer_instance

instance books_openUnit (u : UnitContext) (unit : CompilationUnit) : Books g [] (openUnit u unit) := by
  unfold openUnit
  cases unit.package <;> infer_instance

instance books_simpleName (h : Head) (file : Option String) : Books g [] (h.simpleName file) := by
  unfold Head.simpleName
  split <;> infer_instance

instance books_enterClassifier (u : UnitContext) (file : Option String) (c : Classifier) :
    Books g [] (enterClassifier u file c) := by
  unfold enterClassifier
  infer_instance

lemma books_importMembers (u : UnitContext) (file : Option String) {members : List Member}
    (h : ∀ c, Member.classifier c ∈ members → Books g [] (importClassifier u file c)) :
    Books g [] (importMembers u file members) := by
  induction members with
  | nil => exact books_pure ()
  | cons m rest ih =>
    have hm : Books g [] (importMember u file m) := by
      cases m with
      | attr a =>
        unfold importMember importAttribute
        infer_instance
      | operation o =>
        unfold importMember importOperation
        infer_instance
      | classifier c => exact h c (by simp)
    unfold importMembers
    exact hm.bind fun _ => ih fun c hc => h c (by simp [hc])

instance books_importClassifier (u : UnitContext) (file : Option String) (c : Classifier) :
    Books g [] (importClassifier u file c) := by
  induction c using Classifier.nested_induction with
  | step c ih =>
    have hbody : Books g [] (importBody u file c) := by
      cases c with
      | typed head heritage members => exact books_importMembers u file ih
      | enumeration head interfaces literals =>
        unfold importBody
        infer_instance
    rw [importClassifier_eq]
    infer_instance

theorem books_importUnit (u : UnitContext) (unit : CompilationUnit) :
    Books g [] (importUnit u unit) := by
  have hfinish : Books g [] (finish u) := by
    unfold finish
    infer_instance
  rw [importUnit_eq]
  infer_instance

end ImportM

/-- The session accounts for the way from `g` to `g'`: it has noted what is new, apart from minor
elements, each element once and none that was there before. -/
structure Session.Accounts (session : Session) (g g' : Graph) : Prop where
  nodup : session.created.Nodup
  new : ∀ n ∈ session.created, g.isLive n = false
  complete : ∀ {n k}, g'.kind? n = some k → k.isRegistered = true → g.isLive n = false →
    n ∈ session.created

/-- What is shared by the units of a run is booked as it is in a unit, where nothing is pending and
no stereotype was made yet. -/
def Store.Booked (g : Graph) (store : Store) : Prop :=
  ∀ u : UnitContext, (UnitState.start u store).Booked g []

namespace Store.Booked

variable {g : Graph} {store : Store} {s : UnitState}

lemma of_unit (h : s.Booked g []) : s.toStore.Booked g := by
  intro u
  refine ⟨h.ages, h.nodup, ?_, h.booked⟩
  rintro n (hn | hn | hn)
  · exact h.fresh n (Or.inl hn)
  · cases hn
  · cases hn

lemma start (session : Session) (hs : session.created = []) (log : List Event) :
    ({ graph := g, session, log } : Store).Booked g := by
  intro u
  have hcreated : (UnitState.start u { graph := g, session, log }).session.created = [] := hs
  refine ⟨.refl g, hcreated ▸ List.nodup_nil, ?_, ?_⟩
  · rintro n (hn | hn | hn)
    · rw [hcreated] at hn
      cases hn
    · cases hn
    · cases hn
  · intro n k hk _ hn
    exact absurd (lt_next (isLive_of_kind? hk)) (not_lt.mpr hn)

lemma accounts (h : store.Booked g) : store.session.Accounts g store.graph := by
  have h := h ⟨"", .skeleton, {}⟩
  refine ⟨h.nodup, ?_, ?_⟩
  · intro n hn
    apply Bool.eq_false_iff.mpr
    intro hlive
    exact absurd (lt_next hlive) (not_lt.mpr (h.fresh n (Or.inl hn)))
  · intro n k hk hreg hnew
    have hn : g.next ≤ n := by
      by_contra hlt
      have hlive := h.ages.live n (not_le.mp hlt) (isLive_of_kind? hk)
      rw [hnew] at hlive
      cases hlive
    exact (h.booked hk hreg hn).resolve_right List.not_mem_nil

end Store.Booked

namespace StoreM

variable {g : Graph} {store : Store}

lemma booked_runPass (h : store.Booked g) (name : String) (settings : Settings)
    (unit : CompilationUnit) (p : Pass) :
    Ends (runPass name settings unit p store) (fun _ => Store.Booked g) fun _ => True := by
  have hunit := (ImportM.books_importUnit ⟨name, p, settings⟩ unit).ends (h ⟨name, p, settings⟩)
  unfold runPass
  cases hr : ImportM.importUnit ⟨name, p, settings⟩ unit (.start ⟨name, p, settings⟩ store) with
  | ok a t =>
    rw [hr] at hunit
    simp only [hr]
    exact Store.Booked.of_unit hunit
  | error e t =>
    simp only [hr]
    trivial

lemma booked_importSource (h : store.Booked g) (source name : String) (settings : Settings)
    (passes : List Pass) :
    Ends (importSource source name settings passes store) (fun _ => Store.Booked g)
      fun _ => True := by
  unfold importSource
  cases parseSource source (some name) with
  | error e => trivial
  | ok unit =>
    induction passes generalizing store with
    | nil => exact h
    | cons p passes ih => exact (booked_runPass h name settings unit p).bind fun _ _ ht => ih ht

end StoreM

/-- What an import of a source text is called with, the graph and the session apart. -/
structure TextImport where
  source : String
  name : String
  settings : Settings := {}
  passes : List Pass := Pass.all

def TextImport.run (c : TextImport) : StoreM Unit :=
  StoreM.importSource c.source c.name c.settings c.passes

/-- The session of imports of source texts in a row, all of which succeed, accounts for what they
make of the graph that they start from. -/
theorem session_accounts {g : Graph} {session : Session} {log : List Event}
    {imports : List TextImport} {store : Store} (hs : session.created = [])
    (h : (imports.forM TextImport.run : StoreM PUnit) { graph := g, session, log } = .ok () store) :
    store.session.Accounts g store.graph := by
  have hrun (imports : List TextImport) : ∀ {store : Store}, store.Booked g →
      Ends ((imports.forM TextImport.run : StoreM PUnit) store) (fun _ => Store.Booked g)
        fun _ => True := by
    induction imports with
    | nil => exact id
    | cons c imports ih =>
      intro store hstore
      exact (StoreM.booked_importSource hstore ..).bind fun _ _ ht => ih ht
  exact ((hrun imports (Store.Booked.start session hs log)).ok h).accounts

/-- A class with a field of a type that is made for it, and then a declaration of this type. -/
def forcedImports : List TextImport :=
  [{ source := "class A { X x; }", name := "a", settings := { unresolvedPolicy := .force } },
    { source := "interface X { }", name := "x" }]

theorem session_accounts_forcedImports :
    ∃ store, (forcedImports.forM TextImport.run : StoreM PUnit)
        { graph := .new "m" ⟨"p", [], []⟩ } = .ok () store ∧
      store.session.Accounts (.new "m" ⟨"p", [], []⟩) store.graph :=
  have h := eq_ok_of_succeeds (r := (forcedImports.forM TextImport.run : StoreM PUnit)
    { graph := .new "m" ⟨"p", [], []⟩ }) (by decide +kernel)
  ⟨_, h, session_accounts rfl h⟩

end DeclGraph
