import DeclGraph.Proofs.Import.Spelling
import DeclGraph.Proofs.Import.Traces

/-! Types where they stand. What is looked up for the type of a field, of a result or of a parameter
is its name alone in some of its forms only; in these, and in no others, a type whose name means an
element gets that element. -/

namespace DeclGraph

open DeclGraph.Graph

/-- No package and no classifier is new. -/
structure Graph.Frugal (g g' : Graph) : Prop where
  made : ∀ {n k}, g'.kind? n = some k → (k.isPackage || k.isClassifier) = true →
    g.kind? n = some k

/-- No name is reported to be unresolved, and no package and no classifier is new. -/
structure UnitState.Quiet (s t : UnitState) : Prop where
  graph : s.graph.Frugal t.graph
  reported : ∀ d ∈ t.session.diagnostics, d.code = some "unresolved" → d ∈ s.session.diagnostics

instance : IsPreorder Graph Graph.Frugal where
  refl _ := ⟨fun h _ => h⟩
  trans _ _ _ h h' := ⟨fun hn hk => h.made (h'.made hn hk) hk⟩

instance : IsPreorder UnitState UnitState.Quiet where
  refl s := ⟨refl_of Graph.Frugal s.graph, fun _ hd _ => hd⟩
  trans _ _ _ h h' := ⟨trans_of Graph.Frugal h.graph h'.graph,
    fun d hd hcode => h.reported d (h'.reported d hd hcode) hcode⟩

namespace GraphM

variable {g g' : Graph} {n : NodeId} {r : Node} {f : Node → Node} {name : Option String}
  {type : Option NodeId}

lemma eq_next_of_created {kind : NodeKind} {home : Option NodeId}
    (h : create kind name home g = .ok n g') : n = g.next := by
  unfold create at h
  obtain ⟨m, g₁, hadd, h⟩ := bind_eq_ok.mp h
  obtain rfl : m = g.next := by
    cases hadd
    rfl
  split_ifs at h
  · obtain ⟨_, g₂, -, h⟩ := bind_eq_ok.mp h
    cases h
    rfl
  · cases h
    rfl

lemma frugal_modify (hf : ∀ r, (f r).kind = r.kind) :
    Obeys Frugal (modify (·.modify n f) : GraphM Unit) :=
  obeys_modify fun _ => ⟨fun {m _} hk _ => (kind?_modify hf m).symm.trans hk⟩

lemma frugal_update (hf : ∀ r, (f r).kind = r.kind) : Obeys Frugal (update n f) := by
  have := frugal_modify (n := n) hf
  unfold update get
  infer_instance

lemma frugal_create {kind : NodeKind} (hk : (kind.isPackage || kind.isClassifier) = false)
    (home : Option NodeId) : Obeys Frugal (create kind name home) := by
  refine ⟨fun g => ⟨fun {n k} hn hspace => ?_⟩⟩
  obtain ⟨x, hx, rfl⟩ := kind?_eq_some.mp hn
  rw [(added_create g kind name home).node] at hx
  obtain ⟨y, hy, rfl⟩ := Option.map_eq_some_iff.mp hx
  have hkind : ∀ part slot, (if home = some n then y.attach slot part else y).kind = y.kind := by
    intro part slot
    split_ifs
    · exact (Node.bare_congr (Node.bare_attach y slot part)).1
    · rfl
  rw [hkind] at hspace ⊢
  split_ifs at hy with hnew
  · cases hy
    exact absurd (hk.symm.trans hspace) (by decide)
  · exact kind?_eq hy

lemma frugal_setType (type : Option NodeId) : Obeys Frugal (setType n type) := by
  have := frugal_update (n := n) (f := ({ · with type })) fun _ => rfl
  unfold setType get
  cases type <;> dsimp only <;> infer_instance

lemma frugal_buildAttribute : Obeys Frugal (buildAttribute n type name) := by
  unfold buildAttribute
  exact .bind (frugal_create (by decide) _) fun m => .bind (frugal_setType type) fun _ =>
    obeys_pure m

lemma frugal_buildParameter (direction : Direction) :
    Obeys Frugal (buildParameter n type name direction) := by
  unfold buildParameter
  exact .bind (frugal_create (by decide) _) fun m => .bind (frugal_setType type) fun _ =>
    .bind (frugal_update fun _ => rfl) fun _ => obeys_pure m

lemma frugal_addDocumentation (doc : Option String) : Obeys Frugal (addDocumentation n doc) := by
  have hwrite (tag value : String) : Obeys Frugal (setTaggedValue n tag value) := by
    have (tv : NodeId) :
        Obeys Frugal (modify (·.modify tv ({ · with value := some value })) : GraphM Unit) :=
      frugal_modify fun _ => rfl
    have : Obeys Frugal (create .taggedValue (some tag) (some n)) :=
      frugal_create (by decide) (some n)
    unfold setTaggedValue
    exact .found inferInstance inferInstance inferInstance
  unfold addDocumentation
  cases doc.bind DocComment.clean <;> dsimp only <;> infer_instance

end GraphM

/-- A name means an element in the scopes of a unit, without anything that is made for it. -/
def UnitState.Means (u : UnitContext) (s : UnitState) (name : String) (n : NodeId) : Prop :=
  ∃ context, ImportM.resolveWith u .fail name .any context s = .ok (some n) s

namespace ImportM

variable {α : Type} {s t : UnitState} {u : UnitContext} {n m c op : NodeId} {a : Traits}
  {faces : List ParameterFace} {name simple context : String} {mode : ResolveMode}
  {policy : UnresolvedPolicy} {scope : Scope} {rest : List Scope} {r : TypeRef}

lemma quiet_change {x : GraphM α} (hx : Obeys Frugal x) : Obeys UnitState.Quiet (change x) :=
  obeys_change hx fun _ _ hg => ⟨hg, fun _ hd _ => hd⟩

lemma quiet_query (f : Graph → Except GraphFault α) : Obeys UnitState.Quiet (query f) := by
  refine ⟨fun s => ?_⟩
  unfold query
  cases f s.graph <;> exact refl_of UnitState.Quiet s

lemma quiet_modify {f : UnitState → UnitState} (hg : ∀ s, (f s).graph = s.graph)
    (hd : ∀ s, (f s).session.diagnostics = s.session.diagnostics) :
    Obeys UnitState.Quiet (modify f : ImportM Unit) :=
  obeys_modify fun s => ⟨(hg s).symm ▸ refl_of Frugal s.graph, fun _ h _ => hd s ▸ h⟩

lemma quiet_register (n : NodeId) : Obeys UnitState.Quiet (register n) :=
  quiet_modify (fun _ => rfl) fun s => s.session.diagnostics_register n

lemma quiet_warn {code message : String} (h : code ≠ "unresolved") :
    Obeys UnitState.Quiet (warn u code message) := by
  refine .bind (obeys_modify fun s => ⟨refl_of Frugal s.graph, fun d hd hcode => ?_⟩) fun _ =>
    quiet_modify (fun _ => rfl) fun _ => rfl
  rcases List.mem_append.mp hd with hd | hd
  · exact hd
  · rw [List.mem_singleton.mp hd] at hcode
    exact absurd (Option.some.inj hcode) h

lemma quiet_addPlainField (modifiers : ModifierSet) (c : NodeId) (type : Option NodeId)
    (multiplicity name : String) (initializer doc : Option String) : Obeys UnitState.Quiet
      (addPlainField modifiers c type multiplicity name initializer doc) := by
  have hupsert : Obeys UnitState.Quiet (upsertAttribute c type name) := by
    unfold upsertAttribute
    refine .found (quiet_query _) ?_ fun n => obeys_pure n
    exact .bind (quiet_change GraphM.frugal_buildAttribute) fun n => .bind (quiet_register n)
      fun _ => .bind (quiet_modify (fun _ => rfl) fun _ => rfl) fun _ => obeys_pure n
  have hupdate (n : NodeId) {f : Node → Node} (hf : ∀ r, (f r).kind = r.kind) :
      Obeys UnitState.Quiet (change (.update n f)) := quiet_change (GraphM.frugal_update hf)
  have hdoc (n : NodeId) : Obeys UnitState.Quiet (do
      let _ ← change (.addDocumentation n doc)
      return n : ImportM NodeId) :=
    .bind (quiet_change (GraphM.frugal_addDocumentation doc)) fun _ => obeys_pure n
  unfold addPlainField
  refine .bind hupsert fun n => .bind (quiet_modify (fun _ => rfl) fun _ => rfl) fun _ => ?_
  refine .bind (hupdate n fun _ => rfl) fun _ => .bind (hupdate n fun _ => rfl) fun _ => ?_
  refine .bind (quiet_change (GraphM.frugal_setType type)) fun _ => ?_
  refine .bind (hupdate n fun _ => rfl) fun _ => ?_
  cases initializer with
  | none => exact hdoc n
  | some text => exact .bind (hupdate n fun _ => rfl) fun _ => hdoc n

/-! Names -/

variable {place : ContextChain × String × Option NodeId} {qualifier : String} {s' : UnitState}

lemma scopeNamespaces_eq_ok {namespaces : List NodeId} :
    scopeNamespaces s = .ok namespaces t ↔
      s.graph.scopeNamespaces s.scopes = .ok namespaces ∧ t = s := by
  unfold scopeNamespaces
  rw [bind_run (show (get : ImportM UnitState) s = .ok s s from rfl)]
  exact query_eq_ok

lemma contextFor_unqualified_eq_ok (hname : QualifiedName.split name = ("", simple)) :
    contextFor name s = .ok place t ↔
      ∃ namespaces, s.graph.scopeNamespaces s.scopes = .ok namespaces ∧ t = s ∧
        place = ({ namespaces := namespaces ++ s.scopes.importedPackages ++ [profilePackage]
                   classifiers := s.scopes.importedClassifiers }, simple, none) := by
  rw [contextFor_unqualified hname, bind_eq_ok]
  constructor
  · rintro ⟨namespaces, s₁, hspaces, hrest⟩
    obtain ⟨hspaces, rfl⟩ := scopeNamespaces_eq_ok.mp hspaces
    obtain ⟨_, _, hget, hreturn⟩ := bind_eq_ok.mp hrest
    cases hget
    cases hreturn
    exact ⟨namespaces, hspaces, rfl, rfl⟩
  · rintro ⟨namespaces, hspaces, rfl, rfl⟩
    exact ⟨namespaces, t, scopeNamespaces_eq_ok.mpr ⟨hspaces, rfl⟩, rfl⟩

lemma contextFor_qualified_eq_ok (hname : QualifiedName.split name = (qualifier, simple))
    (hq : qualifier ≠ "") : contextFor name s = .ok place t ↔
      ∃ p, getPackage qualifier s = .ok p t ∧ place = ({ namespaces := [p] }, simple, some p) := by
  rw [contextFor_qualified hname hq, bind_eq_ok]
  constructor
  · rintro ⟨p, s₁, hpackage, hreturn⟩
    cases hreturn
    exact ⟨p, hpackage, rfl⟩
  · rintro ⟨p, hpackage, rfl⟩
    exact ⟨p, t, hpackage, rfl⟩

lemma simple_of_contextFor (h : contextFor name s = .ok place t) :
    place.2.1 = (QualifiedName.split name).2 := by
  rcases hsplit : QualifiedName.split name with ⟨qualifier, simple⟩
  by_cases hq : qualifier = ""
  · obtain ⟨_, -, -, rfl⟩ := (contextFor_unqualified_eq_ok (hq ▸ hsplit)).mp h
    rfl
  · obtain ⟨_, -, rfl⟩ := (contextFor_qualified_eq_ok hsplit hq).mp h
    rfl

lemma named_of_forceCreate {package : Option NodeId}
    (h : forceCreate simple mode package context s = .ok n t) :
    ∃ x, t.graph.node? n = some x ∧ x.name = some simple := by
  have hrest {kind : NodeKind} (n : NodeId) : Obeys (UnitState.Relates KeepsFaces) (do
      let _ ← change (.setTaggedValue n generatedTag "true")
      register n
      emit (.classifierForced kind.label simple context)
      return n : ImportM NodeId) := inferInstance
  unfold forceCreate at h
  obtain ⟨m, s₁, hcreate, h⟩ := bind_eq_ok.mp h
  have hkeeps : s₁.graph.KeepsFaces t.graph := (hrest m).ok h
  obtain rfl : m = n := by
    obtain ⟨_, _, -, h⟩ := bind_eq_ok.mp h
    cases h
    rfl
  obtain ⟨g, hg, rfl⟩ := change_eq_ok hcreate
  obtain rfl := GraphM.eq_next_of_created hg
  obtain ⟨x, hx, hname⟩ : ∃ x, g.node? s.graph.next = some x ∧ x.name = some simple := by
    refine ⟨_, by rw [(GraphM.added_of_created hg).node, if_pos rfl]; rfl, ?_⟩
    rw [apply_ite Node.name, (Node.bare_congr (Node.bare_attach _ _ _)).2.1, ite_self]
  obtain ⟨y, hy, hface⟩ := hkeeps.node hx
  exact ⟨y, hy, hface.name.trans hname⟩

/-- Nothing is made for names without a qualifier that are found. -/
lemma means_of_resolveWith (hname : ∃ simple, QualifiedName.split name = ("", simple))
    (h : resolveWith u .fail name .any context s = .ok (some n) t) : s.Means u name n := by
  refine ⟨context, ?_⟩
  obtain ⟨simple, hsplit⟩ := hname
  obtain rfl : t = s := by
    unfold resolveWith at h
    obtain ⟨c, s₁, hcontext, h⟩ := bind_eq_ok.mp h
    obtain ⟨-, -, hsame, -⟩ := (contextFor_unqualified_eq_ok hsplit).mp hcontext
    obtain ⟨found, s₂, hlookup, h⟩ := bind_eq_ok.mp h
    obtain ⟨-, rfl⟩ := query_eq_ok.mp hlookup
    cases found <;> cases h
    exact hsame
  exact h

/-- An element that a name is resolved to is called by the simple part of it. -/
lemma named_of_resolveWith (h : resolveWith u policy name mode context s = .ok (some n) t) :
    ∃ x, t.graph.node? n = some x ∧ x.name = some (QualifiedName.split name).2 := by
  unfold resolveWith at h
  obtain ⟨c, s₁, hcontext, h⟩ := bind_eq_ok.mp h
  rw [← simple_of_contextFor hcontext]
  obtain ⟨found, s₂, hlookup, h⟩ := bind_eq_ok.mp h
  obtain ⟨hlookup, rfl⟩ := query_eq_ok.mp hlookup
  cases found with
  | some m =>
    cases h
    obtain ⟨x, hx, hname, -⟩ := lookup_eq_ok hlookup
    exact ⟨x, hx, hname⟩
  | none =>
    cases policy with
    | fail => cases h
    | warn =>
      obtain ⟨_, s₃, -, h⟩ := bind_eq_ok.mp h
      cases h
    | force =>
      obtain ⟨m, s₃, hforce, h⟩ := bind_eq_ok.mp h
      cases h
      exact named_of_forceCreate hforce

/-- Where a name is looked for is up to the graph and the scopes. -/
lemma contextFor_same (hs : s.graph.OwnsLive) (h : contextFor name s = .ok place s)
    (hg : s'.graph = s.graph) (hscopes : s'.scopes = s.scopes) :
    contextFor name s' = .ok place s' := by
  rcases hsplit : QualifiedName.split name with ⟨qualifier, simple⟩
  by_cases hq : qualifier = ""
  · rw [hq] at hsplit
    obtain ⟨namespaces, hspaces, -, rfl⟩ := (contextFor_unqualified_eq_ok hsplit).mp h
    refine (contextFor_unqualified_eq_ok hsplit).mpr ⟨namespaces, ?_, rfl, by rw [hscopes]⟩
    rw [hg, hscopes, hspaces]
  · obtain ⟨p, hpackage, rfl⟩ := (contextFor_qualified_eq_ok hsplit hq).mp h
    -- The packages of the qualifier were there, as the state has not changed by looking for them.
    have hfound : s'.graph.packageFrom? root (QualifiedName.segments qualifier) = .ok (some p) :=
      hg ▸ packageFrom?_of_packageBelow hs hpackage
    exact (contextFor_qualified_eq_ok hsplit hq).mpr ⟨p, packageBelow_found hfound, rfl⟩

/-- A name that means an element means it under all policies. -/
lemma resolveWith_same (hs : s.graph.OwnsLive)
    (h : resolveWith u .fail name mode context s = .ok (some n) s) (hg : s'.graph = s.graph)
    (hscopes : s'.scopes = s.scopes) (policy : UnresolvedPolicy) (context' : String) :
    resolveWith u policy name mode context' s' = .ok (some n) s' := by
  unfold resolveWith at h
  obtain ⟨⟨chain, simple, package⟩, s₁, hcontext, h⟩ := bind_eq_ok.mp h
  obtain ⟨found, s₂, hlookup, h⟩ := bind_eq_ok.mp h
  obtain ⟨hlookup, rfl⟩ := query_eq_ok.mp hlookup
  cases found with
  | none => cases h
  | some m =>
    cases h
    have hcontext' := contextFor_same hs hcontext hg hscopes
    have hlookup' : query (·.lookup chain simple mode) s' = .ok (some n) s' :=
      query_ok (hg ▸ hlookup)
    exact (bind_run hcontext').trans (bind_run hlookup')

/-! Runs that come to an end -/

variable {k : NodeKind} {f : Node → Node} {type : Option NodeId}

lemma update_ends (u : UnitContext) (hs : s.Sound) (hn : s.graph.kind? n = some k)
    (hf : ∀ r, (f r).essence = r.essence) (hk : ∀ r, (f r).kind = r.kind) :
    ∃ t, change (.update n f) s = .ok () t ∧ t.Sound ∧ ∀ m, t.graph.kind? m = s.graph.kind? m := by
  have hrun := change_ok (GraphM.update_ok f (isLive_of_kind? hn))
  exact ⟨_, hrun, sound_update u hs hn hrun hf, kind?_modify hk⟩

lemma setType_ends (u : UnitContext) (hs : s.Sound) (hn : s.graph.kind? n = some .attr)
    (htype : ∀ y, type = some y → ∃ k, s.graph.kind? y = some k ∧ k.isClassifier = true) :
    ∃ t, change (.setType n type) s = .ok () t ∧ t.Sound ∧
      ∀ m, t.graph.kind? m = s.graph.kind? m := by
  have hlive : ∀ y, type = some y → s.graph.isLive y = true := by
    intro y hy
    obtain ⟨k, hk, -⟩ := htype y hy
    exact isLive_of_kind? hk
  have hrun := change_ok (GraphM.setType_ok (isLive_of_kind? hn) hlive)
  have honce : ∀ y, type = some y → s.graph.Once y (·.isClassifier = true) := by
    intro y hy
    obtain ⟨k, hk, hc⟩ := htype y hy
    exact once hk hc
  have hperforms : Performs (.within u [] [.attr]) s (change (.setType n type) s) fun _ t =>
      s.SameUnit t := by
    refine performs_setType hs.graph (once hn (by decide)) honce fun hr hk => ?_
    rw [kind?_eq hr, hk] at hn
    cases hn
  obtain ⟨hsteps, hu⟩ := hperforms.ok hrun
  exact ⟨_, hrun, hs.steps hsteps hu, kind?_modify fun _ => rfl⟩

lemma addDocumentation_ends (hs : s.Sound) (hn : s.graph.kind? n = some k)
    (doc : Option String) : ∃ d t, change (.addDocumentation n doc) s = .ok d t := by
  obtain ⟨r, hr, -⟩ := kind?_eq_some.mp hn
  obtain ⟨d, g, hrun⟩ : ∃ d g, GraphM.addDocumentation n doc s.graph = .ok d g := by
    unfold GraphM.addDocumentation
    cases doc.bind DocComment.clean with
    | none => exact ⟨none, s.graph, rfl⟩
    | some text =>
      obtain ⟨tv, -, hrun⟩ | ⟨-, g, hrun, -⟩ :=
        GraphM.setTaggedValue_ok hs.graph.toLinked hr documentationTag text
      exacts [⟨_, _, bind_run hrun⟩, ⟨_, _, bind_run hrun⟩]
  exact ⟨d, _, change_ok hrun⟩

lemma upsertAttribute_ends (hc : s.graph.isLive c = true)
    (htype : ∀ y, type = some y → s.graph.isLive y = true) (name : String) :
    ∃ n t, upsertAttribute c type name s = .ok n t ∧
      ∀ {m k}, s.graph.kind? m = some k → t.graph.kind? m = some k := by
  obtain ⟨rc, hrc⟩ := isLive_iff.mp hc
  have hfeature : s.graph.feature? c name .attr =
      .ok (s.graph.findIn rc.features fun x => x.kind = .attr && x.name = some name) := by
    unfold feature? featuresOf
    rw [get_of_node? hrc]
    rfl
  unfold upsertAttribute
  rw [bind_run (query_ok hfeature)]
  cases s.graph.findIn rc.features fun x => x.kind = .attr && x.name = some name with
  | some n => exact ⟨n, s, rfl, id⟩
  | none =>
    obtain ⟨g, hbuild, hb⟩ := GraphM.buildAttribute_ok (some name) hc htype
    exact ⟨_, _, bind_run (change_ok hbuild),
      fun hk => (hb.kind?_old (isLive_of_kind? hk)).trans hk⟩

/-- The end of the declaration of a field: its initial value and its documentation. -/
def finishField (n : NodeId) (initializer doc : Option String) : ImportM NodeId := do
  if let some text := initializer then
    change (.setInitialValue n (some (onOneLine text)))
  let _ ← change (.addDocumentation n doc)
  return n

lemma finishField_ends (u : UnitContext) (hs : s.Sound) (hn : s.graph.kind? n = some k)
    (initializer doc : Option String) : ∃ t, finishField n initializer doc s = .ok n t := by
  cases initializer with
  | none =>
    obtain ⟨d, t, hdoc⟩ := addDocumentation_ends hs hn doc
    exact ⟨t, bind_run hdoc⟩
  | some text =>
    obtain ⟨s₁, h₁, hs₁, hk₁⟩ := update_ends u hs hn
      (f := ({ · with initialValue := some (onOneLine text) })) (fun _ => rfl) fun _ => rfl
    obtain ⟨d, t, hdoc⟩ := addDocumentation_ends hs₁ ((hk₁ n).trans hn) doc
    exact ⟨t, (bind_run h₁).trans (bind_run hdoc)⟩

/-- A field of a type that is there becomes an attribute. -/
lemma addPlainField_ends (u : UnitContext) (h : s.Nested) (ho : s.scopes.opened = scope :: rest)
    (htype : ∀ y, type = some y → ∃ k, s.graph.kind? y = some k ∧ k.isClassifier = true)
    (modifiers : ModifierSet) (multiplicity name : String) (initializer doc : Option String) :
    ∃ n t, addPlainField modifiers scope.frame.home type multiplicity name initializer doc s =
      .ok n t := by
  obtain ⟨kc, hkc, -⟩ := h.isClassifier (show scope ∈ s.scopes.opened by simp [ho])
  have hlive : ∀ y, type = some y → s.graph.isLive y = true := by
    intro y hy
    obtain ⟨k, hk, -⟩ := htype y hy
    exact isLive_of_kind? hk
  obtain ⟨n, s₁, hupsert, hold⟩ := upsertAttribute_ends (isLive_of_kind? hkc) hlive name
  obtain ⟨hsteps, hn₁, hd⟩ := (performs_upsertAttribute (u := u) h ho htype name).ok hupsert
  let s₂ : UnitState := { s₁ with scopes := s₁.scopes.touch n }
  have hs₂ : s₂.Sound := (h.toSound.steps hsteps hd.unit).touch n
  have hn₂ : s₂.graph.kind? n = some .attr := hn₁
  obtain ⟨s₃, h₃, hs₃, hk₃⟩ := update_ends u hs₂ hn₂
    (f := ({ · with visibility := some modifiers.visibility })) (fun _ => rfl) fun _ => rfl
  have hn₃ := (hk₃ n).trans hn₂
  obtain ⟨s₄, h₄, hs₄, hk₄⟩ := update_ends u hs₃ hn₃
    (f := ({ · with multiplicity := some multiplicity })) (fun _ => rfl) fun _ => rfl
  have hn₄ := (hk₄ n).trans hn₃
  obtain ⟨s₅, h₅, hs₅, hk₅⟩ := setType_ends u hs₄ hn₄ fun y hy => by
    obtain ⟨k, hk, hc⟩ := htype y hy
    exact ⟨k, (hk₄ y).trans ((hk₃ y).trans (hold hk)), hc⟩
  have hn₅ := (hk₅ n).trans hn₄
  obtain ⟨s₆, h₆, hs₆, hk₆⟩ := update_ends u hs₅ hn₅
    (f := ({ · with isReadOnly := modifiers.isReadOnly })) (fun _ => rfl) fun _ => rfl
  have hn₆ := (hk₆ n).trans hn₅
  obtain ⟨t, hend⟩ := finishField_ends u hs₆ hn₆ initializer doc
  have htouch : modifyScopes (·.touch n) s₁ = .ok () s₂ := rfl
  refine ⟨n, t, (bind_run hupsert).trans ((bind_run htouch).trans ?_)⟩
  refine (bind_run h₃).trans ((bind_run h₄).trans ((bind_run h₅).trans ((bind_run h₆).trans ?_)))
  cases initializer <;> exact hend

/-! Names that mean something -/

lemma ownsLive (h : s.Sound) : s.graph.OwnsLive := fun hr _ hc =>
  h.graph.children_live hr (s := .owned) hc

/-- What is resolved to the element that another name means has the simple part of that name. -/
lemma split_of_resolve {x : String} (hn : s.Means u name n)
    (h : resolve u x mode context s = .ok (some n) t) :
    (QualifiedName.split x).2 = (QualifiedName.split name).2 := by
  obtain ⟨context', hmeans⟩ := hn
  obtain ⟨y, hy, hname⟩ := named_of_resolveWith hmeans
  obtain ⟨z, hz, hname'⟩ := named_of_resolveWith h
  have hresolve : Obeys (UnitState.Relates KeepsFaces) (resolve u x mode context) := inferInstance
  obtain ⟨z', hz', hface⟩ := (hresolve.ok h : s.graph.KeepsFaces t.graph).node hy
  obtain rfl := Option.some.inj (hz.symm.trans hz')
  exact Option.some.inj (hname'.symm.trans (hface.name.trans hname))

lemma resolve_of_means (hs : s.Sound) (hn : s.Means u name n)
    (hg : s'.graph = s.graph) (hscopes : s'.scopes = s.scopes) (context : String) :
    resolve u name .any context s' = .ok (some n) s' := by
  obtain ⟨context', hmeans⟩ := hn
  exact resolveWith_same (ownsLive hs) hmeans hg hscopes _ _

lemma isClassifier_of_means (hs : s.Sound) (hn : s.Means u name n) :
    ∀ y, some n = some y → ∃ k, s.graph.kind? y = some k ∧ k.isClassifier = true := by
  intro y hy
  obtain ⟨-, -, hfound⟩ := (performs_resolve (u := u) name .any "" hs.graph).ok
    (resolve_of_means hs hn rfl rfl "")
  obtain ⟨k, hk, haccepts⟩ := hfound y hy
  exact ⟨k, hk, ResolveMode.isClassifier_of_accepts haccepts⟩

lemma isLive_of_means (hs : s.Sound) (hn : s.Means u name n) :
    ∀ y, some n = some y → s.graph.isLive y = true := by
  intro y hy
  obtain ⟨k, hk, -⟩ := isClassifier_of_means hs hn y hy
  exact isLive_of_kind? hk

lemma fieldType_sought (harrays : u.settings.arraysAsDatatype = false) :
    fieldType u (some r.spelling) = (do
      return (← resolve u (r.sought .field) .any "an attribute",
        (elementType false r.spelling).2)) := by
  unfold fieldType
  rw [harrays]
  rfl

lemma field_of_isBare (h : s.Nested) (ho : s.scopes.opened = scope :: rest)
    (hb : u.pass.buildsReferences = true) (hassociations : u.settings.generateAssociations = false)
    (harrays : u.settings.arraysAsDatatype = false) (hr : r.Proper) (hn : s.Means u r.name n)
    (hbare : r.isBare .field = true) (modifiers : ModifierSet) (name : String)
    (initializer doc : Option String) :
    ∃ m t, addAttribute u modifiers (some r.spelling) name initializer doc s = .ok (some m) t ∧
      (t.graph.traitsOf m).type = some n ∧ s.Quiet t := by
  have hfound := resolve_of_means h.toSound hn rfl rfl "an attribute"
  rw [← TypeRef.sought_of_isBare hr hbare] at hfound
  have hnone : associatedType? u (some n) s = .ok none s := by
    unfold associatedType?
    rw [hassociations]
    rfl
  obtain ⟨m, t, hadd⟩ := addPlainField_ends u h ho (isClassifier_of_means h.toSound hn) modifiers
    (elementType false r.spelling).2 name initializer doc
  refine ⟨m, t, ?_, ?_, (quiet_addPlainField _ _ _ _ _ _ _).ok hadd⟩
  · unfold addAttribute
    rw [bind_run (requireClassifier_ok h ho _)]
    simp only [hb, harrays, Bool.not_true, Bool.false_eq_true, if_false, pure_bind]
    rw [bind_run (show resolve u (elementType false r.spelling).1 _ _ s = _ from hfound),
      bind_run hnone, map_eq_pure_bind]
    exact bind_run hadd
  · rw [(says_addPlainField hadd).2.traitsOf]
    rfl

lemma isBare_of_field (h : s.Nested) (hb : u.pass.buildsReferences = true)
    (hassociations : u.settings.generateAssociations = false)
    (harrays : u.settings.arraysAsDatatype = false) (hr : r.Proper) (hn : s.Means u r.name n)
    {modifiers : ModifierSet} {initializer doc : Option String}
    (hrun : addAttribute u modifiers (some r.spelling) name initializer doc s = .ok (some m) t)
    (htype : (t.graph.traitsOf m).type = some n) : r.isBare .field = true := by
  by_contra hbare
  obtain ⟨type, multiplicity, s', hfound, hstated⟩ := says_addAttribute h hb hrun
  -- No field becomes an association end.
  have hplain : (if isPlain u s'.graph type then none else type) = none := by
    cases type <;> simp [isPlain, hassociations]
  simp only [hplain] at hstated
  rw [hstated.traitsOf] at htype
  obtain rfl : type = some n := htype
  rw [fieldType_sought harrays] at hfound
  obtain ⟨found, s₁, hfound, hreturn⟩ := bind_eq_ok.mp hfound
  cases hreturn
  exact TypeRef.split_sought_ne hr (Bool.eq_false_iff.mpr hbare) (split_of_resolve hn hfound)

lemma buildParameter_ends (hop : s.graph.kind? op = some .operation) (ht : s.graph.Takes op faces)
    (htype : ∀ y, type = some y → s.graph.isLive y = true) (title : Option String)
    (direction : Direction) :
    ∃ p t, change (.buildParameter op type title direction) s = .ok p t ∧
      t.graph.Takes op (faces ++ [⟨title, type, some direction⟩]) ∧ s.Quiet t := by
  obtain ⟨g, hg, hb⟩ : ∃ g, GraphM.buildParameter op type title direction s.graph =
      .ok s.graph.next g ∧ s.graph.Built
        { kind := .parameter, name := title, owner := some op, type, direction := some direction }
        g := GraphM.buildParameter_ok (isLive_of_kind? hop) htype
  have hrun := change_ok hg
  exact ⟨_, _, hrun, ht.built hb, (quiet_change (GraphM.frugal_buildParameter direction)).ok hrun⟩

lemma result_of_isBare (h : s.Sound) (hop : s.graph.kind? op = some .operation)
    (ht : s.graph.Takes op faces) (hr : r.Proper) (hn : s.Means u r.name n)
    (hconstructs : s.graph.isConstructor c (some r.spelling) (some name) = .ok false)
    (hbare : r.isBare .result = true) :
    ∃ t, addResult u c op (some r.spelling) name s = .ok () t ∧
      t.graph.Takes op (faces ++ [⟨some "return", some n, some .result⟩]) ∧ s.Quiet t := by
  have hfound := resolve_of_means h hn rfl rfl "operation return type"
  rw [← TypeRef.sought_of_isBare hr hbare] at hfound
  obtain ⟨p, t, hbuild, htakes, hquiet⟩ :=
    buildParameter_ends hop ht (isLive_of_means h hn) (some "return") .result
  refine ⟨t, ?_, htakes, hquiet⟩
  rw [addResult_eq, bind_run (query_ok hconstructs)]
  exact (bind_run hfound).trans (bind_run hbuild)

lemma isBare_of_result (hop : s.graph.kind? op = some .operation) (ht : s.graph.Takes op faces)
    (hr : r.Proper) (hn : s.Means u r.name n)
    (hconstructs : s.graph.isConstructor c (some r.spelling) (some name) = .ok false)
    (hrun : addResult u c op (some r.spelling) name s = .ok () t)
    (htakes : t.graph.Takes op (faces ++ [⟨some "return", some n, some .result⟩])) :
    r.isBare .result = true := by
  by_contra hbare
  obtain ⟨rop, hrop, hk⟩ := kind?_eq_some.mp hop
  obtain ⟨st, result, s', hresult, -, htaken⟩ := says_addResult ⟨rop, hrop, hk, rfl⟩ ht hrun
  obtain rfl := List.append_cancel_left (htakes.unique htaken)
  unfold resultOf at hresult
  rw [bind_run (query_ok hconstructs)] at hresult
  obtain ⟨found, s₁, hfound, hresult⟩ := bind_eq_ok.mp hresult
  obtain rfl : found = some n := by
    cases found with
    | none => cases hresult
    | some m =>
      cases hresult
      rfl
  exact TypeRef.split_sought_ne hr (Bool.eq_false_iff.mpr hbare) (split_of_resolve hn hfound)

/-- The type of a parameter is looked up after no more than a warning about marks of a variable
number. -/
lemma parameterType_run (u : UnitContext) (s : UnitState) (p : ParameterDeclaration) :
    ∃ s', s'.graph = s.graph ∧ s'.scopes = s.scopes ∧ s.Quiet s' ∧ parameterType u p s =
      resolve u ((withoutVarargs? p.type).getD p.type) .any "operation params" s' := by
  unfold parameterType
  cases withoutVarargs? p.type with
  | none => exact ⟨s, rfl, rfl, refl_of UnitState.Quiet s, rfl⟩
  | some type =>
    let message := "unsupported variable length parameter list notation: " ++ p.name
    obtain ⟨s', hwarn, hg, hscopes⟩ : ∃ s', warn u "unsupported" message s = .ok () s' ∧
      s'.graph = s.graph ∧ s'.scopes = s.scopes := ⟨_, rfl, rfl, rfl⟩
    exact ⟨s', hg, hscopes, (quiet_warn (by decide)).ok hwarn, bind_run hwarn⟩

lemma parameter_of_isBare (h : s.Sound) (hop : s.graph.kind? op = some .operation)
    (ht : s.graph.Takes op faces) (hr : r.Proper) (hn : s.Means u r.name n)
    (hbare : r.isBare .parameter = true) (name : String) (direction : Direction) :
    ∃ t, addParameter u op ⟨r.spelling, name, direction⟩ s = .ok () t ∧
      t.graph.Takes op (faces ++ [⟨some name, some n, some direction⟩]) ∧ s.Quiet t := by
  obtain ⟨s', hg, hscopes, hwarned, hlookup⟩ := parameterType_run u s ⟨r.spelling, name, direction⟩
  have hfound := resolve_of_means h hn hg hscopes "operation params"
  rw [← TypeRef.sought_of_isBare hr hbare] at hfound
  have hlive : ∀ y, some n = some y → s'.graph.isLive y = true := hg ▸ isLive_of_means h hn
  obtain ⟨p, t, hbuild, htakes, hquiet⟩ :=
    buildParameter_ends (hg ▸ hop) (hg ▸ ht) hlive (some name) direction
  refine ⟨t, ?_, htakes, trans_of UnitState.Quiet hwarned hquiet⟩
  rw [addParameter_eq, bind_run (hlookup.trans hfound)]
  exact bind_run hbuild

lemma isBare_of_parameter (h : s.Sound) (hop : s.graph.kind? op = some .operation)
    (ht : s.graph.Takes op faces) (hr : r.Proper) (hn : s.Means u r.name n)
    {direction : Direction} (hrun : addParameter u op ⟨r.spelling, name, direction⟩ s = .ok () t)
    (htakes : t.graph.Takes op (faces ++ [⟨some name, some n, some direction⟩])) :
    r.isBare .parameter = true := by
  by_contra hbare
  obtain ⟨s', hg, hscopes, -, hlookup⟩ := parameterType_run u s ⟨r.spelling, name, direction⟩
  obtain ⟨context, hmeans⟩ := hn
  have hn' : s'.Means u r.name n :=
    ⟨context, resolveWith_same (ownsLive h) hmeans hg hscopes _ _⟩
  obtain ⟨rop, hrop, hk⟩ := kind?_eq_some.mp hop
  obtain ⟨type, s₁, htype, -, htaken⟩ := says_addParameter ⟨rop, hrop, hk, rfl⟩ ht hrun
  obtain rfl : type = some n := by
    simpa [eq_comm] using List.append_cancel_left (htakes.unique htaken)
  exact TypeRef.split_sought_ne hr (Bool.eq_false_iff.mpr hbare)
    (split_of_resolve hn' (hlookup.symm.trans htype))

end ImportM

/-- Under a condition a run ends quietly with what it is to build, and otherwise it never ends with
that. -/
structure UnitState.BuildsIff {α : Type} (s : UnitState)
    (run : EStateM.Result ImportError UnitState α) (built : α → Graph → Prop)
    (condition : Bool) : Prop where
  builds : condition = true → ∃ a t, run = .ok a t ∧ built a t.graph ∧ s.Quiet t
  needs : ∀ {a t}, run = .ok a t → built a t.graph → condition = true

variable {s : UnitState} {u : UnitContext} {r : TypeRef} {n : NodeId}

/-- An element that the name of a type means becomes the type of the field, of the result and of the
parameter that are declared with the type if nothing but the name is looked up there, without
anything that is reported to be unresolved or made for it. Otherwise it does not become the type. -/
theorem named_type_of_bare_position (h : s.Sound) (hb : u.pass.buildsReferences = true)
    (hassociations : u.settings.generateAssociations = false)
    (harrays : u.settings.arraysAsDatatype = false) (hr : r.Proper) (hn : s.Means u r.name n) :
    (∀ {scope rest}, s.Nested → s.scopes.opened = scope :: rest →
      ∀ modifiers name initializer doc,
        s.BuildsIff (ImportM.addAttribute u modifiers (some r.spelling) name initializer doc s)
          (fun m g => ∃ x, m = some x ∧ (g.traitsOf x).type = some n) (r.isBare .field)) ∧
    ∀ {op faces}, s.graph.kind? op = some .operation → s.graph.Takes op faces →
      (∀ {c name}, s.graph.isConstructor c (some r.spelling) (some name) = .ok false →
        s.BuildsIff (ImportM.addResult u c op (some r.spelling) name s)
          (fun _ g => g.Takes op (faces ++ [⟨some "return", some n, some .result⟩]))
          (r.isBare .result)) ∧
      ∀ name direction,
        s.BuildsIff (ImportM.addParameter u op ⟨r.spelling, name, direction⟩ s)
          (fun _ g => g.Takes op (faces ++ [⟨some name, some n, some direction⟩]))
          (r.isBare .parameter) := by
  refine ⟨fun hs ho modifiers name initializer doc => ⟨fun hbare => ?_, ?_⟩, fun hop ht =>
    ⟨fun hconstructs => ⟨fun hbare => ?_, fun hrun htakes => ?_⟩,
      fun name direction => ⟨fun hbare => ?_, fun hrun htakes => ?_⟩⟩⟩
  · obtain ⟨x, t, hrun, htype, hquiet⟩ := ImportM.field_of_isBare hs ho hb hassociations harrays hr
      hn hbare modifiers name initializer doc
    exact ⟨some x, t, hrun, ⟨x, rfl, htype⟩, hquiet⟩
  · rintro _ t hrun ⟨x, rfl, htype⟩
    exact ImportM.isBare_of_field hs hb hassociations harrays hr hn hrun htype
  · exact ⟨(), ImportM.result_of_isBare h hop ht hr hn hconstructs hbare⟩
  · exact ImportM.isBare_of_result hop ht hr hn hconstructs hrun htakes
  · exact ⟨(), ImportM.parameter_of_isBare h hop ht hr hn hbare name direction⟩
  · exact ImportM.isBare_of_parameter h hop ht hr hn hrun htakes

/-- The type T[] is found for a field, but neither for a result nor for a parameter. -/
theorem named_type_of_array_field :
    let u : UnitContext :=
      { name := "x.idl", pass := .references, settings := { generateAssociations := false } }
    let s := [UnitCall.addClass "T" {} none [] none, .popClassifier,
      .addClass "A" {} none [] none, .addOperation {} (some "T") "g" [] none].foldl
        (UnitCall.after u) (.start u { graph := .new "m" ⟨"p", [], []⟩ })
    let r : TypeRef := ⟨"T", 1, false⟩
    let result : ParameterFace := ⟨some "return", some 3, some .result⟩
    s.Reached u ∧ r.Proper ∧ s.Means u r.name 3 ∧ s.graph.kind? 5 = some .operation ∧
      s.graph.Takes 5 [result] ∧
      (∃ m t, ImportM.addAttribute u {} (some r.spelling) "v" none none s = .ok (some m) t ∧
        (t.graph.traitsOf m).type = some 3 ∧ s.Quiet t) ∧
      (∀ t, ImportM.addResult u 4 5 (some r.spelling) "g" s = .ok () t →
        ¬t.graph.Takes 5 [result, result]) ∧
      ∀ t, ImportM.addParameter u 5 ⟨r.spelling, "v", .input⟩ s = .ok () t →
        ¬t.graph.Takes 5 [result, ⟨some "v", some 3, some .input⟩] := by
  intro u s r result
  have hfresh : Imported (fun _ => True)
      ({ graph := .new "m" ⟨"p", [], []⟩ } : Store).graph := .fresh "m" ⟨"p", [], []⟩
  have hs : s.Reached u := .calls (.first _ hfresh) _
  have hnested := hs.framed.toNested
  have hr : r.Proper := Lexeme.isName_of_identifier (by decide) (by decide) (by decide)
  have hfound : answer? (ImportM.resolveWith u .fail "T" .any "" s) = some (some 3) := by
    decide +kernel
  have hn : s.Means u r.name 3 :=
    ImportM.means_of_resolveWith ⟨"T", by decide +kernel⟩ (eq_ok_of_answer? hfound)
  have hop : s.graph.kind? 5 = some .operation := by decide +kernel
  have ht : s.graph.Takes 5 [result] := by decide +kernel
  obtain ⟨field, others⟩ := named_type_of_bare_position hnested.toSound rfl rfl rfl hr hn
  obtain ⟨results, parameters⟩ := others hop ht
  cases ho : s.scopes.opened with
  | nil => exact absurd ho (by decide +kernel)
  | cons scope rest =>
    obtain ⟨_, t, hrun, ⟨m, rfl, htype⟩, hquiet⟩ :=
      (field hnested ho {} "v" none none).builds (by decide)
    refine ⟨hs, hr, hn, hop, ht, ⟨m, t, hrun, htype, hquiet⟩, ?_, ?_⟩
    · exact fun t hrun htakes => absurd ((results rfl).needs hrun htakes) (by decide)
    · exact fun t hrun htakes => absurd ((parameters "v" .input).needs hrun htakes) (by decide)

/-- A result of the type T[] is left out and reported to be unresolved where T means a class. -/
theorem array_result_unresolved :
    let u : UnitContext :=
      { name := "x.idl", pass := .references, settings := { generateAssociations := false } }
    let s := [UnitCall.addClass "T" {} none [] none, .popClassifier,
      .addClass "A" {} none [] none].foldl
        (UnitCall.after u) (.start u { graph := .new "m" ⟨"p", [], []⟩ })
    let r : TypeRef := ⟨"T", 1, false⟩
    let declare := ImportM.addOperation u {} (some r.spelling) "g" [] none s
    s.Reached u ∧ r.Proper ∧ s.Means u r.name 3 ∧ s.session.diagnostics = [] ∧
      answer? declare = some (some 5) ∧ (finalState declare).graph.Takes 5 [] ∧
      (finalState declare).session.diagnostics.map (·.code) = [some "unresolved"] := by
  intro u s r declare
  have hfresh : Imported (fun _ => True)
      ({ graph := .new "m" ⟨"p", [], []⟩ } : Store).graph := .fresh "m" ⟨"p", [], []⟩
  have hfound : answer? (ImportM.resolveWith u .fail "T" .any "" s) = some (some 3) := by
    decide +kernel
  refine ⟨.calls (.first _ hfresh) _,
    Lexeme.isName_of_identifier (by decide) (by decide) (by decide),
    ImportM.means_of_resolveWith ⟨"T", by decide +kernel⟩ (eq_ok_of_answer? hfound), ?_⟩
  decide +kernel

end DeclGraph
