import DeclGraph.Proofs.Graph.Ascent
import DeclGraph.Proofs.Import.Duplicates

/-! The shape of models over whole runs: whatever is imported and wherever an import breaks off,
owners lead to a top, edges have both their endpoints, and walks through the model end. -/

namespace DeclGraph

open DeclGraph.Graph

namespace Graph

variable {g : Graph} {n : NodeId} {r : Node}

/-- Elements are owned as far up as the root or the profile package, and edges, associations,
residences and parameters have all that belongs to them. -/
structure Shaped (g : Graph) : Prop where
  owned : ∀ {n r}, g.node? n = some r → r.kind ≠ .elementResidence → ∃ chain, g.Ascends n chain ∧
    (chain.getLast? = some root ∨ chain.getLast? = some profilePackage)
  generalization : ∀ {n r}, g.node? n = some r → r.kind = .generalization → ∃ c p,
    r.specific = some c ∧ r.general = some p ∧ g.isClassifier c = .ok true ∧
      g.isClassifier p = .ok true
  dependency : ∀ {n r}, g.node? n = some r → r.kind.isDependency = true → ∃ c p,
    r.clients = [c] ∧ r.suppliers = [p] ∧ g.isLive c = true ∧ g.isLive p = true
  /-- The first end of an association is navigable and has a name, the second is not and has none. -/
  association : ∀ {a}, g.kind? a = some .association → ∃ e o c p name, g.Spans a e o c p name ∧
    e ≠ o ∧ g.namespaceOf e = .ok (some a) ∧ g.namespaceOf o = .ok (some a) ∧
      g.isClassifier c = .ok true ∧ g.isClassifier p = .ok true
  associationEnd : ∀ {n r}, g.node? n = some r → r.kind = .associationEnd → ∃ a,
    r.owner = some a ∧ g.kind? a = some .association
  residence : ∀ {n r}, g.node? n = some r → r.kind = .elementResidence → ∃ m c,
    r.resident = some m ∧ r.container = some c ∧ g.isClassifier m = .ok true ∧
      g.kind? c = some .component
  parameter : ∀ {n r}, g.node? n = some r → r.kind = .parameter → ∃ op c,
    r.owner = some op ∧ g.kind? op = some .operation ∧ g.namespaceOf op = .ok (some c) ∧
      g.isClassifier c = .ok true

/-- Walks through a model end, with what the way up says. -/
structure Traversable (g : Graph) : Prop where
  inProfile : ∀ {n}, g.isLive n = true → ∃ chain, g.Ascends n chain ∧
    g.inProfile n = .ok (decide (profilePackage ∈ chain))
  outermost : ∀ {n}, g.isLive n = true → ∃ chain, g.Ascends n chain ∧ ∃ m ∈ chain,
    g.outermost n = .ok m ∧ (g.namespaceOf m = .ok none ∨ g.namespaceOf m = .ok (some root))
  scopeNamespaces : ∀ {scopes : ScopeStack}, g.isLive scopes.package = true → ∃ chain,
    g.Ascends scopes.package chain ∧ g.scopeNamespaces scopes =
      .ok (if root ∈ scopes.enclosing ++ chain then scopes.enclosing ++ chain
        else scopes.enclosing ++ chain ++ [root])
  toJson : ∀ includeProfile, ∃ json, g.toJson includeProfile = .ok json

lemma isClassifier_eq_ok {k : NodeKind} (h : g.kind? n = some k) (hk : k.isClassifier = true) :
    g.isClassifier n = .ok true := by
  obtain ⟨x, hx, rfl⟩ := kind?_eq_some.mp h
  simp [isClassifier, get_of_node? hx, hk]

lemma namespaceOf_eq_ok (h : g.node? n = some r) : g.namespaceOf n = .ok r.owner := by
  simp [namespaceOf, get_of_node? h]

namespace Sound

/-- What a record refers to as a classifier is one. -/
lemma isClassifier_of_mem (h : g.Sound) (hr : g.node? n = some r) {c : NodeId}
    (hc : c ∈ r.classifiers) : g.isClassifier c = .ok true := by
  have hlink := r.endpoints_subset_links (r.classifiers_subset_endpoints hc)
  obtain ⟨x, hx⟩ := isLive_iff.mp (h.live hr c hlink)
  exact isClassifier_eq_ok (kind?_eq hx) ((h.proper hr).classifier c hc (kind?_eq hx))

/-- The owner of an element, if elements of its kind are owned. -/
lemma owner_of_isOwned (h : g.Sound) (hr : g.node? n = some r) (hk : r.kind.isOwned = true) :
    ∃ p rp, r.owner = some p ∧ g.node? p = some rp ∧ rp.kind.mayOwn r.kind = true := by
  obtain ⟨p, hp⟩ := (h.proper hr).owned hk
  obtain ⟨rp, hrp, hmay⟩ := h.mayOwn hr hp
  exact ⟨p, rp, hp, hrp, hmay⟩

lemma spans_shape (h : g.Sound) {a : NodeId} (ha : g.kind? a = some .association) :
    ∃ e o c p name, g.Spans a e o c p name ∧ e ≠ o ∧ g.namespaceOf e = .ok (some a) ∧
      g.namespaceOf o = .ok (some a) ∧ g.isClassifier c = .ok true ∧ g.isClassifier p = .ok true := by
  obtain ⟨e, o, c, p, name, hs⟩ := h.spanned ha
  have shape : ∀ {m t : NodeId} {nav : Bool} {title : Option String},
      (∃ r, g.node? m = some r ∧ r.IsEnd a nav t title) →
      g.namespaceOf m = .ok (some a) ∧ g.isClassifier t = .ok true := by
    rintro m t nav title ⟨r, hr, hend⟩
    refine ⟨(namespaceOf_eq_ok hr).trans (congrArg _ (h.endsAtHome hr hend.association)), ?_⟩
    exact h.isClassifier_of_mem hr (by simp [Node.classifiers, hend.type])
  exact ⟨e, o, c, p, name, hs, hs.far_ne_near, (shape hs.far).1, (shape hs.near).1,
    (shape hs.near).2, (shape hs.far).2⟩

lemma parameter_shape (h : g.Sound) (hr : g.node? n = some r) (hk : r.kind = .parameter) :
    ∃ op c, r.owner = some op ∧ g.kind? op = some .operation ∧ g.namespaceOf op = .ok (some c) ∧
      g.isClassifier c = .ok true := by
  obtain ⟨op, rop, hop, hrop, hmay⟩ := h.owner_of_isOwned hr (by rw [hk]; rfl)
  have hkop : rop.kind = .operation := by simpa [hk, NodeKind.mayOwn] using hmay
  obtain ⟨c, rc, hc, hrc, hmay'⟩ := h.owner_of_isOwned hrop (by rw [hkop]; rfl)
  refine ⟨op, c, hop, by rw [kind?_eq hrop, hkop], (namespaceOf_eq_ok hrop).trans (congrArg _ hc), ?_⟩
  exact isClassifier_eq_ok (kind?_eq hrc) (by simpa [hkop, NodeKind.mayOwn] using hmay')

lemma residence_shape (h : g.Sound) (hr : g.node? n = some r) (hk : r.kind = .elementResidence) :
    ∃ m c, r.resident = some m ∧ r.container = some c ∧ g.isClassifier m = .ok true ∧
      g.kind? c = some .component := by
  have hcomplete := (h.proper hr).complete
  rw [Node.isComplete, hk, Bool.and_eq_true] at hcomplete
  obtain ⟨m, hm⟩ := Option.isSome_iff_exists.mp hcomplete.1
  obtain ⟨c, hc⟩ := Option.isSome_iff_exists.mp hcomplete.2
  obtain ⟨rc, hrc⟩ := isLive_iff.mp
    (h.live hr c (r.endpoints_subset_links (Node.container_mem_endpoints hc)))
  refine ⟨m, c, hm, hc, h.isClassifier_of_mem hr (by simp [Node.classifiers, hm]), ?_⟩
  rw [kind?_eq hrc, (h.proper hr).container hc (kind?_eq hrc)]

/-- A sound graph whose elements are rooted has the shape of a model. -/
lemma shaped (h : g.Sound) (hroot : g.Rooted) : g.Shaped where
  owned hr hk := hroot.ascends h.toRegular hr hk
  generalization := by
    intro n r hr hk
    have hcomplete := (h.proper hr).complete
    rw [Node.isComplete, hk, Bool.and_eq_true] at hcomplete
    obtain ⟨c, hc⟩ := Option.isSome_iff_exists.mp hcomplete.1
    obtain ⟨p, hp⟩ := Option.isSome_iff_exists.mp hcomplete.2
    exact ⟨c, p, hc, hp, h.isClassifier_of_mem hr (by simp [Node.classifiers, hc]),
      h.isClassifier_of_mem hr (by simp [Node.classifiers, hp])⟩
  dependency := by
    intro n r hr hk
    obtain ⟨c, p, hc, hp⟩ := (h.proper hr).dependency hk
    exact ⟨c, p, hc, hp, h.live hr c (by simp [Node.links, hc]),
      h.live hr p (by simp [Node.links, hp])⟩
  association := h.spans_shape
  associationEnd := by
    intro n r hr hk
    obtain ⟨a, ra, ha, hra, hmay⟩ := h.owner_of_isOwned hr (by rw [hk]; rfl)
    exact ⟨a, ha, by rw [kind?_eq hra]; simpa [hk, NodeKind.mayOwn] using hmay⟩
  residence := h.residence_shape
  parameter := h.parameter_shape

/-- There is a way up from every element. Residences have no owner. -/
lemma ascends (h : g.Sound) (hroot : g.Rooted) (hn : g.isLive n = true) :
    ∃ chain, g.Ascends n chain := by
  obtain ⟨r, hr⟩ := isLive_iff.mp hn
  by_cases hk : r.kind = .elementResidence
  · cases ho : r.owner with
    | none => exact ⟨_, .top hr ho⟩
    | some p =>
      obtain ⟨rp, -, hmay⟩ := h.mayOwn hr ho
      rw [hk] at hmay
      exact Bool.noConfusion hmay
  · obtain ⟨chain, hc, -⟩ := hroot.ascends h.toRegular hr hk
    exact ⟨chain, hc⟩

lemma exported_ok (h : g.Sound) (hroot : g.Rooted) (includeProfile : Bool) :
    ∃ kept, g.exported includeProfile = .ok kept ∧ kept.Sublist g.entries := by
  let q : NodeId × Node → Bool := fun entry =>
    includeProfile || (g.inProfile entry.1).toOption.any (!·)
  refine ⟨g.entries.filter q, filterM_eq_ok ?_, List.filter_sublist⟩
  rintro ⟨n, r⟩ hin
  obtain ⟨chain, hc⟩ := h.ascends hroot (isLive_of_node? (mem_entries.mp hin))
  have hrun := hc.inProfileWithin (hc.length_le.trans (Nat.le_succ _))
  cases includeProfile
  · simp [q, Graph.inProfile, hrun, Except.toOption]
  · simp [q]

/-- The walks of a sound graph whose elements are rooted end. -/
lemma traversable (h : g.Sound) (hroot : g.Rooted) : g.Traversable where
  inProfile hn := by
    obtain ⟨chain, hc⟩ := h.ascends hroot hn
    exact ⟨chain, hc, hc.inProfileWithin (hc.length_le.trans (Nat.le_succ _))⟩
  outermost hn := by
    obtain ⟨chain, hc⟩ := h.ascends hroot hn
    obtain ⟨m, hm, hrun, ho⟩ := hc.outermostWithin (hc.length_le.trans (Nat.le_succ _))
    obtain ⟨r, hr⟩ := isLive_iff.mp (hc.live m hm)
    refine ⟨chain, hc, m, hm, hrun, ?_⟩
    rw [namespaceOf_eq_ok hr]
    exact (ho hr).imp (congrArg _) (congrArg _)
  scopeNamespaces hn := by
    obtain ⟨chain, hc⟩ := h.ascends hroot hn
    refine ⟨chain, hc, ?_⟩
    rw [Graph.scopeNamespaces, hc.namespacesWithin h.root_owner
      (hc.length_le.trans (Nat.le_succ _))]
    rfl
  toJson includeProfile := by
    obtain ⟨kept, hkept, hsub⟩ := h.exported_ok hroot includeProfile
    have fields : ∀ entry ∈ kept, ∃ json,
        (Json.obj <$> g.nodeFields entry.1 entry.2 : Except GraphFault Json) = .ok json := by
      rintro ⟨n, r⟩ hin
      have hr := mem_entries.mp (hsub.subset hin)
      obtain ⟨names, hnames⟩ : ∃ names, r.stereotypes.mapM g.nameOf = .ok names :=
        exists_mapM_eq_ok fun st hst => by
          obtain ⟨x, hx⟩ := isLive_iff.mp (h.live hr st (r.stereotypes_subset_links hst))
          exact ⟨x.name, by simp [nameOf, get_of_node? hx]⟩
      simp [nodeFields, hnames]
    obtain ⟨nodes, hnodes⟩ := exists_mapM_eq_ok fields
    exact ⟨_, except_bind_eq_ok.mpr ⟨kept, hkept, except_bind_eq_ok.mpr ⟨nodes, hnodes, rfl⟩⟩⟩

end Sound

variable {name : String} {profile : Profile}

/-- The elements of a new graph are rooted. -/
lemma rooted_new (name : String) (profile : Profile) : (new name profile).Rooted := by
  have hnew := installing_new name profile
  obtain ⟨owned, hpackage⟩ := hnew.package_node
  refine ⟨⟨_, hpackage, rfl, rfl⟩, fun {n r} hr _ => ?_⟩
  by_cases hroot : n = root
  · exact Or.inl (hroot ▸ .self)
  by_cases hpack : n = profilePackage
  · exact Or.inr (hpack ▸ .self)
  · obtain ⟨kind, title, baseClasses, -, rfl⟩ := hnew.content hr hroot hpack
    exact Or.inr (Below.self.part hr rfl)

end Graph

/-- Imports lead to graphs whose elements are rooted. -/
lemma Imported.rooted {allowed : Settings → Prop} {g : Graph} (h : Imported allowed g) :
    g.Rooted := by
  induction h with
  | fresh name profile => exact rooted_new name profile
  | pass h _ name unit p ih => exact ih.steps h.sound (StoreM.steps_runPass h.sound)

/-- Imports of source texts into a new graph lead to a graph that has the shape of a model and in
which all walks end, whatever the texts, settings and passes are and wherever the imports fail. -/
theorem shaped_of_calls (name : String) (profile : Profile) (calls : List SourceCall) :
    (calls.foldl SourceCall.run (.new name profile)).Shaped ∧
      (calls.foldl SourceCall.run (.new name profile)).Traversable := by
  have himported : Imported (fun _ => True) (calls.foldl SourceCall.run (.new name profile)) :=
    (Imported.fresh name profile).calls fun _ _ => trivial
  exact ⟨himported.sound.shaped himported.rooted, himported.sound.traversable himported.rooted⟩

end DeclGraph
