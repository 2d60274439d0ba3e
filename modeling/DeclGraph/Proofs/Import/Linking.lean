import DeclGraph.Import.Clause
import DeclGraph.Proofs.Import.Annotation

/-! Edges between elements, as the importer finds and builds them. -/

namespace DeclGraph

open DeclGraph.Graph

/-- A unit at work: in a package, with a component as long as it is there. -/
structure UnitState.Sound (s : UnitState) : Prop where
  graph : s.graph.Sound
  package : ∃ k, s.graph.kind? s.scopes.package = some k ∧ k.isPackage = true
  component : ∀ c, s.component = some c → s.graph.Once c (· = .component)

lemma UnitState.Sound.steps {P : Permit} {s s' : UnitState} (h : s.Sound)
    (hs : Steps P s.graph s'.graph) (hu : s.SameUnit s') : s'.Sound := by
  obtain ⟨k, hk, hp⟩ := h.package
  refine ⟨h.graph.steps hs, ⟨k, ?_, hp⟩, fun c hc => ?_⟩
  · rw [hu.scopes]
    exact h.graph.package_steps hs hk hp
  · rw [hu.component] at hc
    exact (h.component c hc).steps hs

lemma Performs.sound {α : Type} {P : Permit} {s : UnitState}
    {r : EStateM.Result ImportError UnitState α} {Q : α → UnitState → Prop} (h : s.Sound)
    (hr : Performs P s r fun a t => s.SameUnit t ∧ Q a t) :
    Performs P s r fun a t => t.Sound ∧ s.SameUnit t ∧ Q a t :=
  ⟨hr.ends.imp fun _ _ ⟨hs, hu, hQ⟩ => ⟨hs, h.steps hs hu, hu, hQ⟩⟩

namespace NodeKind

/-- The edges that are built beside what they lead away from. -/
def isEdge : NodeKind → Bool
  | .generalization | .association | .abstraction | .dependency => true
  | _ => false

/-- What edges built beside themselves can lead away from. -/
def isSource (k : NodeKind) : Bool := k.isClassifier || k = .component

lemma mayOwn_edge {p k e : NodeKind} (h : p.mayOwn k = true) (hk : k.isSource = true)
    (he : e.isEdge = true) : p.mayOwn e = true := by
  have hp : (p.isPackage || p.isClassifier) = true := by
    cases k <;> first | exact h | exact absurd hk (by decide) | simp [mayOwn] at h; simp [h]
  cases e <;> first | exact hp | exact absurd he (by decide)

lemma role?_of_isEdge {k : NodeKind} (hk : k.isEdge = true) : k.role? = none := by
  revert hk
  cases k <;> decide

lemma isOwned_of_isSource {k : NodeKind} (hk : k.isSource = true) : k.isOwned = true := by
  revert hk
  cases k <;> decide

lemma isEndpoint_of_isSource {k : NodeKind} (hk : k.isSource = true) : k.isEndpoint = true := by
  revert hk
  cases k <;> decide

lemma isEndpoint_of_isClassifier {k : NodeKind} (hk : k.isClassifier = true) :
    k.isEndpoint = true := by
  revert hk
  cases k <;> decide

end NodeKind

namespace ImportM

variable {α : Type} {s s' : UnitState} {u : UnitContext} {n m c p : NodeId} {k : NodeKind}
  {made edited : List NodeKind} {P : Permit} {r : Node}

/-- A change that the graph refuses. -/
lemma performs_refused {m : GraphM α} {Q : α → UnitState → Prop} {e : GraphFault}
    (h : m s.graph = .error e s.graph) : Performs P s (change m s) Q := by
  simp only [change, h]
  exact Performs.failed .refl

/-- Building an element whose record is known. -/
lemma performs_build {build : GraphM NodeId}
    (hrun : ∃ g', build s.graph = .ok s.graph.next g' ∧ s.graph.Built r g')
    (h : s.graph.Sound) (hadd : s.graph.Addable r) (hj : r.kind.isJoint = false)
    (hfree : ∀ key, s.graph.Fits r key → s.graph.Free key) (hm : r.kind ∈ made)
    (hmark : r.kind ≠ .taggedValue) :
    Performs (.within u made edited) s (change build s) fun n s' =>
      s.SameUnit s' ∧ n = s.graph.next ∧ s.graph.Built r s'.graph := by
  obtain ⟨g', hrun, hb⟩ := hrun
  refine performs_change (Q := fun n g => n = s.graph.next ∧ s.graph.Built r g) ?_
  rw [hrun]
  exact ⟨(h.build hadd hj hb hfree).permitted ⟨hm, fun hk => absurd hk hmark⟩, rfl, hb⟩

/-- Edges are not told apart by where they are. -/
lemma fits_of_isEdge {g : Graph} {key : Key} {home : Option NodeId} (hk : r.kind.isEdge = true)
    (h : g.Fits { r with owner := home } key) : g.Fits r key := by
  cases key with
  | place k p name =>
    have hf := h.1
    revert hk hf
    cases r.kind <;> simp [NodeKind.isEdge, NodeKind.family?]
  | _ => exact h

/-- Moving an element into a package. A component is told apart there by its name. -/
lemma performs_setNamespace (h : s.graph.Sound)
    (hn : s.graph.Once n fun k => k ∈ made ∧ (k.isEdge = true ∨ k = .component))
    (hp : s.graph.kind? p = some k) (hk : k.isPackage = true)
    (hfree : ∀ {r}, s.graph.node? n = some r → r.kind = .component → r.owner = some p ∨
      s.graph.Free (.place .component (some p) r.name)) :
    Performs (.within u made edited) s (change (.setNamespace n (some p)) s)
      fun _ s' => s.SameUnit s' := by
  refine (performs_change (Q := fun _ _ => True) ?_).imp fun _ _ h => h.1
  cases hr : s.graph.node? n with
  | none =>
    rw [GraphM.setNamespace_unknown hr]
    exact Steps.refl
  | some r =>
    obtain ⟨hm, hedge⟩ := hn.kind (kind?_eq hr)
    have hkind : k.mayOwn r.kind = true ∧ r.kind.role? = none ∧ r.kind ≠ .associationEnd ∧
        r.kind ≠ .taggedValue ∧ r.kind.isPackage = false := by
      rcases hedge with hedge | hedge
      · refine ⟨?_, NodeKind.role?_of_isEdge hedge, ?_, ?_, ?_⟩
        · exact NodeKind.mayOwn_edge (k := .component) hk rfl hedge
        · exact fun hke => by simp [hke, NodeKind.isEdge] at hedge
        · exact fun hke => by simp [hke, NodeKind.isEdge] at hedge
        · revert hedge
          cases r.kind <;> decide
      · simpa [hedge, NodeKind.role?, NodeKind.mayOwn, NodeKind.isPackage] using hk
    obtain ⟨hmay, hrole, hne, hnt, hnp⟩ := hkind
    have hlive : ∀ q, some p = some q → s.graph.isLive q = true :=
      fun q hq => Option.some.inj hq ▸ isLive_of_kind? hp
    obtain ⟨g', hrun, hmoved⟩ := GraphM.setNamespace_ok hr hlive
    have hmov : s.graph.Movable n r p := by
      refine ⟨hnp, isLive_of_kind? hp, fun hb => ?_, ?_, hne, hnt, by simp [hrole]⟩
      · obtain ⟨k', hk', hpk⟩ := h.isPackage_of_below hb hp hk
        rw [← Option.some.inj ((kind?_eq hr).symm.trans hk'), hnp] at hpk
        exact Bool.noConfusion hpk
      · intro k' hk'
        exact Option.some.inj (hp.symm.trans hk') ▸ hmay
    have hstep : s.graph.Step (.move n p) g' := by
      apply h.move hr hmov hmoved
      intro key hf
      rcases hedge with hedge | hcomp
      · exact Or.inl (fits_of_isEdge hedge hf)
      · obtain rfl := eq_place_of_fits (k := .component) (by rw [hcomp]; rfl) hf
        refine (hfree hr hcomp).imp (fun ho => ?_) id
        exact ⟨by rw [hcomp]; rfl, ho, rfl, by simp⟩
    rw [hrun]
    exact ⟨hstep.permitted ⟨_, hm, kind?_eq hr, hnt⟩, trivial⟩

/-- What is built beside an element has an owner that may own it. -/
lemma edge_owner {g : Graph} {e : NodeKind} (h : g.Sound) (hr : g.node? c = some r)
    (hc : r.kind.isSource = true) (he : e.isEdge = true) :
    ∀ p, r.owner = some p → ∃ k, g.kind? p = some k ∧ k.mayOwn e = true := by
  intro p hp
  obtain ⟨rp, hrp, hmay⟩ := h.mayOwn hr hp
  exact ⟨_, kind?_eq hrp, NodeKind.mayOwn_edge hmay hc he⟩

lemma owned_of_isSource {g : Graph} (h : g.Sound) (hr : g.node? c = some r)
    (hc : r.kind.isSource = true) : ∃ p, r.owner = some p :=
  (h.proper hr).owned (NodeKind.isOwned_of_isSource hc)

lemma performs_buildGeneralization (h : s.graph.Sound)
    (hc : s.graph.Once c (·.isClassifier = true)) (hp : s.graph.Once p (·.isClassifier = true))
    (hfree : s.graph.Free (.edge .generalization c p)) (hm : .generalization ∈ made) :
    Performs (.within u made edited) s (change (.buildGeneralization c p) s) fun n s' =>
      s.SameUnit s' ∧ s'.graph.Once n (· = .generalization) := by
  cases hrp : s.graph.node? p with
  | none =>
    refine performs_refused (e := .unknownHandle p) ?_
    unfold GraphM.buildGeneralization
    exact bind_failed (by rw [GraphM.get_run, hrp])
  | some rp =>
    cases hrc : s.graph.node? c with
    | none =>
      refine performs_refused (e := .unknownHandle c) ?_
      unfold GraphM.buildGeneralization
      refine (bind_run (GraphM.get_ok hrp)).trans (bind_failed ?_)
      simp [GraphM.query, namespaceOf, get_of_none hrc]
    | some rc =>
      have hck := hc.kind (kind?_eq hrc)
      have hpk := hp.kind (kind?_eq hrp)
      refine (performs_build (GraphM.buildGeneralization_ok hrc (isLive_of_node? hrp)
        fun o ho => h.owner_live hrc ho) h ?_ rfl ?_ hm (by simp)).imp ?_
      · have hsource : rc.kind.isSource = true := by simp [NodeKind.isSource, hck]
        refine addable_of_role (fun s => by cases s <;> rfl) ⟨by simp, by simp, by simp⟩
          (fun _ => edge_owner h hrc hsource rfl _)
          (fun _ => owned_of_isSource (r := rc) h hrc hsource) ⟨?_, by simp, by simp⟩ rfl (by simp)
          rfl rfl
        intro y hy
        simp only [Node.classifiers, Option.toList_none, Option.toList_some, List.nil_append,
          List.append_nil, List.singleton_append, List.mem_cons, List.not_mem_nil, or_false] at hy
        rcases hy with rfl | rfl
        · exact ⟨_, kind?_eq hrp, hpk⟩
        · exact ⟨_, kind?_eq hrc, hck⟩
      · rintro (_ | ⟨k, c', p'⟩ | _ | _) hf
        · exact absurd hf.1 (by simp [NodeKind.family?])
        · obtain ⟨rfl, hsp, hge⟩ := hf
          rwa [← Option.some.inj hsp, ← Option.some.inj hge]
        · exact absurd hf.1 (by simp)
        · exact hf.elim
      · rintro n s' ⟨hu, rfl, hb⟩
        exact ⟨hu, once hb.kind?_new rfl⟩

/-- A dependency without stereotypes is told apart by nothing. -/
lemma not_fits_of_isDependency {g : Graph} (hk : r.kind.isDependency = true)
    (hst : r.stereotypes = []) (key : Key) : ¬g.Fits r key := by
  have hm : ∀ name, ¬g.Marked r name := by simp [Marked, hst]
  cases key <;> revert hk <;> cases hr : r.kind <;>
    simp [Fits, Connects, NodeKind.isDependency, NodeKind.family?, hr, hm]

lemma performs_buildDependency (h : s.graph.Sound) {kind : NodeKind} (hd : kind.isDependency = true)
    (hc : s.graph.Once c (·.isSource = true)) (hp : s.graph.Once p (·.isEndpoint = true))
    (name : Option String) (hm : kind ∈ made) :
    Performs (.within u made edited) s (change (.buildDependency c p kind name) s) fun n s' =>
      s.SameUnit s' ∧ s'.graph.kind? n = some kind ∧
        (s.graph.Free (.edge kind c p) → s'.graph.Vacant n) := by
  have hedge : kind.isEdge = true := by
    revert hd
    cases kind <;> decide
  cases hrp : s.graph.node? p with
  | none =>
    refine performs_refused (e := .unknownHandle p) ?_
    unfold GraphM.buildDependency
    simp only [hd, Bool.not_true, Bool.false_eq_true, if_false]
    exact bind_failed (by rw [GraphM.get_run, hrp])
  | some rp =>
    cases hrc : s.graph.node? c with
    | none =>
      refine performs_refused (e := .unknownHandle c) ?_
      unfold GraphM.buildDependency
      simp only [hd, Bool.not_true, Bool.false_eq_true, if_false]
      refine (bind_run (GraphM.get_ok hrp)).trans (bind_failed ?_)
      simp [GraphM.query, namespaceOf, get_of_none hrc]
    | some rc =>
      have hck := hc.kind (kind?_eq hrc)
      have hpk := hp.kind (kind?_eq hrp)
      have hadd : s.graph.Addable
          { kind, name, owner := rc.owner, clients := [c], suppliers := [p] } := by
        refine addable_of_role (fun s => by cases s <;> rfl) ?_
          (fun _ => edge_owner h hrc hck hedge _) (fun _ => owned_of_isSource (r := rc) h hrc hck)
          ⟨by simp [Node.classifiers], by simp, ?_⟩ rfl (by simp) ?_ ?_
        · refine ⟨fun _ => ⟨rfl, rfl⟩, fun _ => ⟨rfl, rfl⟩, fun _ => rfl⟩
        · intro y hy
          rcases List.mem_pair.mp hy with rfl | rfl
          · exact ⟨_, kind?_eq hrc, NodeKind.isEndpoint_of_isSource hck⟩
          · exact ⟨_, kind?_eq hrp, hpk⟩
        · exact NodeKind.role?_of_isEdge hedge
        · revert hd
          cases kind <;> simp [Node.isComplete, NodeKind.isDependency]
      have hunmarked : ∀ key, ¬s.graph.Fits
          { kind, name, owner := rc.owner, clients := [c], suppliers := [p] } key :=
        not_fits_of_isDependency hd rfl
      have hjoint : kind.isJoint = false := by
        revert hd
        cases kind <;> decide
      refine (performs_build (GraphM.buildDependency_ok name hd hrc (isLive_of_node? hrp)
        fun o ho => h.owner_live hrc ho) h hadd hjoint (fun key hf => absurd hf (hunmarked key))
        hm ?_).imp ?_
      · rintro rfl
        exact Bool.noConfusion hd
      · rintro n s' ⟨hu, rfl, hb⟩
        refine ⟨hu, hb.kind?_new, fun hfree r hr _ c' hc' p' hp' => ?_⟩
        obtain rfl := Option.some.inj (hb.new_node.symm.trans hr)
        rw [List.mem_singleton.mp hc', List.mem_singleton.mp hp']
        exact (hb.releases h hadd hjoint hunmarked).free hfree

lemma free_residence {g : Graph} {ns : List NodeId} (h : g.elementResidences n = .ok ns)
    (hempty : ns.isEmpty = true) : g.Free (.residence n) := by
  obtain ⟨_, _, h⟩ := except_bind_eq_ok.mp h
  obtain rfl := Except.ok.inj h
  intro m hm
  cases hm with
  | record hr hf =>
    obtain ⟨hk, hres⟩ := hf
    refine absurd (mem_select.mpr ⟨_, hr, ?_⟩) (List.isEmpty_iff.mp hempty ▸ List.not_mem_nil)
    simp [hk, hres]

lemma performs_buildResidence (h : s.graph.Sound) (n c : NodeId)
    (hn : s.graph.Once n (·.isClassifier = true)) (hc : s.graph.Once c (· = .component))
    (hfree : s.graph.Free (.residence n)) (hm : .elementResidence ∈ made) :
    Performs (.within u made edited) s (change (.buildResidence n c) s)
      fun _ s' => s.SameUnit s' := by
  cases hrn : s.graph.node? n with
  | none =>
    refine performs_refused (e := .unknownHandle n) ?_
    unfold GraphM.buildResidence
    exact bind_failed (by rw [GraphM.get_run, hrn])
  | some rn =>
    cases hrc : s.graph.node? c with
    | none =>
      refine performs_refused (e := .unknownHandle c) ?_
      unfold GraphM.buildResidence
      exact (bind_run (GraphM.get_ok hrn)).trans (bind_failed (by rw [GraphM.get_run, hrc]))
    | some rc =>
      refine (performs_build (GraphM.buildResidence_ok (isLive_of_node? hrn)
        (isLive_of_node? hrc)) h ?_ rfl ?_ hm (by simp)).imp fun _ _ h => h.1
      · refine addable_of_role (fun s => by cases s <;> rfl) ⟨by simp, by simp, by simp⟩ (by simp)
          (absurd rfl) ⟨?_, ?_, by simp⟩ rfl (by simp) rfl rfl
        · intro y hy
          obtain rfl : y = n := by simpa [Node.classifiers] using hy
          exact ⟨_, kind?_eq hrn, hn.kind (kind?_eq hrn)⟩
        · rintro y hy
          obtain rfl : c = y := Option.some.inj hy
          rw [kind?_eq hrc, hc.kind (kind?_eq hrc)]
      · rintro (_ | _ | c' | _) hf
        · exact absurd hf.1 (by simp [NodeKind.family?])
        · exact hf.2.elim
        · rwa [← Option.some.inj hf.2]
        · exact hf.elim

lemma performs_edgeName (source target : NodeId) :
    Performs P s (edgeName u source target s) fun _ s' => s' = s := by
  unfold edgeName
  split_ifs
  · exact bind_query fun _ _ => bind_query fun _ _ => Performs.answer rfl
  · exact Performs.answer rfl

/-- Giving a name to an edge reads the graph alone. -/
lemma eq_of_edgeName {source target : NodeId} {name : Option String}
    (hrun : edgeName u source target s = .ok name s') : s' = s :=
  ((performs_edgeName (P := ⊤) source target).ok hrun).2

lemma free_generalization {g : Graph} (h : g.generalizationBetween? c p = none) :
    g.Free (.edge .generalization c p) := by
  rintro m (⟨hr, hk, hc⟩ | _)
  rename_i r
  unfold Connects at hc
  rw [hk] at hc
  refine List.find?_eq_none.mp h m (mem_select.mpr ⟨r, hr, ?_⟩) ?_
  · simp [hk, hc.1]
  · simp [hr, hc.2]

lemma performs_upsertGeneralization (h : s.Sound) (hc : s.graph.Once c (·.isClassifier = true))
    (hp : s.graph.Once p (·.isClassifier = true)) :
    Performs (.within u [.generalization] []) s (upsertGeneralization c p s)
      fun _ s' => s.SameUnit s' := by
  have next : ∀ gen t, t.Sound → s.SameUnit t → t.graph.Once gen (· = .generalization) →
      Performs (.within u [.generalization] []) t ((do
        change (.setNamespace gen (some (← get).scopes.package))
        return gen : ImportM NodeId) t) fun _ s' => s.SameUnit s' := by
    intro gen t ht hu hgen
    obtain ⟨k, hk, hkp⟩ := ht.package
    refine Performs.bind_same (t := t) (a := t) rfl rfl (Performs.bind (performs_setNamespace
      ht.graph (hgen.imp ?_) hk hkp ?_) fun _ t' _ hu' => Performs.answer (hu.trans hu'))
    · rintro k rfl
      exact ⟨by simp, Or.inl rfl⟩
    · intro r hr hk
      exact absurd ((hgen.kind (kind?_eq hr)).symm.trans hk) (by simp)
  unfold upsertGeneralization
  refine Performs.bind_same (t := s) (a := s) rfl rfl ?_
  cases hfind : s.graph.generalizationBetween? c p with
  | some gen =>
    refine next gen s h (.refl s) ?_
    obtain ⟨hg, _⟩ := findIn_eq_some hfind
    obtain ⟨r, hr, hk⟩ := mem_select.mp hg
    exact once (kind?_eq hr) (by simp_all)
  | none =>
    refine Performs.bind (performs_buildGeneralization h.graph hc hp
      (free_generalization hfind) (by simp)) ?_
    rintro gen t hs ⟨hu, hgen⟩
    refine bind_register (bind_query fun _ _ => bind_query fun _ _ => bind_emit ?_)
    exact next gen _ (h.steps hs ⟨hu.scopes, hu.component⟩) ⟨hu.scopes, hu.component⟩ hgen

lemma suppliersOf_eq_ok {g : Graph} {d : NodeId} {ns : List NodeId} (h : g.suppliersOf d = .ok ns) :
    ∃ r, g.node? d = some r ∧ r.suppliers = ns := by
  obtain ⟨r, hr, h⟩ := except_bind_eq_ok.mp h
  exact ⟨r, get_eq_ok.mp hr, Except.ok.inj h⟩

lemma hasStereotype_eq_ok {g : Graph} {d : NodeId} {name : String} {b : Bool} (hr : g.node? d = some r)
    (h : g.hasStereotype d name = .ok b) : g.Marked r name ↔ b = true := by
  obtain ⟨sts, hsts, h⟩ := except_bind_eq_ok.mp h
  obtain ⟨r', hr', hst⟩ := except_bind_eq_ok.mp hsts
  obtain rfl := Option.some.inj (hr.symm.trans (get_eq_ok.mp hr'))
  obtain rfl := Except.ok.inj hst
  obtain ⟨found, hfound, h⟩ := except_bind_eq_ok.mp h
  obtain rfl := findIn_of_followFirst hfound
  obtain rfl := Except.ok.inj h
  simp [Marked, findIn, List.find?_isSome, Option.any_eq_true]

lemma mem_clientDependencies {g : Graph} {deps : List NodeId}
    (h : g.clientDependencies c = .ok deps) {d : NodeId} :
    d ∈ deps ↔ ∃ r, g.node? d = some r ∧ r.kind.isDependency = true ∧ c ∈ r.clients := by
  obtain ⟨_, _, hsel⟩ := except_bind_eq_ok.mp h
  obtain rfl := Except.ok.inj hsel
  simp [mem_select]

lemma once_of_clientDependencies {g : Graph} {deps : List NodeId}
    (h : g.clientDependencies c = .ok deps) {d : NodeId} (hd : d ∈ deps) :
    g.Once d (·.isDependency = true) := by
  obtain ⟨r, hr, hk, -⟩ := (mem_clientDependencies h).mp hd
  exact once (kind?_eq hr) hk

/-- What realizes a supplier is found among the dependencies. None of them is without suppliers. -/
lemma performs_findRealization (h : s.graph.Sound) (c p : NodeId) {deps : List NodeId}
    (hd : ∀ d ∈ deps, s.graph.Once d (·.isDependency = true)) :
    Performs P s (findRealization c p deps s) fun found t => t = s ∧
      (∀ d, found = some d → d ∈ deps) ∧
      (found = none → ∀ d ∈ deps, ¬s.graph.Bears d (.edge .abstraction c p)) := by
  induction deps with
  | nil => exact Performs.answer ⟨rfl, by simp, by simp⟩
  | cons d deps ih =>
    unfold findRealization
    refine bind_query fun suppliers hsup => bind_query fun realizes hreal => ?_
    obtain ⟨r, hr, rfl⟩ := suppliersOf_eq_ok hsup
    obtain ⟨c', p', -, hsuppliers⟩ := (h.proper hr).dependency ((hd d (by simp)).kind (kind?_eq hr))
    split_ifs with hempty hfound
    · simp [hsuppliers] at hempty
    · exact Performs.answer ⟨rfl, fun d' hd' => by simp [Option.some.inj hd'], by simp⟩
    · refine (ih fun d hd' => hd d (by simp [hd'])).imp ?_
      rintro found t ⟨rfl, hf, hnone⟩
      refine ⟨rfl, fun d hd => by simp [hf d hd], fun hfn d' hd' hb => ?_⟩
      rcases List.mem_cons.mp hd' with rfl | hd'
      · rcases hb with ⟨hr', hk, hc⟩ | _
        obtain rfl := Option.some.inj (hr.symm.trans hr')
        unfold Connects at hc
        rw [hk] at hc
        exact hfound (by simp [hc.2.1, (hasStereotype_eq_ok hr hreal).mp hc.2.2])
      · exact hnone hfn d' hd' hb

/-- Looking for a realization reads the graph alone. -/
lemma eq_of_findRealization (h : s.graph.Sound) {deps : List NodeId}
    (hdeps : s.graph.clientDependencies c = .ok deps) {found : Option NodeId}
    (hrun : findRealization c p deps s = .ok found s') : s' = s :=
  ((performs_findRealization (P := ⊤) h c p fun _ => once_of_clientDependencies hdeps).ok hrun).2.1

lemma performs_upsertRealization (h : s.Sound) (hc : s.graph.Once c (·.isClassifier = true))
    (hp : s.graph.Once p (·.isClassifier = true)) :
    Performs (.within u [.abstraction, .dependency, .stereotype]
      [.abstraction, .dependency, .stereotype]) s (upsertRealization u c p s)
      fun _ s' => s.SameUnit s' := by
  have next : ∀ dep t, t.Sound → s.SameUnit t → t.graph.Once dep (·.isDependency = true) →
      Performs (.within u [.abstraction, .dependency, .stereotype]
        [.abstraction, .dependency, .stereotype]) t ((do
        change (.setNamespace dep (some (← get).scopes.package))
        return dep : ImportM NodeId) t) fun _ s' => s.SameUnit s' := by
    intro dep t ht hu hdep
    obtain ⟨k, hk, hkp⟩ := ht.package
    refine Performs.bind_same (t := t) (a := t) rfl rfl (Performs.bind (performs_setNamespace
      ht.graph (hdep.imp ?_) hk hkp ?_) fun _ t' _ hu' => Performs.answer (hu.trans hu'))
    · rintro (_ | _) <;> simp [NodeKind.isDependency, NodeKind.isEdge]
    · intro r hr hk
      have := hdep.kind (kind?_eq hr)
      rw [hk] at this
      exact Bool.noConfusion this
  unfold upsertRealization
  refine bind_query fun deps hdeps => ?_
  have hdep (d) (hd : d ∈ deps) := once_of_clientDependencies hdeps hd
  refine Performs.bind (performs_findRealization h.graph c p hdep) ?_
  rintro (_ | d) t - ⟨rfl, hf, hnone⟩
  · have hfree : t.graph.Free (.edge .abstraction c p) := by
      intro m hm
      refine hnone rfl m ?_ hm
      rcases hm with ⟨hr, hk, hc⟩ | _
      unfold Connects at hc
      rw [hk] at hc
      exact (mem_clientDependencies hdeps).mpr ⟨_, hr, by simp [hk, NodeKind.isDependency], hc.1⟩
    refine Performs.bind (performs_edgeName c p) ?_
    rintro name _ _ rfl
    refine Performs.bind (performs_buildDependency h.graph rfl (hc.imp ?_)
      (hp.imp fun _ => NodeKind.isEndpoint_of_isClassifier) name (by simp)) ?_
    · intro k hk
      simp [NodeKind.isSource, hk]
    rintro dep t₁ hs₁ ⟨hu₁, hk₁, hv₁⟩
    have ht₁ := h.steps hs₁ hu₁
    have hdep₁ : t₁.graph.Once dep (· = .abstraction) := once hk₁ rfl
    refine Performs.bind (performs_stereotype ht₁.graph _ _ (by simp) (by simp)) ?_
    rintro st t₂ hs₂ ⟨hu₂, hby⟩
    have ht₂ := ht₁.steps hs₂ hu₂
    refine Performs.bind (performs_addStereotype ht₂.graph ((hdep₁.steps hs₂).imp ?_)
      (hby.vacant (isLive_of_kind? hk₁) (hv₁ hfree)) st) fun _ t₃ hs₃ hu₃ => ?_
    · rintro k rfl
      simp
    refine bind_register (bind_emit (next dep _ ((ht₂.steps hs₃ hu₃).steps (P := ⊥) .refl ⟨rfl, rfl⟩)
      ?_ ?_))
    · exact (hu₁.trans hu₂).trans ⟨hu₃.scopes, hu₃.component⟩
    · exact ((hdep₁.steps hs₂).steps hs₃).imp fun k hk => by simp [hk, NodeKind.isDependency]
  · exact next d t h (.refl t) (hdep d (hf d rfl))

/-- What finding and building the edges that a unit declares may touch. -/
lemma performs_inheritFrom (h : s.Sound) (hc : s.graph.Once c (·.isClassifier = true))
    (mode : ResolveMode) (name : String) :
    Performs (.within u [.package, .generalization] []) s (inheritFrom u c mode name s)
      fun _ s' => s.SameUnit s' := by
  unfold inheritFrom
  refine Performs.bind ((performs_resolve name mode _ h.graph).weaken
    (Permit.within_mono (by simp) (by simp))) ?_
  rintro (_ | p) t hs ⟨hu, hp⟩
  · exact Performs.answer hu
  · obtain ⟨k, hk, hacc⟩ := hp p rfl
    refine Performs.bind ((performs_upsertGeneralization (h.steps hs hu) (hc.steps hs)
      (once hk (ResolveMode.isClassifier_of_accepts hacc))).weaken
      (Permit.within_mono (by simp) (by simp))) fun _ t' _ hu' => ?_
    exact Performs.answer (hu.trans hu')

lemma performs_realize (h : s.Sound) (hc : s.graph.Once c (·.isClassifier = true))
    (name : String) :
    Performs (.within u [.package, .abstraction, .dependency, .stereotype]
      [.abstraction, .dependency, .stereotype]) s (realize u c name s)
      fun _ s' => s.SameUnit s' := by
  unfold realize
  refine Performs.bind ((performs_resolve name .interfaceOnly _ h.graph).weaken
    (Permit.within_mono (by simp) (by simp))) ?_
  rintro (_ | p) t hs ⟨hu, hp⟩
  · exact Performs.answer hu
  · obtain ⟨k, hk, hacc⟩ := hp p rfl
    refine Performs.bind ((performs_upsertRealization (h.steps hs hu) (hc.steps hs)
      (once hk (ResolveMode.isClassifier_of_accepts hacc))).weaken
      (Permit.within_mono (by simp) (by simp))) fun _ t' _ hu' => ?_
    exact Performs.answer (hu.trans hu')

lemma performs_addInheritance (h : s.Sound) (hc : s.graph.Once c (·.isClassifier = true))
    (kind : ClassifierKind) (superclass : Option String) (interfaces : List String) :
    Performs (.within u [.package, .generalization, .abstraction, .dependency, .stereotype]
      [.abstraction, .dependency, .stereotype]) s
      (addInheritance u c kind superclass interfaces s) fun _ s' => s.SameUnit s' := by
  have each : ∀ {f : String → ImportM Unit} {t : UnitState}, t.Sound → s.SameUnit t →
      t.graph.Once c (·.isClassifier = true) →
      (∀ name t, t.Sound → t.graph.Once c (·.isClassifier = true) →
        Performs (.within u [.package, .generalization, .abstraction, .dependency, .stereotype]
          [.abstraction, .dependency, .stereotype]) t (f name t) fun _ t' => t.SameUnit t') →
      Performs (.within u [.package, .generalization, .abstraction, .dependency, .stereotype]
        [.abstraction, .dependency, .stereotype]) t ((interfaces.forM f : ImportM PUnit) t)
        fun _ t' => s.SameUnit t' := by
    intro f t ht hu hc hf
    refine (performs_forM (I := fun t => t.Sound ∧ s.SameUnit t ∧
      t.graph.Once c (·.isClassifier = true)) ?_ ⟨ht, hu, hc⟩).imp fun _ _ h => h.2.1
    rintro name _ t ⟨ht, hu, hc⟩
    have hrun := hf name t ht hc
    exact ⟨hrun.ends.imp fun _ t' ⟨hs, hu'⟩ => ⟨hs, ht.steps hs hu', hu.trans hu', hc.steps hs⟩⟩
  have inherits : ∀ mode name t, t.Sound → t.graph.Once c (·.isClassifier = true) →
      Performs (.within u [.package, .generalization, .abstraction, .dependency, .stereotype]
        [.abstraction, .dependency, .stereotype]) t (inheritFrom u c mode name t)
        fun _ t' => t.SameUnit t' := fun mode name t ht hc =>
    (performs_inheritFrom ht hc mode name).weaken (Permit.within_mono (by simp) (by simp))
  have realizes : ∀ name t, t.Sound → t.graph.Once c (·.isClassifier = true) →
      Performs (.within u [.package, .generalization, .abstraction, .dependency, .stereotype]
        [.abstraction, .dependency, .stereotype]) t (realize u c name t)
        fun _ t' => t.SameUnit t' := fun name t ht hc =>
    (performs_realize ht hc name).weaken (Permit.within_mono (by simp) (by simp))
  unfold addInheritance
  split_ifs
  · cases kind with
    | interfaceType => exact each h (.refl s) hc (inherits _)
    | enumeration => exact each h (.refl s) hc realizes
    | classType =>
      dsimp only
      cases superclass.filter (· ≠ "") with
      | none => exact each h (.refl s) hc realizes
      | some name =>
        refine Performs.bind (inherits _ name s h hc) fun _ t hs hu => ?_
        exact each (h.steps hs hu) hu (hc.steps hs) realizes
  · exact Performs.answer (.refl s)

/-- There is no import from one element to another if none is found among what connects them. -/
lemma free_import {g : Graph} {deps : List NodeId} (hd : g.dependenciesBetween p c = .ok deps)
    (h : g.importAmong? deps = .ok none) : g.Free (.edge .dependency c p) := by
  have unmarked : ∀ {deps : List NodeId}, g.importAmong? deps = .ok none → ∀ d ∈ deps,
      ∀ {r}, g.node? d = some r → ¬g.Marked r Profile.importStereotype := by
    intro deps
    induction deps with
    | nil => simp
    | cons d deps ih =>
      intro h d' hd' r hr
      obtain ⟨b, hb, h⟩ := except_bind_eq_ok.mp h
      cases b with
      | true => exact absurd (Except.ok.inj h) (by simp)
      | false =>
        rcases List.mem_cons.mp hd' with rfl | hd'
        · rw [hasStereotype_eq_ok hr hb]
          simp
        · exact ih h d' hd' hr
  obtain ⟨cs, hcs, hd⟩ := except_bind_eq_ok.mp hd
  obtain ⟨_, _, hcs⟩ := except_bind_eq_ok.mp hcs
  obtain rfl := Except.ok.inj hcs
  obtain rfl := Except.ok.inj hd
  rintro m (⟨hr, hk, hc⟩ | _)
  unfold Connects at hc
  rw [hk] at hc
  refine unmarked h m ?_ hr hc.2.2
  refine List.mem_filter.mpr ⟨mem_select.mpr ⟨_, hr, ?_⟩, ?_⟩
  · simp [hk, NodeKind.isDependency, hc.1]
  · simp [hr, hc.2.1]

lemma performs_buildImport (h : s.Sound) (hp : s.graph.Once p (·.isEndpoint = true)) :
    Performs (.within u [.dependency, .stereotype] [.dependency, .stereotype]) s
      (buildImport u p s) fun _ s' => s.SameUnit s' := by
  unfold buildImport
  refine Performs.bind_same (t := s) (a := s) rfl rfl ?_
  cases hcomp : s.component with
  | none => exact Performs.failure
  | some c =>
    refine bind_query fun deps hdeps => bind_query fun found hfound => ?_
    cases found with
    | some dep => exact Performs.answer (.refl s)
    | none =>
      refine Performs.bind (performs_edgeName c p) ?_
      rintro name _ _ rfl
      refine Performs.bind (performs_buildDependency h.graph rfl ((h.component c hcomp).imp ?_) hp
        name (by simp)) ?_
      · rintro k rfl
        rfl
      rintro dep t₁ hs₁ ⟨hu₁, hk₁, hv₁⟩
      have ht₁ := h.steps hs₁ hu₁
      have hdep₁ : t₁.graph.Once dep (· = .dependency) := once hk₁ rfl
      refine Performs.bind (performs_stereotype ht₁.graph _ _ (by simp) (by simp))
        fun st t₂ hs₂ ⟨hu₂, hby⟩ => ?_
      have ht₂ := ht₁.steps hs₂ hu₂
      refine Performs.bind (performs_addStereotype ht₂.graph ((hdep₁.steps hs₂).imp ?_)
        (hby.vacant (isLive_of_kind? hk₁) (hv₁ (free_import hdeps hfound))) st)
        fun _ t₃ hs₃ hu₃ => bind_register (bind_emit (Performs.answer ?_))
      · rintro k rfl
        simp
      · exact (hu₁.trans hu₂).trans ⟨hu₃.scopes, hu₃.component⟩

end ImportM

end DeclGraph
