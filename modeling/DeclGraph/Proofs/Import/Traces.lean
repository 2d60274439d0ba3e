import DeclGraph.Proofs.Import.Addition
import DeclGraph.Proofs.Import.Recollection
import DeclGraph.Proofs.Import.Supersession

/-! What is left of an earlier declaration when an element is declared again. -/

namespace DeclGraph

open DeclGraph.Graph

namespace GraphM

variable {g g' : Graph} {c op n : NodeId} {type : Option NodeId} {name : Option String}
  {direction : Direction}

lemma built_of_buildAttribute (hc : g.isLive c = true)
    (h : buildAttribute c type name g = .ok n g') :
    n = g.next ∧ g.Built { kind := .attr, name, owner := some c, type } g' := by
  obtain ⟨g₁, hcreate, hb⟩ := create_under g .attr name hc
  unfold buildAttribute at h
  rw [bind_run hcreate] at h
  obtain ⟨_, g₂, htype, h⟩ := bind_eq_ok.mp h
  cases h
  obtain ⟨-, rfl⟩ := setType_eq_ok htype
  exact ⟨rfl, hb.modify (f := ({ · with type })) rfl rfl⟩

lemma built_of_buildParameter (hop : g.isLive op = true)
    (h : buildParameter op type name direction g = .ok n g') :
    n = g.next ∧ g.Built
      { kind := .parameter, name, owner := some op, type, direction := some direction } g' := by
  obtain ⟨g₁, hcreate, hb⟩ := create_under g .parameter name hop
  unfold buildParameter at h
  rw [bind_run hcreate] at h
  obtain ⟨_, g₂, htype, h⟩ := bind_eq_ok.mp h
  obtain ⟨_, g₃, hdirection, h⟩ := bind_eq_ok.mp h
  cases h
  obtain ⟨-, rfl⟩ := setType_eq_ok htype
  obtain ⟨-, rfl⟩ := update_eq_ok hdirection
  have hb₁ := hb.modify (f := ({ · with type })) rfl rfl
  exact ⟨rfl, hb₁.modify (f := ({ · with direction := some direction })) rfl rfl⟩

end GraphM

namespace Traits

/-- What a field says about its attribute. An initial value stays unless there is another. -/
def ofField (old : Traits) (modifiers : ModifierSet) (type : Option NodeId) (multiplicity : String)
    (initializer : Option String) : Traits :=
  { old with
    visibility := some modifiers.visibility
    multiplicity := some multiplicity
    type
    isReadOnly := modifiers.isReadOnly
    initialValue := (initializer.map onOneLine).or old.initialValue }

/-- What a field says about the association end that stands for it. -/
def ofEnd (old : Traits) (modifiers : ModifierSet) (type : NodeId) (multiplicity : String) :
    Traits :=
  { old with
    visibility := some modifiers.visibility
    multiplicity := some multiplicity
    type := some type }

/-- What an operation says. Its stereotypes are those that it has, with that of a constructor if it
is declared as one. -/
def ofOperation (old : Traits) (modifiers : ModifierSet) (mark : Option NodeId) : Traits :=
  { old with
    visibility := some modifiers.visibility
    isAbstract := modifiers.isAbstract
    isRoot := false
    stereotypes := old.stereotypes ∪ mark.toFinset }

end Traits

namespace ImportM

variable {s t : UnitState} {u : UnitContext} {c n p : NodeId} {k : NodeKind} {a : Traits}
  {F : Traits → Traits} {f : Node → Node} {r : Node} {name multiplicity : String}
  {modifiers : ModifierSet}
  {type : Option NodeId} {initializer doc : Option String} {scope : Scope} {rest : List Scope}

lemma change_eq_ok {α : Type} {m : GraphM α} {x : α} (h : change m s = .ok x t) :
    ∃ g, m s.graph = .ok x g ∧ t = { s with graph := g } := by
  unfold change at h
  cases hm : m s.graph with
  | error e g =>
    rw [hm] at h
    cases h
  | ok y g =>
    rw [hm] at h
    cases h
    exact ⟨g, rfl, rfl⟩

lemma says_update (h : s.graph.Says n k a) (hrun : change (.update n f) s = .ok () t)
    (hk : ∀ r, (f r).kind = r.kind) (hf : ∀ r, (f r).traits = F r.traits) :
    t.graph.Says n k (F a) := by
  obtain ⟨g, hg, rfl⟩ := change_eq_ok hrun
  obtain ⟨-, rfl⟩ := GraphM.update_eq_ok hg
  exact h.modify hk hf

/-- Describing an element leaves the unit in order. -/
lemma sound_update (u : UnitContext) (hs : s.Sound) (hk : s.graph.kind? n = some k)
    (hrun : change (.update n f) s = .ok () t) (hf : ∀ r, (f r).essence = r.essence) : t.Sound := by
  have hn : s.graph.Once n (· ∈ [k]) := once hk (List.mem_singleton.mpr rfl)
  have hplain : Performs (.within u [] [k]) s (change (.update n f) s) fun _ s' => s.SameUnit s' :=
    performs_plain hs.graph hn hf
  obtain ⟨hsteps, hu⟩ := hplain.ok hrun
  exact hs.steps hsteps hu

lemma says_setType (h : s.graph.Says n k a) (hrun : change (.setType n type) s = .ok () t) :
    t.graph.Says n k { a with type } := by
  obtain ⟨g, hg, rfl⟩ := change_eq_ok hrun
  obtain ⟨-, rfl⟩ := GraphM.setType_eq_ok hg
  exact h.modify (F := ({ · with type })) (fun _ => rfl) fun _ => rfl

/-- Programs that say nothing about elements. -/
lemma says_after {α : Type} {x : ImportM α} [hx : Obeys (UnitState.Relates KeepsFaces) x] {b : α}
    (h : s.graph.Says n k a) (hrun : x s = .ok b t) : t.graph.Says n k a :=
  KeepsFaces.says (hx.ok hrun) h

/-! Fields -/

lemma says_upsertAttribute (hrun : upsertAttribute c type name s = .ok n t) :
    s.graph.Meets n .attr ∧
      ∃ a, t.graph.Says n .attr a ∧ { a with type } = { s.graph.traitsOf n with type } := by
  unfold upsertAttribute at hrun
  obtain ⟨found, s₁, hfound, hrun⟩ := bind_eq_ok.mp hrun
  obtain ⟨hfound, rfl⟩ := query_eq_ok.mp hfound
  obtain ⟨rc, hrc, hfind⟩ := feature?_eq_ok hfound
  cases found with
  | some m =>
    cases hrun
    obtain ⟨-, r, hr, hq⟩ := findIn_eq_some hfind.symm
    simp only [Bool.and_eq_true, decide_eq_true_eq] at hq
    exact ⟨hq.1 ▸ meets_node hr, r.traits, ⟨r, hr, hq.1, rfl⟩, by rw [traitsOf_node hr]⟩
  | none =>
    obtain ⟨m, s₂, hbuild, hrun⟩ := bind_eq_ok.mp hrun
    cases hrun
    obtain ⟨g, hg, rfl⟩ := change_eq_ok hbuild
    obtain ⟨rfl, hb⟩ := GraphM.built_of_buildAttribute (isLive_of_node? hrc) hg
    refine ⟨meets_none node?_next, _, ⟨_, hb.new_node, rfl, rfl⟩, ?_⟩
    rw [traitsOf_none node?_next]
    rfl

lemma says_addPlainField
    (hrun : addPlainField modifiers c type multiplicity name initializer doc s = .ok n t) :
    s.graph.Meets n .attr ∧ t.graph.Says n .attr
      ((s.graph.traitsOf n).ofField modifiers type multiplicity initializer) := by
  unfold addPlainField at hrun
  obtain ⟨m, s₁, hupsert, hrun⟩ := bind_eq_ok.mp hrun
  obtain ⟨hm, a, ha, hold⟩ := says_upsertAttribute hupsert
  obtain ⟨_, s₂, htouch, hrun⟩ := bind_eq_ok.mp hrun
  obtain ⟨_, s₃, hvisibility, hrun⟩ := bind_eq_ok.mp hrun
  obtain ⟨_, s₄, hmultiplicity, hrun⟩ := bind_eq_ok.mp hrun
  obtain ⟨_, s₅, htype, hrun⟩ := bind_eq_ok.mp hrun
  obtain ⟨_, s₆, hreadOnly, hrun⟩ := bind_eq_ok.mp hrun
  have h := says_after ha htouch
  replace h := says_update (F := ({ · with visibility := some modifiers.visibility })) h hvisibility
    (fun _ => rfl) fun _ => rfl
  replace h := says_update (F := ({ · with multiplicity := some multiplicity })) h hmultiplicity
    (fun _ => rfl) fun _ => rfl
  replace h := says_setType h htype
  replace h := says_update (F := ({ · with isReadOnly := modifiers.isReadOnly })) h hreadOnly
    (fun _ => rfl) fun _ => rfl
  have hsaid : a.ofField modifiers type multiplicity initializer =
      (s.graph.traitsOf m).ofField modifiers type multiplicity initializer :=
    congrArg (·.ofField modifiers type multiplicity initializer) hold
  cases initializer with
  | none =>
    obtain ⟨_, s₇, hdoc, hrun⟩ := bind_eq_ok.mp hrun
    cases hrun
    exact ⟨hm, hsaid ▸ says_after h hdoc⟩
  | some text =>
    obtain ⟨_, s₇, hinitial, hrun⟩ := bind_eq_ok.mp hrun
    obtain ⟨_, s₈, hdoc, hrun⟩ := bind_eq_ok.mp hrun
    cases hrun
    replace h := says_update (F := ({ · with initialValue := some (onOneLine text) })) h hinitial
      (fun _ => rfl) fun _ => rfl
    exact ⟨hm, hsaid ▸ says_after h hdoc⟩

lemma says_upsertFieldEnd (h : s.graph.Sound) (hc : s.graph.isLive c = true)
    (hp : s.graph.isLive p = true) (hrun : upsertFieldEnd u c p name s = .ok n t) :
    s.graph.Meets n .associationEnd ∧ ∃ a, t.graph.Says n .associationEnd a ∧
      { a with type := some p } = { s.graph.traitsOf n with type := some p } := by
  unfold upsertFieldEnd at hrun
  obtain ⟨found, s₁, hfound, hrun⟩ := bind_eq_ok.mp hrun
  obtain ⟨hfound, rfl⟩ := query_eq_ok.mp hfound
  cases found with
  | some m =>
    cases hrun
    obtain ⟨r, a, hr, hend⟩ := (fieldEnd_of_found h hfound).record
    exact ⟨hend.kind ▸ meets_node hr, r.traits, ⟨r, hr, hend.kind, rfl⟩,
      by rw [traitsOf_node hr]⟩
  | none =>
    obtain ⟨edge, s₂, hedge, hbuilds⟩ := bind_eq_ok.mp hrun
    obtain rfl : s₁ = s₂ := (eq_of_edgeName hedge).symm
    obtain ⟨rc, hrc⟩ := isLive_iff.mp hc
    obtain ⟨g₁, g₂, g₃, hbuild, hb₁, hb₂, hb₃⟩ := GraphM.buildAssociation_ok edge true false hp hrc
      fun o ho => h.owner_live hrc ho
    rw [bind_run (change_ok hbuild), bind_run (show register _ _ = .ok () _ from rfl),
      bind_run (show emit _ _ = .ok () _ from rfl)] at hbuilds
    have hend : g₃.associationEnd? p s₁.graph.next = .ok (some g₁.next) :=
      associationEnd?_of_built rfl rfl hb₁ hb₂ hb₃ ⟨rfl, rfl⟩ ⟨rfl, rfl⟩ rfl
    rw [bind_run (query_ok hend)] at hbuilds
    cases hbuilds
    have hnew : s₁.graph.node? g₁.next = none := by
      by_contra hlive
      have hlt := lt_next (Option.isSome_iff_ne_none.mpr hlive)
      rw [hb₁.next] at hlt
      exact absurd hlt (Int.lt_succ _).not_gt
    obtain ⟨x, hx, hbare, -⟩ := hb₃.old_bare hb₂.new_node
    refine ⟨meets_none hnew, _, ⟨x, hx, (Node.bare_congr hbare).1, Node.traits_of_bare hbare⟩, ?_⟩
    rw [traitsOf_none hnew]
    rfl

lemma says_addAssociatedField (h : s.graph.Sound) (hc : s.graph.isLive c = true)
    (hp : s.graph.isLive p = true)
    (hrun : addAssociatedField u modifiers c p multiplicity name doc s = .ok n t) :
    s.graph.Meets n .associationEnd ∧
      t.graph.Says n .associationEnd ((s.graph.traitsOf n).ofEnd modifiers p multiplicity) := by
  unfold addAssociatedField at hrun
  obtain ⟨m, s₁, hupsert, hrun⟩ := bind_eq_ok.mp hrun
  obtain ⟨hm, a, ha, hold⟩ := says_upsertFieldEnd h hc hp hupsert
  obtain ⟨_, s₂, hvisibility, hrun⟩ := bind_eq_ok.mp hrun
  obtain ⟨_, s₃, hmultiplicity, hrun⟩ := bind_eq_ok.mp hrun
  obtain ⟨_, s₄, htype, hrun⟩ := bind_eq_ok.mp hrun
  obtain ⟨_, s₅, hname, hrun⟩ := bind_eq_ok.mp hrun
  have hsaid : a.ofEnd modifiers p multiplicity =
      (s.graph.traitsOf m).ofEnd modifiers p multiplicity :=
    congrArg (·.ofEnd modifiers p multiplicity) hold
  have h := says_update (F := ({ · with visibility := some modifiers.visibility })) ha hvisibility
    (fun _ => rfl) fun _ => rfl
  replace h := says_update (F := ({ · with multiplicity := some multiplicity })) h hmultiplicity
    (fun _ => rfl) fun _ => rfl
  replace h := says_update (F := id) (says_setType h htype) hname (fun _ => rfl) fun _ => rfl
  have documented : ∀ {s' t' : UnitState}, s'.graph.Says m .associationEnd
      (a.ofEnd modifiers p multiplicity) → (do
        let _ ← change (.addDocumentation m doc)
        return m : ImportM NodeId) s' = .ok n t' →
      s.graph.Meets n .associationEnd ∧
        t'.graph.Says n .associationEnd ((s.graph.traitsOf n).ofEnd modifiers p multiplicity) := by
    intro s' t' hstated hrun
    obtain ⟨_, s'', hdoc, hrun⟩ := bind_eq_ok.mp hrun
    cases hrun
    exact ⟨hm, hsaid ▸ says_after hstated hdoc⟩
  split_ifs at hrun
  · obtain ⟨_, s₆, hnavigable, hrun⟩ := bind_eq_ok.mp hrun
    exact documented (says_update (F := id) h hnavigable (fun _ => rfl) fun _ => rfl) hrun
  · exact documented h hrun

/-- The type of a field and its multiplicity. -/
def fieldType (u : UnitContext) (type : Option String) : ImportM (Option NodeId × String) :=
  match type with
  | none => return (none, single)
  | some type => do
    let (element, multiplicity) := elementType u.settings.arraysAsDatatype type
    return (← resolve u element .any "an attribute", multiplicity)

instance adding_fieldType {R : Graph → Graph → Prop} [Adding R] (type : Option String) :
    Obeys (UnitState.Relates R) (fieldType u type) := by
  unfold fieldType
  cases type <;> infer_instance

lemma sound_fieldType {spelling : Option String} (h : s.Sound)
    (hrun : fieldType u spelling s = .ok (type, multiplicity) t) :
    t.graph.Sound ∧ ∀ p, type = some p → t.graph.isLive p = true := by
  cases spelling with
  | none =>
    cases hrun
    exact ⟨h.graph, by simp⟩
  | some spelling =>
    obtain ⟨found, s₁, hres, hrun⟩ := bind_eq_ok.mp hrun
    cases hrun
    obtain ⟨hs, -, hfound⟩ := (performs_resolve _ _ _ h.graph).ok hres
    refine ⟨h.graph.steps hs, fun p hp => ?_⟩
    obtain ⟨k, hk, -⟩ := hfound p hp
    exact isLive_of_kind? hk

/-- A field of a type becomes an attribute or an association end. -/
def addFieldOf (u : UnitContext) (modifiers : ModifierSet) (c : NodeId)
    (type : Option NodeId × String) (name : String) (initializer doc : Option String) :
    ImportM (Option NodeId) := do
  match ← associatedType? u type.1 with
  | none => some <$> addPlainField modifiers c type.1 type.2 name initializer doc
  | some p => some <$> addAssociatedField u modifiers c p type.2 name doc

/-- What is said about the element that a field has become: an attribute, or an association end if
the type is to be associated. -/
lemma says_addAttribute {spelling : Option String} (h : s.Nested)
    (hb : u.pass.buildsReferences = true)
    (hrun : addAttribute u modifiers spelling name initializer doc s = .ok (some n) t) :
    ∃ type multiplicity s', fieldType u spelling s = .ok (type, multiplicity) s' ∧
      match if isPlain u s'.graph type then none else type with
      | none => t.graph.Says n .attr
          ((s.graph.traitsOf n).ofField modifiers type multiplicity initializer)
      | some p => t.graph.Says n .associationEnd
          ((s.graph.traitsOf n).ofEnd modifiers p multiplicity) := by
  unfold addAttribute at hrun
  cases ho : s.scopes.opened with
  | nil =>
    rw [bind_failed (requireClassifier_closed ho _)] at hrun
    cases hrun
  | cons scope rest =>
    rw [bind_run (requireClassifier_ok h ho _)] at hrun
    simp only [hb, Bool.not_true, Bool.false_eq_true, if_false] at hrun
    set c := scope.frame.home
    replace hrun : (fieldType u spelling >>= fun type =>
        addFieldOf u modifiers c type name initializer doc) s = .ok (some n) t := by
      cases spelling with
      | none => exact hrun
      | some spelling =>
        simp only [fieldType, bind_assoc, pure_bind]
        simp only [pure_bind] at hrun
        exact hrun
    obtain ⟨⟨type, multiplicity⟩, s₁, htype, hrun⟩ := bind_eq_ok.mp hrun
    obtain ⟨found, s₂, hfound, hrun⟩ := bind_eq_ok.mp hrun
    obtain ⟨-, rfl, rfl⟩ := (performs_associatedType? (P := ⊤) type).ok hfound
    have hlays : s.graph.Lays s₂.graph := (adding_fieldType spelling).ok htype
    have hkeeps : s.graph.KeepsFaces s₂.graph := (adding_fieldType spelling).ok htype
    obtain ⟨hsound, htarget⟩ := sound_fieldType h.toSound htype
    have same : ∀ {k}, s₂.graph.Meets n k → k ∉ NodeKind.groundwork →
        s₂.graph.traitsOf n = s.graph.traitsOf n := traitsOf_after hlays hkeeps
    refine ⟨type, multiplicity, s₂, htype, ?_⟩
    cases hp : (if isPlain u s₂.graph type then none else type) with
    | none =>
      rw [hp] at hrun
      simp only [map_eq_pure_bind] at hrun
      obtain ⟨m, s₃, hadd, hrun⟩ := bind_eq_ok.mp hrun
      cases hrun
      obtain ⟨hm, hstated⟩ := says_addPlainField hadd
      exact same hm (by decide) ▸ hstated
    | some p =>
      rw [hp] at hrun
      simp only [map_eq_pure_bind] at hrun
      obtain ⟨m, s₃, hadd, hrun⟩ := bind_eq_ok.mp hrun
      cases hrun
      have hpl : s₂.graph.isLive p = true := by
        refine htarget p ?_
        split_ifs at hp
        exact hp
      have hcl : s₂.graph.isLive c = true := by
        obtain ⟨k, hk, -⟩ := h.isClassifier (show scope ∈ s.scopes.opened by simp [ho])
        obtain ⟨r, hr⟩ := isLive_iff.mp (isLive_of_kind? hk)
        obtain ⟨r', hr', -⟩ := hkeeps.node hr
        exact isLive_of_node? hr'
      obtain ⟨hm, hstated⟩ := says_addAssociatedField hsound hcl hpl hadd
      exact same hm (by decide) ▸ hstated

/-! Operations -/

variable {op : NodeId} {faces : List ParameterFace} {returnType : Option String}

lemma takes_after {α : Type} {x : ImportM α} [hx : Obeys (UnitState.Relates KeepsFaces) x] {b : α}
    (h : s.graph.Takes op faces) (hrun : x s = .ok b t) : t.graph.Takes op faces :=
  KeepsFaces.takes (hx.ok hrun) h

lemma says_upsertOperation (hrun : upsertOperation c name s = .ok op t) :
    t.graph.Says op .operation (s.graph.traitsOf op) := by
  unfold upsertOperation at hrun
  obtain ⟨found, s₁, hfound, hrun⟩ := bind_eq_ok.mp hrun
  obtain ⟨hfound, rfl⟩ := query_eq_ok.mp hfound
  obtain ⟨rc, hrc, hfind⟩ := feature?_eq_ok hfound
  cases found with
  | some m =>
    cases hrun
    obtain ⟨-, r, hr, hq⟩ := findIn_eq_some hfind.symm
    simp only [Bool.and_eq_true, decide_eq_true_eq] at hq
    exact ⟨r, hr, hq.1, (traitsOf_node hr).symm⟩
  | none =>
    obtain ⟨_, s₂, hemit, hrun⟩ := bind_eq_ok.mp hrun
    cases hemit
    obtain ⟨m, s₃, hbuild, hrun⟩ := bind_eq_ok.mp hrun
    cases hrun
    obtain ⟨g, hg, rfl⟩ := change_eq_ok hbuild
    obtain ⟨g', hg', hb⟩ := GraphM.buildOperation_ok (some name) (isLive_of_node? hrc)
    obtain ⟨rfl, rfl⟩ := EStateM.Result.ok.inj (hg'.symm.trans hg)
    exact ⟨_, hb.new_node, rfl, (traitsOf_none node?_next).symm⟩

/-- A parameter that is taken from an operation is no longer one, and nothing is added. -/
lemma removed_parameter (h : s.graph.Sound) (hr : s.graph.node? op = some r)
    (hk : r.kind = .operation) (hrun : change (.removeParameter op p) s = .ok () t) :
    ∃ r', t.graph.node? op = some r' ∧ r'.kind = .operation ∧ r'.traits = r.traits ∧
      ∀ q ∈ r'.parameters, q ∈ r.parameters ∧ q ≠ p := by
  obtain ⟨g, hg, rfl⟩ := change_eq_ok hrun
  rw [GraphM.removeParameter_run hr] at hg
  split_ifs at hg with hin
  obtain ⟨rp, hrp, -, hslot⟩ := (h.mem_children hr .parameters p).mp hin
  rw [GraphM.delete_ok (isLive_of_node? hrp)] at hg
  cases hg
  have hloose : rp.kind.isLoose = true := by
    rw [NodeKind.eq_parameter_of_slot hslot]
    rfl
  have hd : ∀ m ∈ s.graph.doomedWith p, ∃ k, s.graph.kind? m = some k ∧ k.isLoose = true :=
    fun m => h.trailing_of_doomed NodeKind.trailing_isLoose (kind?_eq hrp) hloose
  have hout : op ∉ s.graph.doomedWith p := by
    intro hmem
    obtain ⟨k, hkop, hkl⟩ := hd op hmem
    obtain rfl := Option.some.inj ((kind?_eq hr).symm.trans hkop)
    rw [hk] at hkl
    cases hkl
  refine ⟨_, node?_remove_eq_some.mpr ⟨hout, r, hr, rfl⟩, hk,
    h.traits_forget NodeKind.trailing_isLoose rfl hd hr, fun q hq => ?_⟩
  obtain ⟨hq, hnot⟩ := List.mem_filter.mp hq
  rw [decide_eq_true_eq] at hnot
  refine ⟨hq, ?_⟩
  rintro rfl
  exact hnot (self_mem_doomedWith (isLive_of_node? hrp))

/-- No parameter is left when all of them have been taken away. -/
lemma cleared_parameters (u : UnitContext) {params : List NodeId} (h : s.Sound)
    (hr : s.graph.node? op = some r) (hk : r.kind = .operation) (hall : r.parameters ⊆ params)
    (hrun : (params.forM fun p => change (.removeParameter op p) : ImportM PUnit) s = .ok ⟨⟩ t) :
    t.graph.Says op .operation r.traits ∧ t.graph.Takes op [] := by
  induction params generalizing s r with
  | nil =>
    cases hrun
    have hnone : r.parameters = [] := List.subset_nil.mp hall
    exact ⟨⟨r, hr, hk, rfl⟩, r, hr, by rw [hnone]; rfl⟩
  | cons p params ih =>
    obtain ⟨_, s₁, hremove, hrun⟩ := bind_eq_ok.mp hrun
    obtain ⟨hs, hu⟩ := (performs_removeParameter (u := u) h op p).ok hremove
    obtain ⟨r', hr', hk', htraits, hless⟩ := removed_parameter h.graph hr hk hremove
    rw [← htraits]
    refine ih (h.steps hs hu) hr' hk' (fun q hq => ?_) hrun
    obtain ⟨hq, hne⟩ := hless q hq
    exact (List.mem_cons.mp (hall hq)).resolve_left hne

/-- The beginning of the declaration of an operation, up to its result and its parameters. -/
def beginOperation (modifiers : ModifierSet) (c : NodeId) (name : String) : ImportM NodeId := do
  let op ← upsertOperation c name
  modifyScopes (·.touch op)
  change (.setRoot op false)
  change (.setVisibility op modifiers.visibility)
  change (.setAbstract op modifiers.isAbstract)
  (← query (·.parametersOf op)).forM fun p => change (.removeParameter op p)
  return op

lemma says_beginOperation (u : UnitContext) (h : s.Nested) (ho : s.scopes.opened = scope :: rest)
    (hrun : beginOperation modifiers scope.frame.home name s = .ok op t) :
    t.graph.Says op .operation { s.graph.traitsOf op with
      visibility := some modifiers.visibility
      isAbstract := modifiers.isAbstract
      isRoot := false } ∧ t.graph.Takes op [] := by
  unfold beginOperation at hrun
  obtain ⟨m, s₁, hupsert, hrun⟩ := bind_eq_ok.mp hrun
  obtain ⟨_, s₂, htouch, hrun⟩ := bind_eq_ok.mp hrun
  obtain ⟨_, s₃, hroot, hrun⟩ := bind_eq_ok.mp hrun
  obtain ⟨_, s₄, hvisibility, hrun⟩ := bind_eq_ok.mp hrun
  obtain ⟨_, s₅, habstract, hrun⟩ := bind_eq_ok.mp hrun
  obtain ⟨params, s₆, hparams, hrun⟩ := bind_eq_ok.mp hrun
  obtain ⟨_, s₇, hremove, hrun⟩ := bind_eq_ok.mp hrun
  cases hrun
  obtain ⟨hparams, rfl⟩ := query_eq_ok.mp hparams
  have hstated := says_after (says_upsertOperation hupsert) htouch
  have hsound : s₂.Sound := by
    obtain ⟨hs, -, hd⟩ := (performs_upsertOperation (u := u) h ho name).ok hupsert
    cases htouch
    exact (h.toSound.steps hs hd.unit).touch op
  replace hsound := sound_update u hsound hstated.kind? hroot fun _ => rfl
  replace hstated := says_update (F := ({ · with isRoot := false })) hstated hroot (fun _ => rfl)
    fun _ => rfl
  replace hsound := sound_update u hsound hstated.kind? hvisibility fun _ => rfl
  replace hstated := says_update (F := ({ · with visibility := some modifiers.visibility })) hstated
    hvisibility (fun _ => rfl) fun _ => rfl
  replace hsound := sound_update u hsound hstated.kind? habstract fun _ => rfl
  replace hstated := says_update (F := ({ · with isAbstract := modifiers.isAbstract })) hstated
    habstract (fun _ => rfl) fun _ => rfl
  obtain ⟨r, hr, hk, htraits⟩ := hstated
  have hlist : params = r.parameters := by
    simpa [parametersOf, get_of_node? hr, eq_comm] using hparams
  obtain ⟨hcleared, hnone⟩ := cleared_parameters u hsound hr hk (fun q hq => hlist ▸ hq) hremove
  exact ⟨htraits ▸ hcleared, hnone⟩

/-- What the result of an operation says: the stereotype of a constructor, or the parameter for a
type that means something. -/
def resultOf (u : UnitContext) (c : NodeId) (returnType : Option String) (name : String) :
    ImportM (Option NodeId × List ParameterFace) := do
  let constructs ← query (·.isConstructor c returnType (some name))
  match returnType.filter fun _ => !constructs with
  | none => return (some (← stereotype Profile.createStereotype (some "BehavioralFeature")), [])
  | some type =>
    match ← resolve u type .any "operation return type" with
    | none => return (none, [])
    | some n => return (none, [⟨some "return", some n, some .result⟩])

/-- The type of a parameter. -/
def parameterType (u : UnitContext) (p : ParameterDeclaration) : ImportM (Option NodeId) := do
  match withoutVarargs? p.type with
  | none => resolve u p.type .any "operation params"
  | some type =>
    warn u "unsupported" ("unsupported variable length parameter list notation: " ++ p.name)
    resolve u type .any "operation params"

instance adding_parameterType {R : Graph → Graph → Prop} [Adding R] (p : ParameterDeclaration) :
    Obeys (UnitState.Relates R) (parameterType u p) := by
  unfold parameterType
  cases withoutVarargs? p.type <;> infer_instance

lemma addParameter_eq (u : UnitContext) (op : NodeId) (p : ParameterDeclaration) :
    addParameter u op p = (do
      let type ← parameterType u p
      let _ ← change (.buildParameter op type (some p.name) p.direction)) := by
  unfold addParameter parameterType
  cases withoutVarargs? p.type <;> simp only [bind_assoc, pure_bind]

lemma says_buildParameter (h : s.graph.Says op .operation a) (ht : s.graph.Takes op faces)
    {title : Option String} {direction : Direction}
    (hrun : change (.buildParameter op type title direction) s = .ok n t) :
    t.graph.Says op .operation a ∧ t.graph.Takes op (faces ++ [⟨title, type, some direction⟩]) := by
  obtain ⟨g, hg, rfl⟩ := change_eq_ok hrun
  obtain ⟨-, hb⟩ := GraphM.built_of_buildParameter (isLive_of_kind? h.kind?) hg
  exact ⟨h.built hb, ht.built hb⟩

lemma says_addParameter (h : s.graph.Says op .operation a) (ht : s.graph.Takes op faces)
    {p : ParameterDeclaration} (hrun : addParameter u op p s = .ok () t) :
    ∃ type s', parameterType u p s = .ok type s' ∧ t.graph.Says op .operation a ∧
      t.graph.Takes op (faces ++ [⟨some p.name, type, some p.direction⟩]) := by
  rw [addParameter_eq] at hrun
  obtain ⟨type, s₁, htype, hrun⟩ := bind_eq_ok.mp hrun
  obtain ⟨n, s₂, hbuild, hrun⟩ := bind_eq_ok.mp hrun
  cases hrun
  exact ⟨type, s₁, htype, says_buildParameter (says_after h htype) (takes_after ht htype) hbuild⟩

lemma addStereotype_eq_ok {st : NodeId} (hrun : change (.addStereotype n st) s = .ok () t) :
    t = { s with graph := s.graph.modify n fun r =>
      if st ∈ r.stereotypes then r else { r with stereotypes := r.stereotypes ++ [st] } } := by
  obtain ⟨g, hg, rfl⟩ := change_eq_ok hrun
  rw [GraphM.addStereotype_run] at hg
  cases hst : s.graph.node? st with
  | none =>
    rw [hst] at hg
    cases hg
  | some r =>
    simp only [hst] at hg
    split_ifs at hg
    obtain ⟨-, rfl⟩ := GraphM.update_eq_ok hg
    rfl

lemma says_addStereotype {st : NodeId} (h : s.graph.Says n k a)
    (hrun : change (.addStereotype n st) s = .ok () t) :
    t.graph.Says n k { a with stereotypes := a.stereotypes ∪ {st} } := by
  rw [addStereotype_eq_ok hrun]
  refine h.modify (F := fun a => { a with stereotypes := a.stereotypes ∪ {st} })
    (fun r => by split_ifs <;> rfl) fun r => ?_
  split_ifs with hin
  · have hsame : r.stereotypes.toFinset ∪ {st} = r.stereotypes.toFinset := by
      simpa using hin
    simp only [Node.traits, hsame]
  · simp only [Node.traits, List.toFinset_append]
    rfl

lemma takes_addStereotype {st : NodeId} (h : s.graph.Takes op faces)
    (hrun : change (.addStereotype n st) s = .ok () t) : t.graph.Takes op faces := by
  rw [addStereotype_eq_ok hrun]
  exact h.modify (fun r => by split_ifs <;> rfl) fun r => by split_ifs <;> exact ⟨rfl, rfl, rfl⟩

/-- A constructor is marked beside the marks that it has, and what it returned is not asked for. -/
lemma says_addResult (h : s.graph.Says op .operation a) (ht : s.graph.Takes op faces)
    (hrun : addResult u c op returnType name s = .ok () t) :
    ∃ st result s', resultOf u c returnType name s = .ok (st, result) s' ∧
      t.graph.Says op .operation { a with stereotypes := a.stereotypes ∪ st.toFinset } ∧
      t.graph.Takes op (faces ++ result) := by
  rw [addResult_eq] at hrun
  obtain ⟨constructs, s₁, hconstructs, hmark⟩ := bind_eq_ok.mp hrun
  obtain ⟨hconstructs, rfl⟩ := query_eq_ok.mp hconstructs
  have hresult : resultOf u c returnType name s₁ = _ := bind_run (query_ok hconstructs)
  cases hdeclared : returnType.filter fun _ => !constructs with
  | none =>
    rw [hdeclared] at hmark hresult
    obtain ⟨st, s₂, hst, hmark⟩ := bind_eq_ok.mp hmark
    refine ⟨some st, [], s₂, hresult.trans (bind_run hst), ?_⟩
    exact ⟨says_addStereotype (says_after h hst) hmark,
      by simpa using takes_addStereotype (takes_after ht hst) hmark⟩
  | some type =>
    rw [hdeclared] at hmark hresult
    obtain ⟨found, s₂, hfound, hmark⟩ := bind_eq_ok.mp hmark
    replace hresult := hresult.trans (bind_run hfound)
    have hstated := says_after h hfound
    have htakes := takes_after ht hfound
    cases found with
    | none =>
      cases hmark
      exact ⟨none, [], _, hresult, by simpa using hstated, by simpa using htakes⟩
    | some n =>
      obtain ⟨p, s₃, hbuild, hmark⟩ := bind_eq_ok.mp hmark
      cases hmark
      refine ⟨none, _, s₂, hresult, ?_⟩
      simpa using says_buildParameter hstated htakes hbuild

/-- What the parameters of an operation say, one after the other. -/
def facesAlong (u : UnitContext) (op : NodeId) :
    List ParameterDeclaration → UnitState → List ParameterFace
  | [], _ => []
  | p :: ps, s =>
    ((answer? (parameterType u p s)).map
      fun type => ⟨some p.name, type, some p.direction⟩).toList ++
      facesAlong u op ps (finalState (addParameter u op p s))

lemma says_addParameters {parameters : List ParameterDeclaration}
    (h : s.graph.Says op .operation a) (ht : s.graph.Takes op faces)
    (hrun : parameters.forM (addParameter u op) s = .ok ⟨⟩ t) :
    t.graph.Says op .operation a ∧
      t.graph.Takes op (faces ++ facesAlong u op parameters s) := by
  induction parameters generalizing s faces with
  | nil =>
    cases hrun
    exact ⟨h, by simpa [facesAlong] using ht⟩
  | cons p parameters ih =>
    obtain ⟨_, s₁, hadd, hrun⟩ := bind_eq_ok.mp hrun
    obtain ⟨type, s', htype, hstated, htakes⟩ := says_addParameter h ht hadd
    simpa [facesAlong, htype, hadd, answer?, finalState] using ih hstated htakes hrun

/-- What is said about an operation, and what it takes. The parameters are those of the declaration
alone. -/
lemma says_addOperation (h : s.Nested) (ho : s.scopes.opened = scope :: rest)
    (hb : u.pass.buildsReferences = true) {parameters : List ParameterDeclaration}
    (hrun : addOperation u modifiers returnType name parameters doc s = .ok (some op) t) :
    ∃ s₁ st result s', beginOperation modifiers scope.frame.home name s = .ok op s₁ ∧
      resultOf u scope.frame.home returnType name s₁ = .ok (st, result) s' ∧
      t.graph.Says op .operation ((s.graph.traitsOf op).ofOperation modifiers st) ∧
      t.graph.Takes op (result ++ facesAlong u op parameters
        (finalState (addResult u scope.frame.home op returnType name s₁))) := by
  unfold addOperation at hrun
  rw [bind_run (requireClassifier_ok h ho _)] at hrun
  simp only [hb, Bool.not_true, Bool.false_eq_true, if_false] at hrun
  replace hrun : (beginOperation modifiers scope.frame.home name >>= fun op => do
      addResult u scope.frame.home op returnType name
      parameters.forM (addParameter u op)
      let _ ← change (.addDocumentation op doc)
      return some op : ImportM (Option NodeId)) s = .ok (some op) t := by
    simpa only [beginOperation, bind_assoc, pure_bind] using hrun
  obtain ⟨m, s₁, hbegin, hrun⟩ := bind_eq_ok.mp hrun
  obtain ⟨_, s₂, hresult, hrun⟩ := bind_eq_ok.mp hrun
  obtain ⟨_, s₃, hparameters, hrun⟩ := bind_eq_ok.mp hrun
  obtain ⟨_, s₄, hdoc, hrun⟩ := bind_eq_ok.mp hrun
  cases hrun
  obtain ⟨hstated, hnone⟩ := says_beginOperation u h ho hbegin
  obtain ⟨st, result, s', hmark, hstated, htakes⟩ := says_addResult hstated hnone hresult
  obtain ⟨hstated, htakes⟩ := says_addParameters hstated htakes hparameters
  rw [List.nil_append] at htakes
  refine ⟨s₁, st, result, s', hbegin, hmark, says_after hstated hdoc, ?_⟩
  rw [hresult]
  exact takes_after htakes hdoc

end ImportM

end DeclGraph
