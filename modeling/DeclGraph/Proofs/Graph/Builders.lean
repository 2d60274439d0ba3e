import DeclGraph.Proofs.Graph.Linkage

/-! What the operations of the graph do when they are given live elements. -/

namespace DeclGraph.GraphM

open DeclGraph.Graph

variable {g g' : Graph} {n m c p t : NodeId} {r : Node} {kind : NodeKind} {name : Option String}
  {type : Option NodeId}

lemma modify_run (f : Graph → Graph) (g : Graph) : (modify f : GraphM Unit) g = .ok () (f g) := rfl

lemma setType_ok (hn : g.isLive n = true) (ht : ∀ t, type = some t → g.isLive t = true) :
    setType n type g = .ok () (g.modify n ({ · with type })) := by
  unfold setType
  cases type with
  | none => exact update_ok _ hn
  | some t =>
    obtain ⟨rt, hrt⟩ := isLive_iff.mp (ht t rfl)
    exact (bind_run (get_ok hrt)).trans (update_ok _ hn)

lemma addStereotype_run (n st : NodeId) (g : Graph) : addStereotype n st g =
    match g.node? st with
    | none => .error (.unknownHandle st) g
    | some r => if r.kind = .stereotype then update n (fun r =>
        if st ∈ r.stereotypes then r else { r with stereotypes := r.stereotypes ++ [st] }) g
      else .error (.notStereotype st) g := by
  unfold addStereotype
  cases hst : g.node? st with
  | none => exact bind_failed (by rw [get_run, hst])
  | some r =>
    rw [bind_run (get_ok hst)]
    by_cases hk : r.kind = .stereotype
    · simp only [hk, ne_eq, not_true, if_false, if_true]
    · simp only [hk, ne_eq, not_false_eq_true, if_true, if_false]
      rfl

lemma create_under (g : Graph) (kind : NodeKind) (name : Option String) (hp : g.isLive p = true) :
    ∃ g', create kind name (some p) g = .ok g.next g' ∧
      g.Built { kind, name, owner := some p } g' :=
  create_ok g kind name _ fun _ hq => Option.some.inj hq ▸ hp

/-- A builder adds an element and then fills in its record. -/
lemma built_then {f : Node → Node} (hb : g.Built r g') (hk : (f r).kind = r.kind)
    (ho : (f r).owner = r.owner) : update g.next f g' = .ok () (g'.modify g.next f) ∧
      g.Built (f r) (g'.modify g.next f) :=
  ⟨update_ok f (isLive_of_node? hb.new_node), hb.modify hk ho⟩

lemma setType_built (hb : g.Built r g') (type : Option NodeId)
    (ht : ∀ t, type = some t → g.isLive t = true) :
    setType g.next type g' = .ok () (g'.modify g.next ({ · with type })) ∧
      g.Built { r with type } (g'.modify g.next ({ · with type })) :=
  ⟨setType_ok (isLive_of_node? hb.new_node) fun t h => hb.live (ht t h),
    hb.modify (f := ({ · with type })) rfl rfl⟩

lemma buildOperation_ok (name : Option String) (hc : g.isLive c = true) :
    ∃ g', buildOperation c name g = .ok g.next g' ∧
      g.Built { kind := .operation, name, owner := some c } g' :=
  create_under g .operation name hc

lemma buildAttribute_ok (name : Option String) (hc : g.isLive c = true)
    (ht : ∀ t, type = some t → g.isLive t = true) :
    ∃ g', buildAttribute c type name g = .ok g.next g' ∧
      g.Built { kind := .attr, name, owner := some c, type } g' := by
  obtain ⟨g₁, hrun, hb⟩ := create_under g .attr name hc
  obtain ⟨hset, hb'⟩ := setType_built hb type ht
  refine ⟨_, ?_, hb'⟩
  unfold buildAttribute
  exact (bind_run hrun).trans (bind_run hset)

lemma buildParameter_ok {direction : Direction} (hc : g.isLive c = true)
    (ht : ∀ t, type = some t → g.isLive t = true) :
    ∃ g', buildParameter c type name direction g = .ok g.next g' ∧
      g.Built { kind := .parameter, name, owner := some c, type, direction := some direction }
        g' := by
  obtain ⟨g₁, hrun, hb⟩ := create_under g .parameter name hc
  obtain ⟨hset, hb'⟩ := setType_built hb type ht
  obtain ⟨hdir, hb''⟩ := built_then (f := ({ · with direction := some direction })) hb' rfl rfl
  refine ⟨_, ?_, hb''⟩
  unfold buildParameter
  exact (bind_run hrun).trans ((bind_run hset).trans (bind_run hdir))

lemma namespaceOf_ok (hr : g.node? n = some r) : g.namespaceOf n = .ok r.owner := by
  simp [namespaceOf, get_of_node? hr]

lemma namespace_run (hr : g.node? n = some r) :
    query (·.namespaceOf n) g = .ok r.owner g := query_ok (namespaceOf_ok hr)

lemma buildGeneralization_ok (hr : g.node? c = some r) (hp : g.isLive p = true)
    (ho : ∀ o, r.owner = some o → g.isLive o = true) :
    ∃ g', buildGeneralization c p g = .ok g.next g' ∧
      g.Built { kind := .generalization, owner := r.owner, specific := some c, general := some p }
        g' := by
  obtain ⟨rp, hrp⟩ := isLive_iff.mp hp
  obtain ⟨g₁, hrun, hb⟩ := create_ok g .generalization none _ ho
  refine ⟨_, ?_, hb.modify (f := ({ · with specific := some c, general := some p })) rfl rfl⟩
  unfold buildGeneralization
  exact (bind_run (get_ok hrp)).trans ((bind_run (namespace_run hr)).trans
    (bind_run hrun))

lemma buildDependency_ok (name : Option String) (hk : kind.isDependency = true)
    (hr : g.node? c = some r) (hp : g.isLive p = true)
    (ho : ∀ o, r.owner = some o → g.isLive o = true) :
    ∃ g', buildDependency c p kind name g = .ok g.next g' ∧
      g.Built { kind, name, owner := r.owner, clients := [c], suppliers := [p] } g' := by
  obtain ⟨rp, hrp⟩ := isLive_iff.mp hp
  obtain ⟨g₁, hrun, hb⟩ := create_ok g kind name _ ho
  refine ⟨_, ?_, hb.modify (f := fun r =>
    { r with clients := r.clients ++ [c], suppliers := r.suppliers ++ [p] }) rfl rfl⟩
  unfold buildDependency
  simp only [hk, Bool.not_true, Bool.false_eq_true, if_false]
  exact (bind_run (get_ok hrp)).trans ((bind_run (namespace_run hr)).trans
    (bind_run hrun))

lemma buildDependency_wrongKind (hk : ¬kind.isDependency = true) :
    buildDependency c p kind name g = .error (.notDependency kind) g := by
  unfold buildDependency
  simp only [Bool.not_eq_true] at hk
  simp only [hk, Bool.not_false, if_true]
  rfl

lemma buildEnd_ok {a : NodeId} (isNavigable : Bool) (ha : g.isLive a = true)
    (ht : g.isLive t = true) :
    ∃ g', buildEnd a t isNavigable g = .ok () g' ∧
      g.Built { kind := .associationEnd, owner := some a, association := some a, isNavigable,
                type := some t } g' := by
  obtain ⟨g₁, hrun, hb⟩ := create_under g .associationEnd none ha
  have hb' := hb.modify (f := ({ · with association := some a, isNavigable })) rfl rfl
  obtain ⟨hset, hb''⟩ := setType_built hb' (some t) fun u hu => Option.some.inj hu ▸ ht
  refine ⟨_, ?_, hb''⟩
  unfold buildEnd
  exact (bind_run hrun).trans hset

lemma buildAssociation_ok {s : NodeId} (name : Option String) (tn sn : Bool)
    (ht : g.isLive t = true) (hr : g.node? s = some r) (ho : ∀ o, r.owner = some o → g.isLive o = true) :
    ∃ g₁ g₂ g₃, buildAssociation t tn s sn name g = .ok g.next g₃ ∧
      g.Built { kind := .association, name, owner := r.owner } g₁ ∧
      g₁.Built { kind := .associationEnd, owner := some g.next, association := some g.next,
                 isNavigable := tn, type := some t } g₂ ∧
      g₂.Built { kind := .associationEnd, owner := some g.next, association := some g.next,
                 isNavigable := sn, type := some s } g₃ := by
  obtain ⟨g₁, hrun, hb₁⟩ := create_ok g .association name _ ho
  obtain ⟨g₂, hrun₂, hb₂⟩ := buildEnd_ok tn (isLive_of_node? hb₁.new_node)
    (hb₁.live ht)
  obtain ⟨g₃, hrun₃, hb₃⟩ := buildEnd_ok sn
    (hb₂.live (isLive_of_node? hb₁.new_node)) (hb₂.live (hb₁.live (isLive_of_node? hr)))
  refine ⟨g₁, g₂, g₃, ?_, hb₁, hb₂, hb₃⟩
  unfold buildAssociation
  exact (bind_run (namespace_run hr)).trans ((bind_run hrun).trans
    ((bind_run hrun₂).trans (bind_run hrun₃)))

lemma buildResidence_ok {container : NodeId} (hn : g.isLive n = true)
    (hc : g.isLive container = true) :
    ∃ g', buildResidence n container g = .ok g.next g' ∧
      g.Built { kind := .elementResidence, resident := some n, container := some container }
        g' := by
  obtain ⟨rn, hrn⟩ := isLive_iff.mp hn
  obtain ⟨rc, hrc⟩ := isLive_iff.mp hc
  obtain ⟨g₁, hrun, hb⟩ := create_ok g .elementResidence none none (by simp)
  refine ⟨_, ?_,
    hb.modify (f := ({ · with resident := some n, container := some container })) rfl rfl⟩
  unfold buildResidence
  exact (bind_run (get_ok hrn)).trans ((bind_run (get_ok hrc)).trans (bind_run hrun))

lemma hasStereotype_ok (h : g.Linked) (hr : g.node? n = some r) (name : String) :
    g.hasStereotype n name = .ok (g.findIn r.stereotypes (·.name = some name)).isSome := by
  have hfollow : g.followFirst (·.name = some name) r.stereotypes =
      .ok (g.findIn r.stereotypes (·.name = some name)) :=
    followFirst_of_live fun st hst => h.live hr st (by simp [Node.links, hst])
  simp [hasStereotype, stereotypesOf, get_of_node? hr, hfollow, pure, Except.pure]

lemma taggedValueNode?_ok (h : g.Linked) (hr : g.node? n = some r) (tag : String) :
    g.taggedValueNode? n tag = .ok (g.findIn r.taggedValues (·.name = some tag)) := by
  unfold taggedValueNode?
  rw [get_of_node? hr, except_ok_bind]
  exact followFirst_of_live fun c hc => h.children_live hr (s := .taggedValues) hc

lemma taggedValueNode?_none (hn : g.node? n = none) (tag : String) :
    g.taggedValueNode? n tag = .error (.unknownHandle n) := by
  unfold taggedValueNode?
  rw [get_of_none hn]
  rfl

lemma featuresOfKind_ok (h : g.Linked) (hr : g.node? n = some r) (kind : NodeKind) :
    g.featuresOfKind n kind = .ok (g.selectIn r.features (·.kind = kind)) := by
  unfold featuresOfKind featuresOf
  rw [get_of_node? hr]
  exact followAll_of_live fun c hc => h.children_live hr (s := .features) hc

lemma innerClassifiers_ok (h : g.Linked) (hr : g.node? n = some r) :
    g.innerClassifiers n = .ok (g.selectIn r.owned (·.kind.isClassifier)) := by
  unfold innerClassifiers ownedElements
  rw [get_of_node? hr]
  exact followAll_of_live fun c hc => h.children_live hr (s := .owned) hc

/-- Setting a tagged value changes the one there is, or builds one. -/
lemma setTaggedValue_ok (h : g.Linked) (hr : g.node? n = some r) (tag value : String) :
    (∃ tv, g.findIn r.taggedValues (·.name = some tag) = some tv ∧
      setTaggedValue n tag value g = .ok tv (g.modify tv ({ · with value := some value }))) ∨
    (g.findIn r.taggedValues (·.name = some tag) = none ∧
      ∃ g', setTaggedValue n tag value g = .ok g.next g' ∧
        g.Built { kind := .taggedValue, name := some tag, owner := some n, value := some value }
          g') := by
  have hquery : query (·.taggedValueNode? n tag) g =
      .ok (g.findIn r.taggedValues (·.name = some tag)) g := query_ok (taggedValueNode?_ok h hr tag)
  cases hfind : g.findIn r.taggedValues (·.name = some tag) with
  | some tv =>
    rw [hfind] at hquery
    refine Or.inl ⟨tv, rfl, ?_⟩
    unfold setTaggedValue
    exact bind_run hquery
  | none =>
    rw [hfind] at hquery
    obtain ⟨g₁, hrun, hb⟩ := create_under g .taggedValue (some tag) (isLive_of_node? hr)
    refine Or.inr ⟨rfl, _, ?_, hb.modify (f := ({ · with value := some value })) rfl rfl⟩
    unfold setTaggedValue
    exact (bind_run hquery).trans (bind_run hrun)

lemma removeTaggedValues_run (h : g.Linked) (hr : g.node? n = some r) (tag : String) :
    removeTaggedValues n tag g = (do
      (g.selectIn r.taggedValues (·.name = some tag)).forM delete
      return (g.selectIn r.taggedValues (·.name = some tag)).length : GraphM Nat) g := by
  have hvictims : query (·.followAll (·.name = some tag) r.taggedValues) g =
      .ok (g.selectIn r.taggedValues (·.name = some tag)) g :=
    query_ok (followAll_of_live fun c hc => h.children_live hr (s := .taggedValues) hc)
  unfold removeTaggedValues
  exact (bind_run (get_ok hr)).trans (bind_run hvictims)

lemma removeParameter_run (hr : g.node? n = some r) (p : NodeId) :
    removeParameter n p g = if p ∈ r.parameters then delete p g
      else .error (.notParameterOf p n) g := by
  unfold removeParameter
  rw [bind_run (get_ok hr)]
  split_ifs <;> rfl

end DeclGraph.GraphM
