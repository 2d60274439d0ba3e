import DeclGraph.Proofs.Import.Visiting

/-! Whole visits to classifier declarations, from the head to the deletion of what was not declared
again. -/

namespace DeclGraph

open DeclGraph.Graph

/-- A property that a classifier has if those nested in it have it. -/
theorem Classifier.nested_induction {P : Classifier → Prop}
    (step : ∀ c, (∀ c', Member.classifier c' ∈ c.members → P c') → P c) (c : Classifier) : P c := by
  apply step
  intro c' hc'
  have hlt : sizeOf c' < sizeOf c := by
    cases c with
    | typed head heritage members =>
      have hmem : Member.classifier c' ∈ members := hc'
      have := List.sizeOf_lt_of_mem hmem
      simp only [Member.classifier.sizeOf_spec, Classifier.typed.sizeOf_spec] at this ⊢
      omega
    | enumeration => simp [members] at hc'
  exact nested_induction step c'
termination_by sizeOf c

lemma mem_ascending {ns : List NodeId} {n : NodeId} : n ∈ ascending ns ↔ n ∈ ns := by
  rw [ascending, (List.mergeSort_perm _ _).mem_iff, List.mem_eraseDups]

/-- Whether a pass declares members in a role. -/
def Pass.declares (p : Pass) (role : MemberRole) : Bool := p.buildsReferences || role = .inner

namespace ImportM

variable {s t : UnitState} {u : UnitContext} {file : Option String} {c : Classifier}
  {scope : Scope} {rest : List Scope} {p : Pass} {n n' : NodeId} {role : MemberRole} {name : String}

lemma mem_staleMembers : n ∈ staleMembers p scope ↔ (n ∈ scope.frame.priorInner ∨
    p.buildsReferences = true ∧ n ∈ scope.frame.priorFeatures) ∧ n ∉ scope.touched := by
  rw [staleMembers, mem_ascending, List.mem_filter, List.mem_append]
  cases p.buildsReferences <;> simp

/-- What the body of a classifier declares when it is imported in a state. -/
def bodyKeys (u : UnitContext) (file : Option String) (c : Classifier) (s : UnitState) :
    List (MemberRole × String) :=
  match c with
  | .typed _ _ members => keysAlong u file members s
  | .enumeration _ _ literals => if u.pass.buildsReferences then literals.map (.attr, ·) else []

/-- What is stale at the end of a visit was a member at its start. -/
lemma mem_stale_iff {g : Graph} {frame : ScopeFrame} {touched : List NodeId}
    (h : UnitState.Frames g n frame) : n' ∈ staleMembers p { frame, touched } ↔
      (∃ role name, p.declares role = true ∧ g.IsMember n role (some name) n') ∧ n' ∉ touched := by
  rw [mem_staleMembers, h.inner, h.features]
  refine and_congr_left fun _ => ?_
  constructor
  · rintro (⟨name, hm⟩ | ⟨hb, role, name, -, hm⟩)
    · exact ⟨.inner, name, by simp [Pass.declares], hm⟩
    · exact ⟨role, name, by simp [Pass.declares, hb], hm⟩
  · rintro ⟨role, name, hd, hm⟩
    by_cases hi : role = .inner
    · exact Or.inl ⟨name, hi ▸ hm⟩
    · refine Or.inr ⟨?_, role, name, hi, hm⟩
      simpa [Pass.declares, hi] using hd

lemma declares_of_mem_memberKeys {m : Member} (h : (role, name) ∈ memberKeys u s m) :
    u.pass.declares role = true := by
  unfold memberKeys at h
  rcases List.mem_append.mp h with h | h
  · split_ifs at h with hb
    · simp [Pass.declares, hb]
    · simp at h
  · obtain ⟨_, _, heq⟩ := Option.map_eq_some_iff.mp (Option.mem_toList.mp h)
    obtain ⟨rfl, _⟩ := Prod.mk.inj heq
    simp [Pass.declares]

lemma declares_of_mem_keysAlong {ms : List Member} (h : (role, name) ∈ keysAlong u file ms s) :
    u.pass.declares role = true := by
  induction ms generalizing s with
  | nil => simp [keysAlong] at h
  | cons m ms ih =>
    rcases List.mem_append.mp h with h | h
    exacts [declares_of_mem_memberKeys h, ih h]

lemma declares_of_mem_bodyKeys (h : (role, name) ∈ bodyKeys u file c s) :
    u.pass.declares role = true := by
  cases c with
  | typed => exact declares_of_mem_keysAlong h
  | enumeration =>
    simp only [bodyKeys] at h
    split_ifs at h with hb
    · simp [Pass.declares, hb]
    · simp at h

/-- Members are declared one after the other, if each of the classifiers among them is. -/
lemma performs_importMembers {ms : List Member} (h : s.Nested)
    (ho : s.scopes.opened = scope :: rest)
    (hinner : ∀ c, .classifier c ∈ ms → ∀ s : UnitState, s.Nested →
      Performs (.free u) s (importClassifier u file c s) fun _ t =>
        ∃ n, UnitState.Settled c.head.simple n s t) :
    Performs (.free u) s (importMembers u file ms s) fun _ t =>
      ∃ touched, UnitState.Visit scope rest (keysAlong u file ms s) touched s t := by
  induction ms generalizing s scope with
  | nil =>
    rw [importMembers]
    exact Performs.answer ⟨_, (UnitState.Leads.refl h.toSound).visit h ho⟩
  | cons m ms ih =>
    rw [importMembers]
    have hm : Performs (.free u) s (importMember u file m s) fun _ t =>
        ∃ touched, UnitState.Visit scope rest (memberKeys u s m) touched s t := by
      apply performs_importMember h ho
      rintro c rfl
      exact hinner c (by simp) s h
    refine Performs.bind hm.recorded ?_
    rintro _ t hs ⟨⟨touched, hv⟩, hrun⟩
    have ht : t.scopes.opened = { scope with touched } :: rest := by rw [hv.scopes]
    refine (ih (hv.nested h ho hs) ht fun c hc => hinner c (by simp [hc])).imp ?_
    rintro _ t' ⟨touched', hv'⟩
    refine ⟨touched', ?_⟩
    rw [keysAlong, hrun]
    exact hv.trans hv'

lemma performs_literals {literals : List String} (h : s.Nested)
    (ho : s.scopes.opened = scope :: rest) :
    Performs (.ofMembers u) s ((literals.forM fun literal => do
      let _ ← addEnumerationLiteral u literal : ImportM PUnit) s) fun _ t =>
        ∃ touched, UnitState.Visit scope rest
          (if u.pass.buildsReferences then literals.map (.attr, ·) else []) touched s t := by
  induction literals generalizing s scope with
  | nil =>
    refine Performs.answer ⟨scope.touched, ?_⟩
    simpa using (UnitState.Leads.refl h.toSound).visit h ho
  | cons literal literals ih =>
    change Performs (.ofMembers u) s (((do let _ ← addEnumerationLiteral u literal) >>= fun _ =>
      literals.forM fun literal => do let _ ← addEnumerationLiteral u literal : ImportM PUnit) s) _
    have hfirst : Performs (.ofMembers u) s
        ((do let _ ← addEnumerationLiteral u literal : ImportM PUnit) s)
        fun _ t => ∃ touched, UnitState.Visit scope rest
          (if u.pass.buildsReferences then [(.attr, literal)] else []) touched s t :=
      Performs.bind (performs_addEnumerationLiteral h ho literal) fun _ _ _ hv =>
        Performs.answer hv
    refine Performs.bind hfirst ?_
    rintro _ t hs ⟨touched, hv⟩
    have ht : t.scopes.opened = { scope with touched } :: rest := by rw [hv.scopes]
    refine (ih (hv.nested h ho hs) ht).imp ?_
    rintro _ t' ⟨touched', hv'⟩
    refine ⟨touched', ?_⟩
    convert hv.trans hv' using 1
    split_ifs <;> simp

lemma performs_importBody (h : s.Nested) (ho : s.scopes.opened = scope :: rest)
    (hinner : ∀ c', .classifier c' ∈ c.members → ∀ s : UnitState, s.Nested →
      Performs (.free u) s (importClassifier u file c' s) fun _ t =>
        ∃ n, UnitState.Settled c'.head.simple n s t) :
    Performs (.free u) s (importBody u file c s) fun _ t =>
      ∃ touched, UnitState.Visit scope rest (bodyKeys u file c s) touched s t := by
  cases c with
  | typed head heritage members => exact performs_importMembers h ho hinner
  | enumeration head interfaces literals =>
    exact (performs_literals h ho).weaken Permit.ofMembers_le_free

end ImportM

open ImportM

/-- The import of `c` led from `s` to `t`: its element `n` was in its place in `t₀` and connected in
`t₁`, and its members are those that its body declared. -/
structure Visited (u : UnitContext) (file : Option String) (c : Classifier) (n : NodeId)
    (s t₀ t₁ t : UnitState) : Prop where
  added : addClassifier u c.kind c.head.simple c.head.modifierSet c.head.doc s = .ok n t₀
  connected : addInheritance u n c.kind c.superclass c.interfaces t₀ = .ok () t₁
  upserted : UnitState.Upserted c.kind.nodeKind c.head.simple n s { t₀ with scopes := s.scopes }
  settled : UnitState.Settled c.head.simple n s t
  renewed : t₀.graph.Renewed n u.pass.declares (bodyKeys u file c t₁) t.graph

namespace ImportM

variable {s : UnitState} {u : UnitContext} {file : Option String} {c : Classifier} {scope : Scope}

lemma exists_touched {scopes : ScopeStack} (n : NodeId) (h : scope ∈ scopes.opened) :
    ∃ scope' ∈ (scopes.touch n).opened, scope'.frame = scope.frame := by
  cases ho : scopes.opened with
  | nil => simp [ho] at h
  | cons first rest =>
    rw [ho] at h
    simp only [ScopeStack.touch, ho, List.mem_cons, exists_eq_or_imp]
    rcases List.mem_cons.mp h with rfl | h
    exacts [Or.inl rfl, Or.inr ⟨scope, h, rfl⟩]

lemma performs_visit (h : s.Nested)
    (hinner : ∀ c', .classifier c' ∈ c.members → ∀ s : UnitState, s.Nested →
      Performs (.free u) s (importClassifier u file c' s) fun _ t =>
        ∃ n, UnitState.Settled c'.head.simple n s t) :
    Performs (.free u) s (importClassifier u file c s) fun _ t =>
      ∃ n t₀ t₁, Visited u file c n s t₀ t₁ t := by
  have hkind : c.kind.nodeKind.isClassifier = true := by cases c.kind <;> rfl
  rw [importClassifier_eq]
  refine Performs.bind (performs_enterClassifier h c) ?_
  rintro n t₁ hs₁ ⟨t₀, frame, hadd, hconnect, hopened, hl⟩
  obtain ⟨r₀, hr₀, hk₀, -⟩ := hopened.upserted.node
  have hspares : t₀.graph.Spares n t₁.graph := hl.spares (kind?_eq hr₀) (hk₀ ▸ hkind)
  have h₁ : t₁.Nested := hopened.nested.leads hl
  have ho₁ : t₁.scopes.opened = { frame } :: (s.scopes.touch n).opened := by
    rw [hl.unit.scopes, hopened.scopes]
    rfl
  refine Performs.bind (performs_importBody h₁ ho₁ hinner) ?_
  rintro _ t₂ hs₂ ⟨touched, hv⟩
  have h₂ : t₂.Nested := hv.nested h₁ ho₁ hs₂
  have ho₂ : t₂.scopes.opened = { frame, touched } :: (s.scopes.touch n).opened := by
    rw [hv.scopes]
  have htrack : t₀.graph.Track n (bodyKeys u file c t₁) touched t₂.graph := by
    have hstart := (Track.start t₀.graph n).spares hspares
    rw [← hopened.frames.home] at hstart ⊢
    exact hv.track hstart
  have hformer : ∀ v ∈ staleMembers u.pass { frame, touched }, t₂.graph.Former frame.home v := by
    intro v hv
    obtain ⟨⟨role, name, -, hm⟩, -⟩ := (mem_stale_iff hopened.frames).mp hv
    rw [hopened.frames.home]
    exact htrack.former hm
  refine Performs.bind (performs_popClassifier h₂ ho₂ hformer) ?_
  rintro _ t₃ - ⟨rfl, hev⟩
  refine Performs.answer ⟨n, t₀, t₁, hadd, hconnect, hopened.upserted, ?_, ?_⟩
  · have hscopes : t₃.scopes = s.scopes.touch n := by
      rw [hev.unit.scopes, hv.scopes, hl.unit.scopes, hopened.scopes]
      rfl
    have hcomponent : t₃.component = s.component := by
      rw [hev.unit.component, hv.component, hl.unit.component, hopened.upserted.unit.component]
    have hout : ∀ scope ∈ s.scopes.opened, t₀.graph.Spares scope.frame.home t₃.graph := by
      intro scope hin
      obtain ⟨scope', hin', hframe⟩ := exists_touched n hin
      rw [← hframe]
      have hin₀ : scope' ∈ t₀.scopes.opened := by
        rw [hopened.scopes]
        exact List.mem_cons_of_mem _ hin'
      obtain ⟨k, hk, hc⟩ := hopened.nested.isClassifier hin₀
      have hlast := hev.outer _ (List.mem_map_of_mem hin')
      exact ((hl.spares hk hc).trans (hv.outer scope' hin')).trans hlast
    refine ⟨hcomponent, hscopes, fun {scope rest} ho => ?_⟩
    have hd := hopened.upserted.declared ho
    refine ⟨hd.member.spares (hout scope (by simp [ho])), fun scope' hin => ?_⟩
    exact (hd.outer scope' hin).trans (hout scope' (by simp [ho, hin]))
  · have hn : ∃ k, t₂.graph.kind? n = some k ∧ k.isClassifier = true := by
      have hstays := hspares.toStays.trans (hopened.frames.home ▸ hv.home)
      exact ⟨_, hstays.kind? (kind?_eq hr₀), hk₀ ▸ hkind⟩
    refine htrack.renewed h₂.graph hn ?_ (hopened.frames.home ▸ hev.pruned) fun v => ?_
    · exact fun key hkey => declares_of_mem_bodyKeys hkey
    · exact mem_stale_iff hopened.frames

/-- What a visit leaves, for all declarations and in all states that open classifiers are in order. -/
theorem performs_importClassifier (c : Classifier) : ∀ {s : UnitState}, s.Nested →
    Performs (.free u) s (importClassifier u file c s) fun _ t =>
      ∃ n t₀ t₁, Visited u file c n s t₀ t₁ t := by
  induction c using Classifier.nested_induction with
  | step c ih =>
    intro s h
    apply performs_visit h
    intro c' hc' s hs
    exact (ih c' hc' hs).imp fun _ _ ⟨n, _, _, hn⟩ => ⟨n, hn.settled⟩

lemma performs_settled (h : s.Nested) (c : Classifier) :
    Performs (.free u) s (importClassifier u file c s) fun _ t =>
      ∃ n, UnitState.Settled c.head.simple n s t :=
  (performs_importClassifier c h).imp fun _ _ ⟨n, _, _, hn⟩ => ⟨n, hn.settled⟩

end ImportM

end DeclGraph
