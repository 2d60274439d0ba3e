import DeclGraph.Proofs.Import.Fields

/-! Operations and fields of the innermost open classifier. -/

namespace DeclGraph

open DeclGraph.Graph

variable {α β : Type} {s t : UnitState} {u : UnitContext} {x : ImportM α} {f : α → ImportM β}
  {Q : α → UnitState → Prop} {n c op : NodeId} {scope : Scope} {rest : List Scope}

namespace ImportM

lemma performs_resolve_feature (name : String) (mode : ResolveMode) (context : String)
    (h : s.Sound) : Performs (.aroundFeatures u) s (resolve u name mode context s)
      fun found t => s.SameUnit t ∧
        ∀ n, found = some n → ∃ k, t.graph.kind? n = some k ∧ k.isClassifier = true := by
  refine (performs_resolve name mode context h.graph).mono
    (Permit.within_mono (by decide) (by decide)) ?_
  rintro found t ⟨hu, hf⟩
  refine ⟨hu, fun n hn => ?_⟩
  obtain ⟨k, hk, hacc⟩ := hf n hn
  exact ⟨k, hk, ResolveMode.isClassifier_of_accepts hacc⟩

lemma performs_buildParameter (h : s.graph.Sound) (hop : s.graph.kind? op = some .operation)
    {type : Option NodeId}
    (ht : ∀ y, type = some y → ∃ k, s.graph.kind? y = some k ∧ k.isClassifier = true)
    (name : Option String) (direction : Direction) :
    Performs (.aroundFeatures u) s (change (.buildParameter op type name direction) s)
      fun _ t => s.SameUnit t := by
  refine (performs_build (GraphM.buildParameter_ok (isLive_of_kind? hop) fun y hy => ?_) h ?_ rfl
    (fun _ hf => absurd hf (not_fits_of_isKeyless rfl)) (show NodeKind.parameter ∈ _ by decide)
    (by simp)).imp fun _ _ h => h.1
  · obtain ⟨k, hk, _⟩ := ht y hy
    exact isLive_of_kind? hk
  · refine addable_of_role (fun s => by cases s <;> rfl) ⟨by simp, by simp, by simp⟩ ?_
      (fun _ => ⟨op, rfl⟩) ⟨?_, by simp, by simp⟩ rfl (by simp) rfl rfl
    · intro p hp
      exact ⟨_, Option.some.inj hp ▸ hop, rfl⟩
    · intro y hy
      simp only [Node.classifiers, Option.toList_none, List.append_nil, Option.mem_toList] at hy
      exact ht y hy

lemma performs_removeParameter (h : s.Sound) (op p : NodeId) :
    Performs (.aroundFeatures u) s (change (.removeParameter op p) s) fun _ t => s.SameUnit t := by
  cases hr : s.graph.node? op with
  | none =>
    refine performs_refused (e := .unknownHandle op) ?_
    unfold GraphM.removeParameter
    exact bind_failed (by rw [GraphM.get_run, hr])
  | some r =>
    have hrun := GraphM.removeParameter_run hr p
    split_ifs at hrun with hp
    · obtain ⟨rp, hrp, _, hs⟩ := (h.graph.mem_children hr .parameters p).mp hp
      have hk : rp.kind = .parameter := by
        revert hs
        cases rp.kind <;> decide
      refine (performs_change (Q := fun _ _ => True) ?_).imp fun _ _ h => h.1
      rw [hrun, GraphM.delete_ok (isLive_of_node? hrp)]
      refine ⟨(Step.delete hrp (by rw [hk]; rfl)).permitted ⟨.parameter, by decide, ?_, by decide⟩,
        trivial⟩
      rw [kind?_eq hrp, hk]
    · exact performs_refused hrun

lemma performs_addResult (h : s.Sound) (c : NodeId) (hop : s.graph.kind? op = some .operation)
    (returnType : Option String) (name : String) :
    Performs (.aroundFeatures u) s (addResult u c op returnType name s)
      fun _ t => s.SameUnit t := by
  rw [addResult_eq]
  refine bind_query fun constructs _ => ?_
  cases returnType.filter fun _ => !constructs with
  | none =>
    refine Performs.then_leads h ((performs_stereotype h.graph _ _ (by decide) (by decide)).imp
      fun _ _ h => h.1) fun st t ht => ?_
    have hop' := ht.declared hop rfl
    refine performs_addStereotype ht.sound.graph (once hop' (by decide)) (vacant_of_kind ?_) st
    exact fun hk => Option.some.inj (hop'.symm.trans hk) ▸ rfl
  | some type =>
    refine Performs.bind_leads h (performs_resolve_feature type .any _ h) ?_
    rintro (_ | n) t ht hn
    · exact Performs.answer (.refl t)
    · refine Performs.then_leads ht.sound (performs_buildParameter ht.sound.graph (ht.declared hop rfl) ?_
        _ _) fun _ t' _ => Performs.answer (.refl t')
      exact fun y hy => hn y hy

lemma performs_addParameter (h : s.Sound) (hop : s.graph.kind? op = some .operation)
    (p : ParameterDeclaration) :
    Performs (.aroundFeatures u) s (addParameter u op p s) fun _ t => s.SameUnit t := by
  have next : ∀ type t, s.Leads t → Performs (.aroundFeatures u) t ((do
      let n ← resolve u type .any "operation params"
      let _ ← change (.buildParameter op n (some p.name) p.direction)
      return : ImportM Unit) t) fun _ t' => t.SameUnit t' := by
    intro type t ht
    refine Performs.bind_leads ht.sound (performs_resolve_feature type .any _ ht.sound) ?_
    intro n t₁ ht₁ hn
    refine Performs.then_leads ht₁.sound (performs_buildParameter ht₁.sound.graph
      (ht₁.declared (ht.declared hop rfl) rfl) hn _ _) fun _ t' _ => Performs.answer (.refl t')
  unfold addParameter
  cases withoutVarargs? p.type with
  | none =>
    simp only [pure_bind]
    exact next p.type s (.refl h)
  | some type =>
    simp only [pure_bind]
    exact Performs.then_leads h (performs_warn u _ _) fun _ t ht => next type t ht

end ImportM

namespace Graph

variable {g : Graph} {r : Node} {name : String} {kind : NodeKind} {role : MemberRole} {m : NodeId}

lemma feature?_eq_ok {found : Option NodeId} (h : g.feature? n name kind = .ok found) :
    ∃ r, g.node? n = some r ∧
      found = g.findIn r.features fun x => x.kind = kind && x.name = some name := by
  unfold feature? featuresOf get at h
  cases hr : g.node? n with
  | none => simp [hr] at h
  | some r =>
    simp only [hr] at h
    exact ⟨r, rfl, by simpa using h.symm⟩

lemma isMember_of_feature? (h : g.Sound) (hrole : kind.role? = some role)
    (hf : g.feature? n name kind = .ok (some m)) : g.IsMember n role (some name) m := by
  obtain ⟨r, hr, hfind⟩ := feature?_eq_ok hf
  obtain ⟨hm, x, hx, hq⟩ := findIn_eq_some hfind.symm
  obtain ⟨x', hx', ho, _⟩ := (h.mem_children hr .features m).mp hm
  obtain rfl := Option.some.inj (hx.symm.trans hx')
  simp only [Bool.and_eq_true, decide_eq_true_eq] at hq
  exact ⟨x, hx, ho, by rw [hq.1, hrole], hq.2⟩

lemma not_isMember_of_feature? (h : g.Sound) (hrole : kind.role? = some role)
    (hne : role ≠ .inner) (hf : g.feature? n name kind = .ok none) :
    ∀ m, ¬g.IsMember n role (some name) m := by
  intro m hm
  obtain ⟨r, hr, hfind⟩ := feature?_eq_ok hf
  obtain ⟨x, hx, ho, hk, hname⟩ := id hm
  have hin := (h.mem_features hr).mpr ⟨role, name, hne, hm⟩
  have hkind : x.kind = kind := by
    revert hk hrole hne
    cases x.kind <;> cases kind <;> simp [NodeKind.role?] <;> rintro rfl <;> simp
  have := List.find?_eq_none.mp hfind.symm m hin
  simp [hx, hkind, hname] at this

end Graph

namespace UnitState

variable {role : MemberRole} {name : String} {m : NodeId} {s' : UnitState}

/-- A member of the innermost open classifier is declared, and the outer ones are left alone. -/
structure Declared (scope : Scope) (rest : List Scope) (role : MemberRole) (name : String)
    (m : NodeId) (s t : UnitState) : Prop where
  unit : s.SameUnit t
  member : s.graph.Declares scope.frame.home role name m t.graph
  outer : ∀ scope' ∈ rest, s.graph.Spares scope'.frame.home t.graph

lemma Nested.outer_ne (h : s.Nested) (ho : s.scopes.opened = scope :: rest) {scope' : Scope}
    (hin : scope' ∈ rest) : scope'.frame.home ≠ scope.frame.home := by
  have hn := h.nested
  rw [ho] at hn
  intro heq
  exact hn.1 (List.mem_map.mpr ⟨scope', hin, heq⟩)

/-- A member that is there already. -/
lemma Nested.declared_found (h : s.Nested) (ho : s.scopes.opened = scope :: rest)
    (hm : s.graph.IsMember scope.frame.home role (some name) m) :
    Declared scope rest role name m s s := by
  obtain ⟨k, hk, hc⟩ := h.isClassifier (show scope ∈ s.scopes.opened by simp [ho])
  exact ⟨.refl s, h.graph.declares hk hc hm, fun _ _ => .refl _ _⟩

lemma Nested.declared_built {r : Node} (h : s.Nested) (ho : s.scopes.opened = scope :: rest)
    (hb : s.graph.Built r t.graph) (hr : r.owner = some scope.frame.home)
    (hk : r.kind.role? = some role) (hname : r.name = some name)
    (hfresh : ∀ m, ¬s.graph.IsMember scope.frame.home role (some name) m) (hu : s.SameUnit t) :
    Declared scope rest role name s.graph.next s t := by
  refine ⟨hu, hb.declares hr hk hname hfresh, fun scope' hin => ?_⟩
  have hne : r.owner ≠ some scope'.frame.home := by
    rw [hr]
    exact fun heq => h.outer_ne ho hin (Option.some.inj heq).symm
  exact hb.spares (fun _ => hne) fun _ _ => hne

/-- Declaring a member, noting it and describing it. -/
lemma Declared.visit {P : Permit} (hd : Declared scope rest role name m s t) (h : s.Nested)
    (ho : s.scopes.opened = scope :: rest) (hs : Steps P s.graph t.graph)
    (hl : ({ t with scopes := t.scopes.touch m } : UnitState).Leads s') :
    Visit scope rest [(role, name)] (m :: scope.touched) s s' := by
  have hv : Visit scope rest [(role, name)] (m :: scope.touched) s
      { t with scopes := t.scopes.touch m } :=
    visit_declares hd.member hd.outer ho (by simp [hd.unit.scopes]) hd.unit.component
  have := hv.trans (hl.visit (hv.nested h ho hs) (by rw [hv.scopes]))
  rwa [List.append_nil] at this

end UnitState

namespace ImportM

lemma requireClassifier_ok (h : s.Nested) (ho : s.scopes.opened = scope :: rest)
    (fault : Misplacement) : requireClassifier fault s = .ok scope.frame.home s := by
  have hc : s.scopes.classifier = some scope.frame.home := by
    simp [ScopeStack.classifier, ScopeStack.current, ho, h.frames scope (by simp [ho])]
  unfold requireClassifier
  refine (bind_run (show (get : ImportM UnitState) s = .ok s s from rfl)).trans ?_
  rw [hc]
  rfl

lemma performs_upsertOperation (h : s.Nested) (ho : s.scopes.opened = scope :: rest)
    (name : String) : Performs (.ofMembers u) s (upsertOperation scope.frame.home name s) fun op t =>
      t.graph.kind? op = some .operation ∧
        UnitState.Declared scope rest .operation name op s t := by
  unfold upsertOperation
  refine bind_query fun found hf => ?_
  cases found with
  | some op =>
    have hm := isMember_of_feature? h.graph rfl hf
    obtain ⟨x, hx, _, hk, _⟩ := id hm
    have hkind : x.kind = .operation := by
      revert hk
      cases x.kind <;> simp [NodeKind.role?]
    refine bind_emit (Performs.answer ⟨by rw [← hkind, ← kind?_eq hx], ?_⟩)
    have hd := h.declared_found ho hm
    exact ⟨⟨rfl, rfl⟩, hd.member, hd.outer⟩
  | none =>
    have hfresh := not_isMember_of_feature? h.graph (show NodeKind.operation.role? = some .operation from rfl) (by decide) hf
    obtain ⟨k, hk, hc⟩ := h.isClassifier (show scope ∈ s.scopes.opened by simp [ho])
    obtain ⟨g', hrun, hb⟩ := GraphM.buildOperation_ok (some name) (isLive_of_kind? hk)
    have hadd : s.graph.Addable
        { kind := .operation, name := some name, owner := some scope.frame.home } := by
      refine addable_member hk ?_ rfl (by simp) fun _ => hfresh
      revert hc
      cases k <;> decide
    have hstep := h.graph.build hadd rfl hb fun _ hf => absurd hf (not_fits_of_isKeyless rfl)
    refine bind_emit (bind_change hrun (hstep.permitted (.inr ⟨_, rfl, rfl⟩)) (bind_register ?_))
    refine Performs.answer ⟨hb.kind?_new, ?_⟩
    exact h.declared_built ho hb rfl rfl rfl hfresh ⟨rfl, rfl⟩

lemma performs_addOperation (h : s.Nested) (ho : s.scopes.opened = scope :: rest)
    (modifiers : ModifierSet) (returnType : Option String) (name : String)
    (parameters : List ParameterDeclaration) (doc : Option String) :
    Performs (.ofMembers u) s (addOperation u modifiers returnType name parameters doc s) fun _ t =>
      ∃ touched, UnitState.Visit scope rest
        (if u.pass.buildsReferences then [(.operation, name)] else []) touched s t := by
  unfold addOperation
  refine Performs.bind_same (requireClassifier_ok h ho _) rfl ?_
  cases u.pass.buildsReferences with
  | false => exact Performs.answer ⟨_, (UnitState.Leads.refl h.toSound).visit h ho⟩
  | true =>
    simp only [Bool.not_true, Bool.false_eq_true, if_false, if_true]
    refine Performs.bind (performs_upsertOperation h ho name) ?_
    rintro op t hs ⟨hop, hd⟩
    refine Performs.bind_same (t := { t with scopes := t.scopes.touch op }) rfl rfl ?_
    have ht := (h.toSound.steps hs hd.unit).touch op
    refine (Performs.leads (P := .aroundFeatures u) ht ?_ Permit.aroundFeatures_le_ofMembers).imp
      fun _ t' hl => ⟨_, hd.visit h ho hs hl⟩
    have hop' : ({ t with scopes := t.scopes.touch op } : UnitState).graph.kind? op =
        some .operation := hop
    generalize ({ t with scopes := t.scopes.touch op } : UnitState) = t₀ at ht hop'
    have plain : ∀ {f : Node → Node} {t : UnitState}, t₀.Leads t →
        (∀ r, (f r).essence = r.essence) →
        Performs (.aroundFeatures u) t (change (.update op f) t) fun _ t' => t.SameUnit t' :=
      fun ht₁ => performs_plain ht₁.sound.graph (once (ht₁.declared hop' rfl) (by decide))
    refine Performs.then_leads ht (plain (.refl ht) fun _ => rfl) fun _ t₁ h₁ => ?_
    refine Performs.then_leads h₁.sound (plain h₁ fun _ => rfl) fun _ t₂ h₂ => ?_
    replace h₂ := h₁.trans h₂
    refine Performs.then_leads h₂.sound (plain h₂ fun _ => rfl) fun _ t₃ h₃ => ?_
    replace h₃ := h₂.trans h₃
    refine bind_query fun params _ => ?_
    refine Performs.then_leads h₃.sound (performs_each h₃.sound fun p _ t ht =>
      performs_removeParameter ht.sound op p) fun _ t₄ h₄ => ?_
    replace h₄ := h₃.trans h₄
    refine Performs.then_leads h₄.sound (performs_addResult h₄.sound _ (h₄.declared hop' rfl) _ _)
      fun _ t₅ h₅ => ?_
    replace h₅ := h₄.trans h₅
    refine Performs.then_leads h₅.sound (performs_each h₅.sound fun p _ t ht =>
      performs_addParameter ht.sound (ht.declared (h₅.declared hop' rfl) rfl) p) fun _ t₆ h₆ => ?_
    replace h₆ := h₅.trans h₆
    refine Performs.then_leads h₆.sound (performs_addDocumentation h₆.sound.graph
      (once (h₆.declared hop' rfl) (by decide)) doc (by decide) (by decide)) fun _ t₇ _ => ?_
    exact Performs.answer (.refl t₇)

lemma performs_upsertAttribute (h : s.Nested) (ho : s.scopes.opened = scope :: rest)
    {type : Option NodeId}
    (ht : ∀ y, type = some y → ∃ k, s.graph.kind? y = some k ∧ k.isClassifier = true)
    (name : String) : Performs (.ofMembers u) s (upsertAttribute scope.frame.home type name s) fun n t =>
      t.graph.kind? n = some .attr ∧ UnitState.Declared scope rest .attr name n s t := by
  unfold upsertAttribute
  refine bind_query fun found hf => ?_
  cases found with
  | some n =>
    have hm := isMember_of_feature? h.graph rfl hf
    obtain ⟨x, hx, _, hk, _⟩ := id hm
    have hkind : x.kind = .attr := by
      revert hk
      cases x.kind <;> simp [NodeKind.role?]
    exact Performs.answer ⟨by rw [← hkind, ← kind?_eq hx], h.declared_found ho hm⟩
  | none =>
    have hfresh := not_isMember_of_feature? h.graph (show NodeKind.attr.role? = some .attr from rfl) (by decide) hf
    obtain ⟨k, hk, hc⟩ := h.isClassifier (show scope ∈ s.scopes.opened by simp [ho])
    obtain ⟨g', hrun, hb⟩ := GraphM.buildAttribute_ok (some name) (isLive_of_kind? hk)
      fun y hy => by
        obtain ⟨k, hk, _⟩ := ht y hy
        exact isLive_of_kind? hk
    have hadd : s.graph.Addable
        { kind := .attr, name := some name, owner := some scope.frame.home, type } := by
      refine addable_member hk ?_ rfl ht fun _ => hfresh
      revert hc
      cases k <;> decide
    have hstep := h.graph.build hadd rfl hb fun _ hf => absurd hf (not_fits_of_isKeyless rfl)
    refine bind_change hrun (hstep.permitted (.inr ⟨_, rfl, rfl⟩)) (bind_register (bind_emit ?_))
    refine Performs.answer ⟨hb.kind?_new, ?_⟩
    exact h.declared_built ho hb rfl rfl rfl hfresh ⟨rfl, rfl⟩

lemma performs_addPlainField (u : UnitContext) (h : s.Nested)
    (ho : s.scopes.opened = scope :: rest) (modifiers : ModifierSet) {type : Option NodeId}
    (htype : ∀ y, type = some y → ∃ k, s.graph.kind? y = some k ∧ k.isClassifier = true)
    (multiplicity name : String) (initializer doc : Option String) :
    Performs (.ofMembers u) s (addPlainField modifiers scope.frame.home type multiplicity name initializer doc s)
      fun _ t => ∃ touched, UnitState.Visit scope rest [(.attr, name)] touched s t := by
  unfold addPlainField
  refine Performs.bind (performs_upsertAttribute h ho htype name) ?_
  rintro n t hs ⟨hn, hd⟩
  refine Performs.bind_same (t := { t with scopes := t.scopes.touch n }) rfl rfl ?_
  have ht := (h.toSound.steps hs hd.unit).touch n
  have htype' : ∀ y, type = some y → t.graph.Once y (·.isClassifier = true) := by
    intro y hy
    obtain ⟨k, hk, hc⟩ := htype y hy
    exact (once hk hc).steps hs
  refine (Performs.leads (P := .aroundFeatures u) ht ?_ Permit.aroundFeatures_le_ofMembers).imp
    fun _ t' hl => ⟨_, hd.visit h ho hs hl⟩
  have hn' : ({ t with scopes := t.scopes.touch n } : UnitState).graph.kind? n = some .attr := hn
  change ∀ y, type = some y → ({ t with scopes := t.scopes.touch n } : UnitState).graph.Once y
    (·.isClassifier = true) at htype'
  generalize ({ t with scopes := t.scopes.touch n } : UnitState) = t₀ at ht hn' htype'
  have plain : ∀ {f : Node → Node} {t : UnitState}, t₀.Leads t →
      (∀ r, (f r).essence = r.essence) →
      Performs (.aroundFeatures u) t (change (.update n f) t) fun _ t' => t.SameUnit t' :=
    fun ht₁ => performs_plain ht₁.sound.graph (once (ht₁.declared hn' rfl) (by decide))
  have documented : ∀ {t : UnitState}, t₀.Leads t → Performs (.aroundFeatures u) t ((do
        let _ ← change (.addDocumentation n doc)
        return n : ImportM NodeId) t) fun _ t' => t.SameUnit t' :=
    fun ht₁ => Performs.then_leads ht₁.sound (performs_addDocumentation ht₁.sound.graph
      (once (ht₁.declared hn' rfl) (by decide)) doc (by decide) (by decide))
      fun _ t' _ => Performs.answer (.refl t')
  refine Performs.then_leads ht (plain (.refl ht) fun _ => rfl) fun _ t₁ h₁ => ?_
  refine Performs.then_leads h₁.sound (plain h₁ fun _ => rfl) fun _ t₂ h₂ => ?_
  replace h₂ := h₁.trans h₂
  refine Performs.then_leads h₂.sound (performs_setType h₂.sound.graph
    (once (h₂.declared hn' rfl) (by decide)) (fun y hy => (htype' y hy).steps h₂.steps) ?_)
    fun _ t₃ h₃ => ?_
  · intro r hr hk
    have := h₂.declared hn' rfl
    rw [kind?_eq hr, hk] at this
    exact absurd this (by simp)
  replace h₃ := h₂.trans h₃
  refine Performs.then_leads h₃.sound (plain h₃ fun _ => rfl) fun _ t₄ h₄ => ?_
  replace h₄ := h₃.trans h₄
  cases initializer with
  | none => exact documented h₄
  | some text =>
    refine Performs.then_leads h₄.sound (plain h₄ fun _ => rfl) fun _ t₅ h₅ => ?_
    exact documented (h₄.trans h₅)

/-- Whether a field of a type that was resolved, or of none, becomes an attribute. -/
def isPlain (u : UnitContext) (g : Graph) (type : Option NodeId) : Bool :=
  type.all fun n => !u.settings.generateAssociations || g.kind? n = some .dataType

lemma performs_associatedType? {P : Permit} (type : Option NodeId) :
    Performs P s (associatedType? u type s) fun found t => t = s ∧
      found = if isPlain u s.graph type then none else type := by
  unfold associatedType?
  cases type with
  | none => exact Performs.answer ⟨rfl, rfl⟩
  | some n =>
    cases hg : u.settings.generateAssociations with
    | false => exact Performs.answer ⟨rfl, by simp [isPlain, hg]⟩
    | true =>
      refine bind_query fun k hk => Performs.answer ⟨rfl, ?_⟩
      have hkind : s.graph.kind? n = some k := by
        unfold kindOf at hk
        cases hr : s.graph.node? n with
        | none => simp [get_of_none hr] at hk
        | some r =>
          rw [kind?_eq hr]
          simpa [get_of_node? hr] using hk
      simp [isPlain, hg, hkind]

/-- A field, given the type that was resolved. -/
lemma performs_addField (h : s.Nested) (ho : s.scopes.opened = scope :: rest)
    (modifiers : ModifierSet) {target : Option NodeId}
    (htarget : ∀ y, target = some y → ∃ k, s.graph.kind? y = some k ∧ k.isClassifier = true)
    (multiplicity name : String) (initializer doc : Option String) :
    Performs (.ofMembers u) s ((do
      match ← associatedType? u target with
      | none =>
        some <$> addPlainField modifiers scope.frame.home target multiplicity name initializer doc
      | some n =>
        some <$> addAssociatedField u modifiers scope.frame.home n multiplicity name doc :
      ImportM (Option NodeId)) s) fun _ t => ∃ touched, UnitState.Visit scope rest
        (if isPlain u s.graph target then [(.attr, name)] else []) touched s t := by
  refine Performs.bind (performs_associatedType? target) ?_
  rintro found t _ ⟨ht, rfl⟩
  obtain rfl : s = t := ht.symm
  cases hp : isPlain u s.graph target with
  | true =>
    simp only [if_true]
    have hrun : Performs (.ofMembers u) s _ _ :=
      performs_addPlainField u h ho modifiers htarget multiplicity name initializer doc
    exact ⟨Ends.map hrun.ends⟩
  | false =>
    cases target with
    | none => simp [isPlain] at hp
    | some n =>
      simp only [Bool.false_eq_true, if_false]
      obtain ⟨kt, hkt, hct⟩ := htarget n rfl
      obtain ⟨kc, hkc, hcc⟩ := h.isClassifier (show scope ∈ s.scopes.opened by simp [ho])
      have hrun : Performs (.ofMembers u) s _ fun _ t => s.Leads t :=
        Performs.leads h.toSound (performs_addAssociatedField h.toSound modifiers hkc hcc hkt hct
          multiplicity name doc) Permit.aroundFeatures_le_ofMembers
      exact ⟨Ends.map (hrun.ends.imp fun _ t ⟨hs, hl⟩ => ⟨hs, _, hl.visit h ho⟩)⟩

/-- Whether a field becomes an attribute when it is declared in a state: its type means nothing or
a data type there, or all fields are to be attributes. -/
def becomesAttribute (u : UnitContext) (type : Option String) (s : UnitState) : Bool :=
  match type with
  | none => true
  | some type =>
    match resolve u (elementType u.settings.arraysAsDatatype type).1 .any "an attribute" s with
    | .ok target t => isPlain u t.graph target
    | .error _ _ => false

lemma performs_addAttribute (h : s.Nested) (ho : s.scopes.opened = scope :: rest)
    (modifiers : ModifierSet) (type : Option String) (name : String)
    (initializer doc : Option String) :
    Performs (.ofMembers u) s (addAttribute u modifiers type name initializer doc s) fun _ t =>
      ∃ touched, UnitState.Visit scope rest
        (if u.pass.buildsReferences && becomesAttribute u type s then [(.attr, name)] else [])
        touched s t := by
  unfold addAttribute
  refine Performs.bind_same (requireClassifier_ok h ho _) rfl ?_
  cases u.pass.buildsReferences with
  | false => exact Performs.answer ⟨_, (UnitState.Leads.refl h.toSound).visit h ho⟩
  | true =>
    simp only [Bool.not_true, Bool.false_eq_true, if_false, Bool.true_and]
    have noType : ∀ y, (none : Option NodeId) = some y →
        ∃ k, s.graph.kind? y = some k ∧ k.isClassifier = true := by simp
    cases type with
    | none =>
      simp only [pure_bind]
      exact performs_addField h ho modifiers noType single name initializer doc
    | some type =>
      simp only [pure_bind]
      refine Performs.bind (Performs.leads_and h.toSound ((performs_resolve_feature _ _ _
        h.toSound).recorded.imp fun _ _ h => and_assoc.mp h)
        Permit.aroundFeatures_le_ofMembers) ?_
      rintro target t hs ⟨hl, htarget, hres⟩
      have hv := hl.visit h ho
      have ho' : t.scopes.opened = scope :: rest := by rw [hv.scopes]
      refine (performs_addField (hv.nested h ho hs) ho' modifiers htarget _ name initializer
        doc).imp ?_
      rintro _ t' ⟨touched, hv'⟩
      refine ⟨touched, ?_⟩
      simpa [becomesAttribute, hres] using hv.trans hv'

lemma performs_isEnumeration {P : Permit} (n : NodeId) :
    Performs P s (isEnumeration n s) fun _ t => t = s := by
  unfold isEnumeration
  refine bind_query fun k _ => ?_
  split_ifs
  · exact Performs.answer rfl
  · exact performs_query fun _ _ => rfl

lemma performs_addEnumerationLiteral (h : s.Nested) (ho : s.scopes.opened = scope :: rest)
    (name : String) : Performs (.ofMembers u) s (addEnumerationLiteral u name s) fun _ t =>
      ∃ touched, UnitState.Visit scope rest
        (if u.pass.buildsReferences then [(.attr, name)] else []) touched s t := by
  unfold addEnumerationLiteral
  refine Performs.bind_same (requireClassifier_ok h ho _) rfl ?_
  refine Performs.bind (performs_isEnumeration _) ?_
  rintro is t _ ht
  obtain rfl : s = t := ht.symm
  cases is with
  | false => exact Performs.failure_bind
  | true =>
    have hrun : Performs (.ofMembers u) s _ _ :=
      performs_addAttribute h ho { isPublic := true } none name none none
    simp only [becomesAttribute, Bool.and_true] at hrun
    exact hrun

end ImportM

end DeclGraph
