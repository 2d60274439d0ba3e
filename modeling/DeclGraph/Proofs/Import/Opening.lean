import DeclGraph.Proofs.Import.Declarations

/-! Heads of classifier declarations: their elements are described, and scopes are opened for their
members that know what was there before. -/

namespace DeclGraph

open DeclGraph.Graph

namespace UnitState

variable {s t t' : UnitState} {n m : NodeId} {name : String} {k : NodeKind} {frame : ScopeFrame}
  {scope : Scope} {rest : List Scope}

lemma Upserted.nested {P : Permit} (h : Upserted k name n s t) (hs : s.Nested)
    (hst : Steps P s.graph t.graph) : t.Nested := by
  refine hs.steps hst h.unit fun scope hin => ?_
  cases ho : s.scopes.opened with
  | nil => simp [ho] at hin
  | cons scope' rest =>
    have hd := h.declared ho
    rw [ho] at hin
    rcases List.mem_cons.mp hin with rfl | hin
    exacts [hd.member.toStays, (hd.outer scope hin).toStays]

lemma Nested.leads (h : s.Nested) (hl : s.Leads t) : t.Nested := by
  refine h.steps hl.steps hl.unit fun scope hin => ?_
  obtain ⟨k, hk, hc⟩ := h.isClassifier hin
  exact (hl.spares hk hc).toStays

lemma Nested.touch (h : s.Nested) (m : NodeId) :
    ({ s with scopes := s.scopes.touch m } : UnitState).Nested := by
  cases ho : s.scopes.opened with
  | nil =>
    refine ⟨h.toSound.touch m, ?_, ?_⟩ <;> simp [ScopeStack.touch, ho, Graph.Nested]
  | cons scope rest =>
    have hn := h.nested
    rw [ho] at hn
    refine ⟨h.toSound.touch m, ?_, ?_⟩
    · simpa [ScopeStack.touch, ho] using hn
    · intro scope' hin
      simp only [ScopeStack.touch, ho, List.mem_cons] at hin
      rcases hin with rfl | hin
      · exact h.frames scope (by simp [ho])
      · exact h.frames scope' (by simp [ho, hin])

lemma home_touch (s : UnitState) (m : NodeId) :
    ({ s with scopes := s.scopes.touch m } : UnitState).home = s.home := by
  cases ho : s.scopes.opened <;> simp [home, ScopeStack.current, ScopeStack.touch, ho]

/-- A classifier declared where the others are may be opened. -/
lemma Nested.push {r : Node} (h : s.Nested) (hr : s.graph.node? n = some r)
    (hk : r.kind.isClassifier = true) (ho : r.owner = some s.home)
    (ht : ¬s.graph.Tagged n generatedTag) (hframe : frame.home = n)
    (hclassifier : frame.classifier = some n) :
    ({ s with scopes := s.scopes.push frame } : UnitState).Nested := by
  obtain ⟨kp, hkp, hp⟩ := h.package
  refine ⟨⟨h.graph, h.package, h.component⟩, ?_, ?_⟩
  · change s.graph.Nested s.scopes.package (frame.home :: s.scopes.opened.map (·.frame.home))
    have hm : s.graph.IsMember s.home .inner r.name n :=
      ⟨r, hr, ho, NodeKind.role?_eq_inner.mpr hk, rfl⟩
    refine ⟨?_, hframe ▸ ht, ⟨r, hframe ▸ hr, hk, ?_⟩, h.nested⟩
    · rw [hframe]
      intro hin
      obtain ⟨scope, hin, heq⟩ := List.mem_map.mp hin
      exact (h.ne_of_member hm).2.2 scope hin heq
    · rw [ho, home, ScopeStack.current]
      cases s.scopes.opened <;> rfl
  · intro scope hin
    rcases List.mem_cons.mp hin with rfl | hin
    · rw [hclassifier, hframe]
    · exact h.frames scope hin

/-- A frame for a classifier that knows the members there are. -/
structure Frames (g : Graph) (n : NodeId) (frame : ScopeFrame) : Prop where
  home : frame.home = n
  features : ∀ m, m ∈ frame.priorFeatures ↔
    ∃ role name, role ≠ .inner ∧ g.IsMember n role (some name) m
  inner : ∀ m, m ∈ frame.priorInner ↔ ∃ name, g.IsMember n .inner (some name) m

/-- The element of a declared classifier is in its place, and its scope is open. -/
structure Opened (k : NodeKind) (name : String) (n : NodeId) (frame : ScopeFrame)
    (s t : UnitState) : Prop where
  upserted : Upserted k name n s { t with scopes := s.scopes }
  scopes : t.scopes = (s.scopes.touch n).push frame
  frames : Frames t.graph n frame
  nested : t.Nested

lemma Leads.outside {scopes : ScopeStack} (h : ({ s with scopes } : UnitState).Leads t)
    (hs : s.Sound) : s.Leads { t with scopes := s.scopes } := by
  obtain ⟨k, hk, hp⟩ := hs.package
  exact ⟨⟨h.sound.graph, ⟨k, hs.graph.package_steps h.steps hk hp, hp⟩, h.sound.component⟩,
    ⟨rfl, h.unit.component⟩, h.steps, h.declared, h.spares⟩

lemma Opened.leads (h : Opened k name n frame s t) (hs : s.Nested) (hk : k.isClassifier = true)
    (hl : t.Leads t') : Opened k name n frame s t' := by
  obtain ⟨r, hr, rfl, _⟩ := h.upserted.node
  have hsp := hl.spares (kind?_eq hr) hk
  refine ⟨?_, hl.unit.scopes.trans h.scopes, ⟨h.frames.home, fun m => ?_, fun m => ?_⟩,
    h.nested.leads hl⟩
  · have hp := h.nested.package
    have ht : ({ t with scopes := s.scopes } : UnitState).Sound :=
      ⟨h.nested.graph, by simpa [h.scopes] using hp, h.nested.component⟩
    exact h.upserted.leads hs hk (Leads.outside (s := { t with scopes := s.scopes }) hl ht)
  · simp only [h.frames.features, hsp.member]
  · simp only [h.frames.inner, hsp.member]

end UnitState

namespace ImportM

variable {s t : UnitState} {u : UnitContext} {n : NodeId} {name : String} {kind : ClassifierKind}
  {modifiers : ModifierSet} {doc : Option String} {homes : List NodeId}

lemma performs_describeClassifier (h : s.Sound) (hn : s.graph.kind? n = some kind.nodeKind) :
    Performs (.aroundClassifiers u) s (describeClassifier n kind modifiers s)
      fun _ t => s.SameUnit t := by
  have hin : kind.nodeKind ∈ NodeKind.describedWithClassifiers := by cases kind <;> decide
  have hdecl : kind.nodeKind.isDeclared = true := by cases kind <;> rfl
  have plain : ∀ {f : Node → Node} {t : UnitState}, s.Leads t →
      (∀ r, (f r).essence = r.essence) →
      Performs (.aroundClassifiers u) t (change (.update n f) t) fun _ t' => t.SameUnit t' :=
    fun ht => performs_plain ht.sound.graph (once (ht.declared hn hdecl) hin)
  cases kind with
  | classType =>
    refine Performs.then_leads h (plain (.refl h) fun _ => rfl) fun _ t ht => ?_
    exact plain ht fun _ => rfl
  | enumeration =>
    refine Performs.then_leads h ((performs_stereotype h.graph _ _ (by decide) (by decide)).imp
      fun _ _ h => h.1) fun st t ht => ?_
    have hn' := ht.declared hn hdecl
    refine Performs.then_leads ht.sound (performs_addStereotype ht.sound.graph
      (once hn' hin) (vacant_of_kind ?_) st) fun _ t' ht' => ?_
    · exact fun hk => Option.some.inj (hn'.symm.trans hk) ▸ rfl
    exact plain (ht.trans ht') fun _ => rfl
  | interfaceType => exact Performs.answer (.refl s)

lemma performs_openScope {r : Node} (h : s.Nested) (hr : s.graph.node? n = some r)
    (hk : r.kind.isClassifier = true) (ho : r.owner = some s.home)
    (ht : ¬s.graph.Tagged n generatedTag) :
    Performs (.clear u homes) s (openScope n s) fun _ t => ∃ frame : ScopeFrame,
      UnitState.Frames s.graph n frame ∧ t = { s with scopes := s.scopes.push frame } ∧
        t.Nested := by
  unfold openScope
  refine bind_query fun features hf => bind_query fun inner hi => ?_
  refine Performs.same rfl rfl
    ⟨_, ⟨rfl, fun m => ?_, fun m => ?_⟩, rfl, h.push hr hk ho ht rfl rfl⟩
  · have hfeatures : r.features = features := by
      simpa [featuresOf, get_of_node? hr] using hf
    rw [← hfeatures]
    exact h.graph.mem_features hr
  · obtain rfl := Except.ok.inj ((GraphM.innerClassifiers_ok h.graph.toLinked hr).symm.trans hi)
    exact h.graph.mem_innerClassifiers hr

lemma home_eq (h : s.Nested) : s.scopes.classifier.getD s.scopes.package = s.home := by
  unfold ScopeStack.classifier UnitState.home ScopeStack.current
  cases ho : s.scopes.opened with
  | nil => rfl
  | cons scope rest => simp [h.frames scope (by simp [ho])]

/-- The last part of the head of a classifier declaration, which opens its scope. -/
def openHead (u : UnitContext) (n : NodeId) (doc : Option String) : ImportM NodeId := do
  if u.pass.recordsDocumentation then
    let _ ← change (.addDocumentation n doc)
  openScope n
  return n

/-- What comes after the element of a classifier is described. -/
def endOfHead (u : UnitContext) (n : NodeId) (doc : Option String) (enclosing : Option NodeId) :
    ImportM NodeId := do
  if let (none, some component) := (enclosing, (← get).component) then
    if (← query (·.elementResidences n)).isEmpty then
      let _ ← change (.buildResidence n component)
  openHead u n doc

lemma addClassifier_eq (u : UnitContext) (kind : ClassifierKind) (name : String)
    (modifiers : ModifierSet) (doc : Option String) :
    addClassifier u kind name modifiers doc = (do
      let scopes := (← get).scopes
      let n ← upsertNode kind name (scopes.classifier.getD scopes.package)
      change (.setVisibility n modifiers.visibility)
      change (.setRoot n false)
      describeClassifier n kind modifiers
      modifyScopes (·.touch n)
      endOfHead u n doc scopes.classifier) := rfl

/-- The scope of an element is open, and all that was there before is kept. -/
def Entered (s : UnitState) (n : NodeId) (t : UnitState) : Prop :=
  ∃ (t₀ : UnitState) (frame : ScopeFrame), s.Leads t₀ ∧ UnitState.Frames t₀.graph n frame ∧
    t = { t₀ with scopes := t₀.scopes.push frame } ∧ t.Nested

/-- The end of the head of a classifier declaration. -/
lemma performs_endOfHead (kind : ClassifierKind) (h : s.Nested)
    (hn : s.graph.kind? n = some kind.nodeKind)
    (hhome : ∀ r, s.graph.node? n = some r → r.owner = some s.home)
    (htag : ¬s.graph.Tagged n generatedTag) (enclosing : Option NodeId) :
    Performs (.clear u homes) s (endOfHead u n doc enclosing s) fun m t =>
      m = n ∧ Entered s n t := by
  have hkind : kind.nodeKind.isClassifier = true := by cases kind <;> rfl
  have hdecl : kind.nodeKind.isDeclared = true := by cases kind <;> rfl
  have opened : ∀ t, s.Leads t →
      Performs (.clear u homes) t ((do openScope n; return n : ImportM NodeId) t) fun m t =>
        m = n ∧ Entered s n t := by
    intro t ht
    obtain ⟨r, hr, hk⟩ := kind?_eq_some.mp hn
    have hl := ht.spares hn hkind
    obtain ⟨r', hr', hk', ho', _⟩ := hl.node hr
    have hsame : t.home = s.home := by simp [UnitState.home, ht.unit.scopes]
    refine Performs.bind (performs_openScope (h.leads ht) hr' (by rw [hk', hk, hkind])
      (by rw [ho', hhome r hr, hsame]) fun ht' => htag (hl.tagged ht')) ?_
    rintro _ t' _ ⟨frame, hframe, ht', hnested⟩
    exact Performs.answer ⟨rfl, t, frame, ht, hframe, ht', hnested⟩
  have documented : ∀ t, s.Leads t →
      Performs (.clear u homes) t (openHead u n doc t) fun m t => m = n ∧ Entered s n t := by
    intro t ht
    unfold openHead
    split_ifs
    · refine Performs.bind (Performs.leads (P := .aroundClassifiers u) ht.sound
        (performs_addDocumentation ht.sound.graph (once (ht.declared hn hdecl) ?_) doc (by decide)
          (by decide)) (Permit.Modest.le_clear homes)) fun _ t' _ ht' => opened t' (ht.trans ht')
      cases kind <;> decide
    · exact opened t ht
  unfold endOfHead
  refine Performs.bind_same (t := s) (a := s) rfl rfl ?_
  cases enclosing with
  | some _ => exact documented _ (.refl h.toSound)
  | none =>
    dsimp only
    cases hcomp : s.component with
    | none => exact documented _ (.refl h.toSound)
    | some component =>
      refine bind_query fun residences hres => ?_
      cases hempty : residences.isEmpty with
      | false => exact documented _ (.refl h.toSound)
      | true =>
        refine Performs.bind (Performs.leads (P := .aroundClassifiers u) h.toSound
          (performs_buildResidence h.graph n component ?_ ?_ (free_residence hres hempty)
            (by decide)) (Permit.Modest.le_clear homes)) fun _ t _ ht => documented t ht
        · exact once hn hkind
        · exact h.component component hcomp

/-- The head of a classifier declaration. -/
lemma performs_addClassifier (h : s.Nested) (kind : ClassifierKind) (name : String)
    (modifiers : ModifierSet) (doc : Option String) :
    Performs (.clear u s.homes) s (addClassifier u kind name modifiers doc s) fun n t =>
      ∃ frame, UnitState.Opened kind.nodeKind name n frame s t := by
  have hkind : kind.nodeKind.isClassifier = true := by cases kind <;> rfl
  have hdecl : kind.nodeKind.isDeclared = true := by cases kind <;> rfl
  have hin : kind.nodeKind ∈ NodeKind.describedWithClassifiers := by cases kind <;> decide
  rw [addClassifier_eq]
  refine Performs.bind_same (t := s) (a := s) rfl rfl ?_
  simp only [home_eq h]
  refine Performs.bind (performs_upsertNode u h kind name) ?_
  rintro n t₀ hs₀ ⟨hu₀, htag₀⟩
  have h₀ : t₀.Nested := hu₀.nested h hs₀
  obtain ⟨r₀, hr₀, hk₀, ho₀, hname₀⟩ := hu₀.node
  have hn₀ : t₀.graph.kind? n = some kind.nodeKind := by rw [kind?_eq hr₀, hk₀]
  have plain : ∀ {f : Node → Node} {t : UnitState}, t₀.Leads t →
      (∀ r, (f r).essence = r.essence) →
      Performs (.clear u s.homes) t (change (.update n f) t) fun _ t' => t₀.Leads t' := by
    intro f t ht hf
    refine (Performs.leads (P := .aroundClassifiers u) ht.sound (performs_plain ht.sound.graph
      (once (ht.declared hn₀ hdecl) hin) hf) (Permit.Modest.le_clear s.homes)).imp
      fun _ _ ht' => ht.trans ht'
  refine Performs.bind (plain (.refl h₀.toSound) fun _ => rfl) fun _ t₁ _ h₁ => ?_
  refine Performs.bind (plain h₁ fun _ => rfl) fun _ t₂ _ h₂ => ?_
  refine Performs.bind (Performs.leads h₂.sound (performs_describeClassifier (u := u) h₂.sound
    (h₂.declared hn₀ hdecl)) (Permit.Modest.le_clear s.homes)) fun _ t₃ _ h₃ => ?_
  replace h₃ := h₂.trans h₃
  refine Performs.bind_same (t := { t₃ with scopes := t₃.scopes.touch n }) rfl rfl ?_
  have hspares := h₃.spares hn₀ hkind
  refine (performs_endOfHead kind ((h₀.leads h₃).touch n) (h₃.declared hn₀ hdecl)
    (fun r hr => ?_) (fun ht => htag₀ (hspares.tagged ht)) _).imp ?_
  · obtain ⟨r₃, hr₃, _, ho₃, _⟩ := hspares.node hr₀
    obtain rfl := Option.some.inj (hr.symm.trans hr₃)
    rw [ho₃, ho₀, UnitState.home_touch]
    simp [UnitState.home, h₃.unit.scopes, hu₀.unit.scopes]
  · rintro _ t ⟨rfl, t₄, frame, hl, hframe, rfl, hnested⟩
    have hscopes : t₃.scopes = s.scopes := h₃.unit.scopes.trans hu₀.unit.scopes
    have hl₀ := h₃.trans (hl.outside h₃.sound)
    refine ⟨frame, ?_, by simp [hl.unit.scopes, hscopes], hframe, hnested⟩
    rw [hscopes] at hl₀
    exact hu₀.leads h hkind hl₀

end ImportM

end DeclGraph
