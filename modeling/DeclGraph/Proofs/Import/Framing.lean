import DeclGraph.Proofs.Graph.Rooting
import DeclGraph.Proofs.Import.Descent
import DeclGraph.Proofs.Import.Steadiness
import DeclGraph.Proofs.Import.Units

/-! What is open in a unit while its calls come in any order and fail at any point. -/

namespace DeclGraph

open DeclGraph.Graph

namespace UnitState

variable {s t : UnitState} {u : UnitContext} {n v : NodeId} {scope : Scope} {rest : List Scope}
  {frame : ScopeFrame}

/-- The frames of the open classifiers, innermost first. -/
def frames (s : UnitState) : List ScopeFrame := s.scopes.opened.map (·.frame)

lemma homes_eq (s : UnitState) : s.homes = s.frames.map (·.home) := by
  simp [homes, frames, Function.comp_def]

/-- The open classifiers lie in each other and in the package, and the members that they had when
they were opened are members still, unless they are gone. -/
structure Framed (s : UnitState) : Prop extends Nested s where
  rooted : s.graph.Rooted
  former : ∀ frame ∈ s.frames, ∀ v, v ∈ frame.priorInner ∨ v ∈ frame.priorFeatures →
    s.graph.Former frame.home v

lemma InPlace.homes (h : s.InPlace t) : t.homes = s.homes := by
  rw [homes_eq, homes_eq, UnitState.frames, h.frames, UnitState.frames]

lemma Nested.inPlace (h : s.Nested) (hs : t.Sound) (hp : s.InPlace t)
    (hst : ∀ n ∈ s.homes, s.graph.Stays n t.graph) : t.Nested := by
  refine ⟨hs, ?_, fun scope hin => ?_⟩
  · have hnested : t.graph.Nested s.scopes.package s.homes := h.nested.stays hst
    rwa [← hp.package, ← hp.homes] at hnested
  · have hin' : scope.frame ∈ s.scopes.opened.map (·.frame) := hp.frames ▸ List.mem_map_of_mem hin
    obtain ⟨scope', hin', heq⟩ := List.mem_map.mp hin'
    exact heq ▸ h.frames scope' hin'

namespace Framed

/-- The graph changes, but what is open and what was in it stays. -/
lemma retained (h : s.Framed) (hs : t.Sound) (hroot : t.graph.Rooted) (hp : s.InPlace t)
    (hret : ∀ n ∈ s.homes, s.graph.Retains n t.graph) : t.Framed := by
  refine ⟨h.toNested.inPlace hs hp fun n hin => (hret n hin).toStays, hroot, fun frame hin v hv => ?_⟩
  have hin' : frame ∈ s.frames := by
    rw [UnitState.frames, ← hp.frames]
    exact hin
  exact (hret _ (homes_eq s ▸ List.mem_map_of_mem hin')).former (h.former frame hin' v hv)

lemma isClassifier (h : s.Framed) (hin : n ∈ s.homes) :
    ∃ k, s.graph.kind? n = some k ∧ k.isClassifier = true := by
  obtain ⟨scope, hopen, rfl⟩ := List.mem_map.mp hin
  exact h.toNested.isClassifier hopen

lemma retains (h : s.Framed) (hs : Steps (Permit.clear u s.homes) s.graph t.graph)
    (hin : n ∈ s.homes) : s.graph.Retains n t.graph := by
  obtain ⟨k, hk, hc⟩ := h.isClassifier hin
  exact h.graph.retains hs (fun _ _ hP => hP.2) hin hk hc

/-- Changes that keep clear of what is open. -/
lemma along (h : s.Framed) (hs : Steps (Permit.clear u s.homes) s.graph t.graph)
    (hp : s.InPlace t) : t.Framed := by
  obtain ⟨k, hk, hpack⟩ := h.package
  refine h.retained ⟨h.graph.steps hs, ⟨k, ?_, hpack⟩, fun c hc => ?_⟩
    (h.rooted.steps h.graph hs) hp fun n => h.retains hs
  · rw [hp.package]
    exact h.graph.package_steps hs hk hpack
  · rw [hp.component] at hc
    exact (h.component c hc).steps hs

end Framed

/-- A unit gets a component. -/
lemma Framed.settled {c : NodeId} (h : s.Framed) (hc : s.graph.Once c (· = .component)) :
    ({ s with component := some c } : UnitState).Framed :=
  ⟨⟨⟨h.graph, h.package, fun _ hc' => Option.some.inj hc' ▸ hc⟩, h.nested, h.frames⟩, h.rooted,
    h.former⟩

/-- A unit gets another package while nothing is open. -/
lemma Framed.entered {p : NodeId} {k : NodeKind} {touched : List NodeId} (h : s.Framed)
    (ho : s.scopes.opened = []) (hp : s.graph.kind? p = some k) (hk : k.isPackage = true) :
    ({ s with scopes := { s.scopes with package := p, packageTouched := touched } } :
      UnitState).Framed := by
  refine ⟨⟨⟨h.graph, ⟨k, hp, hk⟩, h.component⟩, ?_, ?_⟩, h.rooted, fun frame hin => ?_⟩
  · simp [ho, Graph.Nested]
  · simp [ho]
  · simp [frames, ho] at hin

/-- The innermost classifier is left. -/
lemma Framed.left (h : s.Framed) (ho : s.scopes.opened = scope :: rest) :
    ({ s with scopes := { s.scopes with opened := rest } } : UnitState).Framed := by
  have hn := h.nested
  rw [ho, List.map_cons] at hn
  refine ⟨⟨⟨h.graph, h.package, h.component⟩, hn.2.2.2, fun scope' hin => ?_⟩, h.rooted,
    fun frame hin => ?_⟩
  · exact h.frames scope' (by simp [ho, hin])
  · refine h.former frame ?_
    rw [frames, ho]
    exact List.mem_cons_of_mem _ hin

lemma InPlace.opened (h : s.InPlace t) (ho : s.scopes.opened = []) : t.scopes.opened = [] := by
  simpa [ho] using h.frames

/-- A classifier that was just opened knows its members. -/
lemma Opened.framed {k : NodeKind} {name : String} {P : Permit}
    (h : Opened k name n frame s t) (hs : s.Framed)
    (hst : Steps P s.graph t.graph) (hret : ∀ n ∈ s.homes, s.graph.Retains n t.graph) :
    t.Framed := by
  refine ⟨h.nested, hs.rooted.steps hs.graph hst, fun frame' hin v hv => ?_⟩
  have hframes : t.frames = frame :: s.frames := by
    rw [UnitState.frames, h.scopes]
    exact congrArg (frame :: ·) (s.scopes.frames_touch n)
  rw [hframes] at hin
  rcases List.mem_cons.mp hin with rfl | hin
  · obtain ⟨role, name, hm⟩ : ∃ role name, t.graph.IsMember n role name v := by
      rcases hv with hv | hv
      · obtain ⟨name, hm⟩ := (h.frames.inner v).mp hv
        exact ⟨_, _, hm⟩
      · obtain ⟨role, name, -, hm⟩ := (h.frames.features v).mp hv
        exact ⟨_, _, hm⟩
    rw [h.frames.home]
    exact ⟨lt_next hm.isLive, fun _ => ⟨role, name, hm⟩⟩
  · exact (hret _ (homes_eq s ▸ List.mem_map_of_mem hin)).former (hs.former frame' hin v hv)

end UnitState

/-- A run leaves what is open in order, whether it fails or not, and ends in `Q` if it does not. -/
structure Orderly {α : Type} (r : EStateM.Result ImportError UnitState α)
    (Q : α → UnitState → Prop) : Prop where
  ends : Ends r (fun a t => t.Framed ∧ Q a t) UnitState.Framed

namespace Orderly

variable {α β : Type} {s t : UnitState} {u : UnitContext} {x : ImportM α} {f : α → ImportM β}
  {r : EStateM.Result ImportError UnitState α} {Q R : α → UnitState → Prop} {a : α}
  {S : β → UnitState → Prop}

lemma imp (h : Orderly r Q) (hQ : ∀ a t, t.Framed → Q a t → R a t) : Orderly r R :=
  ⟨h.ends.imp fun a t ⟨ht, hq⟩ => ⟨ht, hQ a t ht hq⟩⟩

lemma final (h : Orderly r Q) : (finalState r).Framed := (h.ends.imp fun _ _ ht => ht.1).final

lemma answer (hs : s.Framed) (h : Q a s) : Orderly ((pure a : ImportM α) s) Q := ⟨hs, h⟩

lemma failed {e : ImportError} (hs : s.Framed) :
    Orderly (.error e s : EStateM.Result ImportError UnitState α) Q := ⟨hs⟩

lemma bind (hx : Orderly (x s) Q) (hf : ∀ a t, t.Framed → Q a t → Orderly (f a t) S) :
    Orderly ((x >>= f) s) S :=
  ⟨hx.ends.bind fun a t ⟨ht, hq⟩ => (hf a t ht hq).ends⟩

/-- A first part whose outcome is known. -/
lemma bind_ok (hx : x s = .ok a t) (hf : Orderly (f a t) S) : Orderly ((x >>= f) s) S := by
  rwa [bind_run hx]

lemma bind_query {g : Graph → Except GraphFault α} (hs : s.Framed)
    (hf : ∀ a, g s.graph = .ok a → Orderly (f a s) S) :
    Orderly ((ImportM.query g >>= f) s) S := by
  cases h : g s.graph with
  | ok a => exact bind_ok (ImportM.query_ok h) (hf a h)
  | error e =>
    rw [bind_failed (by simp only [ImportM.query, h]; rfl)]
    exact failed hs

/-- A program that opens and closes no scope leaves what is open in order if it makes only changes
that keep clear of it. -/
lemma of_performs (hx : Steady x) (h : s.Framed) (hrun : Performs (.clear u s.homes) s (x s) Q) :
    Orderly (x s) fun a t => s.InPlace t ∧ Q a t := by
  constructor
  apply Ends.mono (hrun.ends.and (hx.ends s))
  · rintro a t ⟨⟨hs, hq⟩, hp⟩
    exact ⟨h.along hs hp, hp, hq⟩
  · rintro t ⟨hs, hp⟩
    exact h.along hs hp

end Orderly

namespace ImportM

variable {s t : UnitState} {u : UnitContext} {n c p : NodeId} {k : NodeKind}
  {scope : Scope} {rest : List Scope}

/-! Members and edges of what is open -/

lemma requireClassifier_closed (ho : s.scopes.opened = []) (fault : Misplacement) :
    requireClassifier fault s = .error (.misplaced fault) s := by
  have hc : s.scopes.classifier = none := by
    simp [ScopeStack.classifier, ScopeStack.current, ho]
  unfold requireClassifier
  refine (bind_run (show (get : ImportM UnitState) s = .ok s s from rfl)).trans ?_
  rw [hc]
  rfl

lemma orderly_addOperation (h : s.Framed) (modifiers : ModifierSet) (returnType : Option String)
    (name : String) (parameters : List ParameterDeclaration) (doc : Option String) :
    Orderly (addOperation u modifiers returnType name parameters doc s) fun _ _ => True := by
  cases ho : s.scopes.opened with
  | nil =>
    unfold addOperation
    rw [bind_failed (requireClassifier_closed ho _)]
    exact .failed h
  | cons scope rest =>
    exact (Orderly.of_performs inferInstance h ((performs_addOperation (u := u) h.toNested ho
      modifiers returnType name parameters doc).weaken (Permit.ofMembers_le_clear _))).imp
      fun _ _ _ _ => trivial

lemma orderly_addAttribute (h : s.Framed) (modifiers : ModifierSet) (type : Option String)
    (name : String) (initializer doc : Option String) :
    Orderly (addAttribute u modifiers type name initializer doc s) fun _ _ => True := by
  cases ho : s.scopes.opened with
  | nil =>
    unfold addAttribute
    rw [bind_failed (requireClassifier_closed ho _)]
    exact .failed h
  | cons scope rest =>
    exact (Orderly.of_performs inferInstance h ((performs_addAttribute (u := u) h.toNested ho
      modifiers type name initializer doc).weaken (Permit.ofMembers_le_clear _))).imp
      fun _ _ _ _ => trivial

lemma orderly_addEnumerationLiteral (h : s.Framed) (name : String) :
    Orderly (addEnumerationLiteral u name s) fun _ _ => True := by
  cases ho : s.scopes.opened with
  | nil =>
    unfold addEnumerationLiteral
    rw [bind_failed (requireClassifier_closed ho _)]
    exact .failed h
  | cons scope rest =>
    exact (Orderly.of_performs inferInstance h ((performs_addEnumerationLiteral (u := u)
      h.toNested ho name).weaken (Permit.ofMembers_le_clear _))).imp fun _ _ _ _ => trivial

lemma orderly_addInheritance (h : s.Framed) (hn : s.graph.Once n (·.isClassifier = true))
    (kind : ClassifierKind) (superclass : Option String) (interfaces : List String) :
    Orderly (addInheritance u n kind superclass interfaces s) fun _ t => s.InPlace t := by
  have hrun := performs_addInheritance (u := u) h.toSound hn kind superclass interfaces
  exact (Orderly.of_performs inferInstance h (hrun.weaken (Permit.within_le_clear (by decide)
    s.homes))).imp fun _ _ _ ht => ht.1

/-! Classifiers -/

/-- Up to the opening of its scope, a declaration opens and closes none. -/
instance failsInPlace_addClassifier (kind : ClassifierKind) (name : String)
    (modifiers : ModifierSet) (doc : Option String) :
    FailsInPlace (addClassifier u kind name modifiers doc) := by
  have opened : ∀ n, FailsInPlace (do openScope n; return n : ImportM NodeId) := by
    intro n
    rw [bind_pure_comp]
    apply FailsInPlace.map
    unfold openScope
    refine (steady_query _).last fun _ => (steady_query _).last fun _ => ?_
    exact ⟨fun _ => trivial⟩
  have documented : ∀ n, FailsInPlace (do
      if u.pass.recordsDocumentation then
        let _ ← change (.addDocumentation n doc)
      openScope n
      return n : ImportM NodeId) := by
    intro n
    split_ifs
    · exact (steady_change _).last fun _ => opened n
    · exact opened n
  unfold addClassifier
  refine steady_get.last fun s => (steady_upsertNode ..).last fun n => ?_
  refine (steady_change _).last fun _ => (steady_change _).last fun _ => ?_
  refine (steady_describeClassifier ..).last fun _ => (steady_touch n).last fun _ => ?_
  refine steady_get.last fun t => ?_
  cases s.scopes.classifier with
  | some _ => exact documented n
  | none =>
    cases t.component with
    | none => exact documented n
    | some component =>
      refine (steady_query _).last fun residences => ?_
      cases residences.isEmpty with
      | true => exact (steady_change _).last fun _ => documented n
      | false => exact documented n

lemma orderly_addClassifier (h : s.Framed) (kind : ClassifierKind) (name : String)
    (modifiers : ModifierSet) (doc : Option String) :
    Orderly (addClassifier u kind name modifiers doc s) fun n t =>
      t.graph.Once n (·.isClassifier = true) := by
  have hkind : kind.nodeKind.isClassifier = true := by cases kind <;> rfl
  have hrun := performs_addClassifier (u := u) h.toNested kind name modifiers doc
  have hfail := failsInPlace_addClassifier (u := u) kind name modifiers doc
  constructor
  apply Ends.mono (hrun.ends.and (hfail.ends s))
  · rintro n t ⟨⟨hs, frame, hopen⟩, -⟩
    obtain ⟨r, hr, hk, -⟩ := hopen.upserted.node
    exact ⟨hopen.framed h hs fun _ => h.retains hs, once (kind?_eq hr) (by rw [hk, hkind])⟩
  · rintro t ⟨hs, hp⟩
    exact h.along hs hp

/-- A declaration is its head and the edges to its parents. -/
lemma orderly_declaration (h : s.Framed) (kind : ClassifierKind) (name : String)
    (modifiers : ModifierSet) (superclass : Option String) (interfaces : List String)
    (doc : Option String) : Orderly ((do
      let n ← addClassifier u kind name modifiers doc
      addInheritance u n kind superclass interfaces
      return n : ImportM NodeId) s) fun _ _ => True := by
  refine (orderly_addClassifier h kind name modifiers doc).bind fun n t ht hn => ?_
  refine (orderly_addInheritance ht hn kind superclass interfaces).bind fun _ t' ht' _ => ?_
  exact .answer ht' trivial

lemma evict_ok (v : NodeId) (t : UnitState) : ∃ t', evict v t = .ok () t' := by
  unfold evict
  rw [bind_run (show (get : ImportM UnitState) t = .ok t t from rfl)]
  cases hr : t.graph.node? v with
  | none => exact ⟨t, rfl⟩
  | some r =>
    have hrun : change (.delete v)
        { t with log := .staleRemoved r.kind.label (r.name.getD "") :: t.log } = .ok () _ :=
      change_ok (GraphM.delete_ok (isLive_of_node? hr))
    exact ⟨_, (bind_run rfl).trans ((bind_run hrun).trans rfl)⟩

lemma evictAll_ok (stale : List NodeId) (t : UnitState) :
    ∃ t', (stale.forM evict : ImportM PUnit) t = .ok ⟨⟩ t' := by
  induction stale generalizing t with
  | nil => exact ⟨t, rfl⟩
  | cons v stale ih =>
    obtain ⟨t₁, h₁⟩ := evict_ok v t
    obtain ⟨t₂, h₂⟩ := ih t₁
    exact ⟨t₂, (bind_run h₁).trans h₂⟩

/-- Leaving a classifier never fails while one is open. -/
lemma popClassifier_ok (h : s.Nested) (ho : s.scopes.opened = scope :: rest) :
    ∃ t, popClassifier u s = .ok scope.frame.home t := by
  have hpop : placed s.scopes.pop s =
      .ok (scope, { s.scopes with opened := rest }) s := by
    simp [ScopeStack.pop, ho, placed]
    rfl
  obtain ⟨t, ht⟩ := evictAll_ok (staleMembers u.pass scope)
    { s with scopes := { s.scopes with opened := rest } }
  unfold popClassifier
  refine ⟨t, (bind_run rfl).trans ((bind_run hpop).trans ((bind_run rfl).trans
    ((bind_run ht).trans ?_)))⟩
  simp only [h.frames scope (by simp [ho])]
  rfl

/-- A classifier that is left is the innermost one; the others are left alone. -/
lemma framed_popClassifier (h : s.Framed) (ho : s.scopes.opened = scope :: rest)
    (hrun : popClassifier u s = .ok n t) :
    n = scope.frame.home ∧ t.Framed ∧ t.scopes = { s.scopes with opened := rest } ∧
      ∀ scope' ∈ rest, s.graph.Spares scope'.frame.home t.graph := by
  have hstale : ∀ v ∈ staleMembers u.pass scope, s.graph.Former scope.frame.home v := by
    intro v hv
    obtain ⟨hin, -⟩ := mem_staleMembers.mp hv
    exact h.former scope.frame (List.mem_map_of_mem (by simp [ho])) v (hin.imp_right And.right)
  obtain ⟨hs, rfl, hev⟩ := (performs_popClassifier h.toNested ho hstale).ok hrun
  have outer : ∀ scope' ∈ rest, s.graph.Spares scope'.frame.home t.graph := fun scope' hin =>
    hev.outer _ (List.mem_map_of_mem hin)
  refine ⟨rfl, (h.left ho).retained hev.sound (h.rooted.steps h.graph hs) ?_ ?_, hev.unit.scopes,
    outer⟩
  · exact ⟨by rw [hev.unit.scopes], by rw [hev.unit.scopes], hev.unit.component,
      hev.unit.scopes ▸ .refl _⟩
  · intro p hin
    obtain ⟨scope', hrest, rfl⟩ : ∃ scope' ∈ rest, scope'.frame.home = p := List.mem_map.mp hin
    exact (outer scope' hrest).retains

lemma popClassifier_closed (ho : s.scopes.opened = []) :
    popClassifier u s = .error (.misplaced .nothingToLeave) s := by
  have hpop : placed s.scopes.pop s = .error (.misplaced .nothingToLeave) s := by
    simp [ScopeStack.pop, ho, placed]
    rfl
  unfold popClassifier
  rw [bind_run (show (get : ImportM UnitState) s = .ok s s from rfl), bind_failed hpop]

lemma orderly_popClassifier (h : s.Framed) : Orderly (popClassifier u s) fun _ _ => True := by
  cases ho : s.scopes.opened with
  | nil =>
    rw [popClassifier_closed ho]
    exact .failed h
  | cons scope rest =>
    obtain ⟨t, ht⟩ := popClassifier_ok (u := u) h.toNested ho
    rw [ht]
    exact ⟨(framed_popClassifier h ho ht).2.1, trivial⟩

/-! Import clauses, packages and components -/

/-- A component that is not found is made in the root, wherever it was looked for. -/
lemma orderly_upsertComponent (h : s.Framed) (p : NodeId) (name : String) :
    Orderly (upsertComponent p name s) fun c t =>
      s.InPlace t ∧ t.graph.Once c (· = .component) := by
  unfold upsertComponent
  refine .bind_query h fun found hf => ?_
  cases found with
  | some c => exact .answer h ⟨.refl s, once (component_of_component? hf) rfl⟩
  | none =>
    obtain ⟨g', hrun, hb⟩ := GraphM.create_under s.graph .component (some name) h.graph.root_live
    have hadd : s.graph.Addable { kind := .component, name := some name, owner := some root } := by
      apply addable_of_role (fun s => by cases s <;> rfl) ⟨by simp, by simp, by simp⟩ ?_
        (fun _ => ⟨root, rfl⟩) (joins_of_endpoints rfl) rfl (by simp) rfl rfl
      intro p hp
      exact ⟨_, Option.some.inj hp ▸ h.graph.root_kind, rfl⟩
    have built : ∀ {t : UnitState}, t.graph = g' → s.InPlace t → t.Framed := by
      intro t hg hp
      have retains : ∀ n, s.graph.Retains n t.graph := fun n =>
        hg ▸ hb.retains fun hk => absurd hk (by simp)
      obtain ⟨k, hk, hpack⟩ := h.package
      refine h.retained ⟨hg ▸ h.graph.built hadd rfl hb, ⟨k, ?_, hpack⟩, fun c hc => ?_⟩
        (hg ▸ h.rooted.built hadd hb) hp fun n _ => retains n
      · rw [hp.package]
        exact (retains _).kind? hk
      · rw [hp.component] at hc
        have hold := h.component c hc
        refine ⟨hg ▸ hold.old.trans_le hb.ages.next, fun {k} hk => ?_⟩
        have hl : s.graph.isLive c = true := hb.ages.live c hold.old (hg ▸ isLive_of_kind? hk)
        exact hold.kind (by rw [← hb.kind?_old hl, ← hg, hk])
    refine Orderly.bind_ok (change_ok hrun) (Orderly.bind_ok rfl (Orderly.bind_ok rfl ?_))
    exact .answer (built rfl ⟨rfl, rfl, rfl, .refl _⟩)
      ⟨⟨rfl, rfl, rfl, .refl _⟩, once hb.kind?_new rfl⟩

lemma orderly_addComponent (h : s.Framed) : Orderly (addComponent u s) fun _ _ => True := by
  unfold addComponent
  refine Orderly.bind_ok (a := s) (t := s) rfl ?_
  refine (orderly_upsertComponent h _ _).bind fun c t ht ⟨_, hc⟩ => ?_
  exact Orderly.bind_ok rfl (.answer (ht.settled hc) trivial)

lemma orderly_addImport (h : s.Framed) (name : String) :
    Orderly (addImport u name s) fun _ _ => True :=
  (Orderly.of_performs inferInstance h ((performs_addImport h.toSound name).weaken
    (Permit.Modest.le_clear _))).imp fun _ _ _ _ => trivial

lemma orderly_getPackage (u : UnitContext) (h : s.Framed) (name : String) :
    Orderly (getPackage name s) fun p t =>
      s.InPlace t ∧ ∃ k, t.graph.kind? p = some k ∧ k.isPackage = true :=
  (Orderly.of_performs inferInstance h ((performs_getPackage_unit (u := u) h.toSound name).weaken
    (Permit.Modest.le_clear _))).imp fun _ _ _ ⟨hp, _, _, hk⟩ => ⟨hp, hk⟩

lemma orderly_settle (u : UnitContext) (h : s.Framed) (hp : s.graph.kind? p = some k)
    (hk : k.isPackage = true) :
    Orderly (settle p s) fun _ _ => True := by
  unfold settle
  refine Orderly.bind_ok (a := s) (t := s) rfl ?_
  cases hc : s.component with
  | none => exact .answer h trivial
  | some c =>
    have hrun := (performs_settleComponent (u := u) h.graph (h.component c hc) hp hk).weaken
      (Permit.Modest.le_clear s.homes)
    refine (Orderly.of_performs inferInstance h hrun).bind ?_
    rintro c' t ht ⟨-, -, hc'⟩
    exact .answer (ht.settled hc') trivial

lemma orderly_enterPackage (h : s.Framed) (name : String) :
    Orderly (enterPackage u name s) fun _ _ => True := by
  have entered : ∀ t : UnitState, t.Framed → t.scopes.opened = [] →
      Orderly (moveTo name t) fun _ _ => True := by
    intro t ht ho
    unfold moveTo moveToPackage
    refine (orderly_getPackage u ht name).bind ?_
    rintro p t' ht' ⟨hp, k, hk, hpack⟩
    have ho' := hp.opened ho
    have hreset : t'.scopes.resetPackage p =
        .ok { t'.scopes with package := p, packageTouched := [] } := by
      simp [ScopeStack.resetPackage, ho']
    refine Orderly.bind_ok (a := t') (t := t') rfl ?_
    rw [hreset]
    refine Orderly.bind_ok rfl (Orderly.bind_ok rfl ?_)
    exact orderly_settle u (ht'.entered ho' hk hpack) hk hpack
  rw [enterPackage_eq]
  refine Orderly.bind_ok (a := s) (t := s) rfl ?_
  split_ifs with hd
  · exact .failed h
  have ho : s.scopes.opened = [] := List.length_eq_zero_iff.mp (not_not.mp hd)
  cases hn : QualifiedName.segments name with
  | nil => exact entered s h ho
  | cons outer rest =>
    cases hpath : u.settings.srcPath with
    | none => exact entered s h ho
    | some path =>
      refine (orderly_getPackage u h outer).bind ?_
      rintro p t ht ⟨hp, k, hk, hpack⟩
      have hot := hp.opened ho
      refine Orderly.bind_query ht fun tagged _ => ?_
      cases tagged with
      | some _ => exact entered t ht hot
      | none =>
        have hne : t.graph.Once p (·.mayOwn .taggedValue = true) := by
          apply once hk
          revert hpack
          cases k <;> decide
        have hrun := (performs_setTaggedValue ht.graph hne srcPathTag path (by decide) (by decide)
          (by decide)).weaken (Permit.Modest.le_clear (u := u) (P := .aroundUnits u) t.homes)
        refine (Orderly.of_performs inferInstance ht hrun).bind ?_
        rintro _ t' ht' ⟨hp', -⟩
        exact entered t' ht' (hp'.opened hot)

end ImportM

end DeclGraph
