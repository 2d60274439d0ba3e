import DeclGraph.Proofs.Graph.Growth
import DeclGraph.Proofs.Import.Linking

/-! Open classifiers in the course of a run: what declares no member leaves them alone, and a visit
to one of them leaves the outer ones alone. -/

namespace DeclGraph

open DeclGraph.Graph

/-- Anything may be done that is free to be done and keeps clear of some classifiers. -/
def Permit.clear (u : UnitContext) (homes : List NodeId) : Permit :=
  fun g c => Permit.free u g c ∧ c.Clears homes g

lemma Permit.clear_le_free {u : UnitContext} {homes : List NodeId} :
    Permit.clear u homes ≤ Permit.free u := fun _ _ h => h.1

section within

variable {u : UnitContext} {made edited : List NodeKind} {g g' : Graph} {n m : NodeId} {k : NodeKind}
  {c : Change}

/-- What makes no members keeps clear of all classifiers. -/
lemma Permit.within_le_clear (hm : ∀ k ∈ made, k.role? = none) (homes : List NodeId) :
    Permit.within u made edited ≤ Permit.clear u homes := by
  intro g c h
  refine ⟨within_le_free g c h, ?_⟩
  cases c with
  | build r => exact h.2
  | move n home =>
    obtain ⟨k, hk, hn, hnt⟩ := h
    obtain ⟨r, hr, rfl⟩ := kind?_eq_some.mp hn
    exact ⟨r, hr, hnt, Or.inl (hm _ hk)⟩
  | delete n =>
    obtain ⟨k, hk, hn, _⟩ := h
    exact ⟨k, hn, hm k hk⟩
  | supersede old r => exact h.elim
  | edit n r => trivial
  | force r => trivial
  | associate r => trivial

lemma Graph.Sound.spares_step (h : g.Sound) (hP : Permit.within u made edited g c)
    (hc : g.Step c g') (hm : ∀ k ∈ made, k.role? = none) (hn : g.kind? n = some k)
    (hk : k.isClassifier = true) : g.Spares n g' := by
  cases hc with
  | build _ _ hb =>
    refine hb.spares (fun hr => ?_) fun hkt hname => absurd hname (hP.2 hkt)
    simp [hm _ hP.1] at hr
  | move hr _ hmoved =>
    obtain ⟨k', hk', hkind, hnt⟩ := hP
    obtain rfl := Option.some.inj ((kind?_eq hr).symm.trans hkind)
    have hrole := hm _ hk'
    refine hmoved.spares hr (NodeKind.slot_ne_features hrole).symm hnt ?_ (by simp [hrole])
    rintro rfl
    obtain rfl := Option.some.inj (hn.symm.trans hkind)
    rw [NodeKind.role?_eq_inner.mpr hk] at hrole
    exact absurd hrole (by simp)
  | edit hr he _ hed => exact hed.spares hr he n
  | @delete v r hr hnp =>
    obtain ⟨k', hk', hkind, _⟩ := hP
    obtain rfl := Option.some.inj ((kind?_eq hr).symm.trans hkind)
    have hund : r.kind.isDeclared = false := by simp [NodeKind.isDeclared, hnp, hm _ hk']
    refine h.spares_remove (h.not_doomed hkind hund hn ?_) fun hmem => ?_
    · exact NodeKind.isDeclared_of_role (NodeKind.role?_eq_inner.mpr hk)
    · obtain ⟨k'', hk'', hrole⟩ := hmem.declared
      exact h.not_doomed hkind hund hk'' (NodeKind.isDeclared_of_role hrole)
  | force _ _ hp hb hmark =>
    obtain ⟨p, kp, ho, hkp, hpack⟩ := hp
    have hnp : p ≠ n := by
      rintro rfl
      obtain rfl := Option.some.inj (hn.symm.trans hkp)
      revert hk hpack
      cases k <;> decide
    have hnn := ne_next (isLive_of_kind? hn)
    refine (hb.spares (fun _ hon => ?_) fun _ _ hon => ?_).trans
      (hmark.spares (fun hr => ?_) fun _ _ hon => ?_)
    · exact hnp (Option.some.inj (ho.symm.trans hon))
    · exact hnp (Option.some.inj (ho.symm.trans hon))
    · simp [Node.mark, NodeKind.role?] at hr
    · exact hnn (Option.some.inj hon).symm
  | supersede => exact hP.elim
  | associate ha => exact ha.spares n

/-- Runs that make no members leave every classifier alone. -/
lemma Graph.Sound.spares_within (h : g.Sound) (hs : Steps (Permit.within u made edited) g g')
    (hm : ∀ k ∈ made, k.role? = none) (hn : g.kind? n = some k) (hk : k.isClassifier = true) :
    g.Spares n g' := by
  refine h.relate (R := fun g g' => ∀ n k, g.kind? n = some k → k.isClassifier = true →
    g.Spares n g') hs (fun g n _ _ _ => .refl g n) ?_ ?_ n k hn hk
  · exact fun h h' n k hn hk => (h n k hn hk).trans (h' n k ((h n k hn hk).kind? hn) hk)
  · exact fun h hP hc n k hn hk => h.spares_step hP hc hm hn hk

lemma Graph.Sound.declared_step (h : g.Sound) (hP : Permit.within u made edited g c)
    (hc : g.Step c g') (hm : ∀ k ∈ made, k.role? = none) (hn : g.kind? n = some k)
    (hk : k.isDeclared = true) : g'.kind? n = some k := by
  have hl := isLive_of_kind? hn
  cases hc with
  | build _ _ hb => rw [hb.kind?_old hl, hn]
  | move hr _ hmoved => rw [hmoved.kind?, hn]
  | edit hr he _ hed => rw [hed.kind? hr he.place.kind, hn]
  | @delete v r hr hnp =>
    obtain ⟨k', hk', hkind, _⟩ := hP
    obtain rfl := Option.some.inj ((kind?_eq hr).symm.trans hkind)
    have hund : r.kind.isDeclared = false := by simp [NodeKind.isDeclared, hnp, hm _ hk']
    rw [kind?_remove (h.not_doomed hkind hund hn hk), hn]
  | force _ _ _ hb hmark => rw [hmark.kind?_old (hb.live hl), hb.kind?_old hl, hn]
  | supersede => exact hP.elim
  | associate ha => rw [ha.kind?_old hl, hn]

/-- Runs that make no members leave what is declared there. -/
lemma Graph.Sound.declared_within (h : g.Sound) (hs : Steps (Permit.within u made edited) g g')
    (hm : ∀ k ∈ made, k.role? = none) (hn : g.kind? n = some k) (hk : k.isDeclared = true) :
    g'.kind? n = some k := by
  refine h.relate (R := fun g g' => ∀ n k, g.kind? n = some k → k.isDeclared = true →
    g'.kind? n = some k) hs (fun g n _ h _ => h) ?_ ?_ n k hn hk
  · exact fun h h' n k hn hk => h' n k (h n k hn hk) hk
  · exact fun h hP hc n k hn hk => h.declared_step hP hc hm hn hk

/-- What may be done gains nothing. -/
structure Permit.Idle (P : Permit) : Prop where
  step : ∀ {g g' : Graph} {c : Change}, g.Sound → P g c → g.Step c g' → g.Gains {} g'

lemma Permit.Idle.steps {P : Permit} (hP : P.Idle) (h : g.Sound) (hs : Steps P g g') :
    g.Gains {} g' := by
  induction hs with
  | refl => exact .refl g
  | step hs hc hstep ih => exact ih.andThen (hP.step (h.steps hs) hc hstep)

/-- What is told apart neither by what it says nor by what leads from it comes and goes unnoticed,
and what says nothing may change. -/
lemma Permit.idle_within (hu : u.settings.unresolvedPolicy ≠ .force)
    (hm : ∀ k ∈ made, k.isPlain = true) (he : ∀ k ∈ edited, k.isTie = false) :
    (Permit.within u made edited).Idle := by
  refine ⟨fun {g g' c} h hP hc => ?_⟩
  have slight : ∀ {k : NodeKind}, k.isPlain = true → k.isPackage = false → k ≠ .stereotype →
      k.isSlight = true := by
    intro k
    cases k <;> decide
  have endpoint : ∀ {k : NodeKind}, k.isSlight = true → k.isEndpoint = false := by
    intro k
    cases k <;> decide
  cases hc with
  | @build r g' ha _ hb =>
    have hgains := h.toRegular.gains_built ha hb hP.2
    rwa [Growth.ofNew_of_isPlain (hm _ hP.1)] at hgains
  | @move n home r g' hr hmov hmoved =>
    obtain ⟨k, hk, hkind, hnt⟩ := hP
    obtain rfl := Option.some.inj ((kind?_eq hr).symm.trans hkind)
    have hplain := hm _ hk
    have hgains := h.toLinked.gains_moved hr hmoved ?_ hnt
    · rwa [Growth.ofOld_of_ne (by rintro hc; rw [hc] at hplain; exact absurd hplain (by decide))]
        at hgains
    · have := hmov.notPackage
      revert this hplain
      cases r.kind <;> decide
  | @edit n r r' g' hr hed _ hedited =>
    obtain ⟨k, hk, hkind⟩ := hP
    obtain rfl := Option.some.inj ((kind?_eq hr).symm.trans hkind)
    have htie := he _ hk
    refine hedited.gains hr hed (fun l => iff_of_false ?_ ?_) fun hmark => ?_
    · exact Node.not_links_of_isTie (by rw [hed.place.kind, htie]) l
    · exact Node.not_links_of_isTie htie l
    · have hnone : ∀ k : NodeKind, k.isTie = false → k.mark?.isSome = false := by
        intro k
        cases k <;> decide
      rw [hnone _ htie] at hmark
      exact Bool.noConfusion hmark
  | @delete n r hr hnp =>
    obtain ⟨k, hk, hkind, hst⟩ := hP
    obtain rfl := Option.some.inj ((kind?_eq hr).symm.trans hkind)
    have hs := slight (hm _ hk) hnp hst
    have hgains := h.gains_removed hr (Or.inl hs) fun l ⟨m, x, hx, hl⟩ hin => ?_
    · rwa [Growth.ofOld_of_ne (by rintro hc; rw [hc] at hs; exact absurd hs (by decide))] at hgains
    · have hend := (h.proper hx).endpoint n (Node.ends_subset_endpoints hl hin) hkind
      rw [endpoint hs] at hend
      exact Bool.noConfusion hend
  | force => exact absurd hP hu
  | supersede => exact hP.elim
  | associate ha => exact h.gains_associated ha

end within

@[simp] lemma ScopeStack.package_touch (s : ScopeStack) (n : NodeId) :
    (s.touch n).package = s.package := by
  unfold touch
  split <;> rfl

@[simp] lemma ScopeStack.package_push (s : ScopeStack) (frame : ScopeFrame) :
    (s.push frame).package = s.package := rfl

namespace UnitState

variable {u : UnitContext} {made edited : List NodeKind} {s t s' : UnitState} {scope : Scope}
  {rest : List Scope} {touched touched' : List NodeId} {keys keys' : List (MemberRole × String)}

/-- `t` comes after `s` in a run that declares nothing. -/
structure Leads (s t : UnitState) : Prop where
  sound : t.Sound
  unit : s.SameUnit t
  steps : Steps ⊤ s.graph t.graph
  declared : ∀ {n k}, s.graph.kind? n = some k → k.isDeclared = true → t.graph.kind? n = some k
  spares : ∀ {n k}, s.graph.kind? n = some k → k.isClassifier = true → s.graph.Spares n t.graph

lemma Sound.leads (h : s.Sound) (hs : Steps (Permit.within u made edited) s.graph t.graph)
    (hm : ∀ k ∈ made, k.role? = none) (hu : s.SameUnit t) : s.Leads t :=
  ⟨h.steps hs hu, hu, hs.mono le_top, h.graph.declared_within hs hm, h.graph.spares_within hs hm⟩

lemma Leads.refl (h : s.Sound) : s.Leads s := ⟨h, .refl s, .refl, fun h _ => h, fun _ _ => .refl _ _⟩

lemma Leads.trans (h : s.Leads t) (h' : t.Leads s') : s.Leads s' :=
  ⟨h'.sound, h.unit.trans h'.unit, h.steps.trans h'.steps, fun hn hk => h'.declared (h.declared hn hk) hk,
    fun hn hk => (h.spares hn hk).trans (h'.spares ((h.spares hn hk).kind? hn) hk)⟩

/-- The open classifiers of a unit lie in each other and in the package. -/
structure Nested (s : UnitState) : Prop extends Sound s where
  nested : s.graph.Nested s.scopes.package (s.scopes.opened.map (·.frame.home))
  frames : ∀ scope ∈ s.scopes.opened, scope.frame.classifier = some scope.frame.home

/-- Where the members of the open classifiers are, innermost first. -/
def homes (s : UnitState) : List NodeId := s.scopes.opened.map (·.frame.home)

/-- Part of a visit to the innermost open classifier: its members under some keys are declared, and
the outer classifiers are left alone. -/
structure Visit (scope : Scope) (rest : List Scope) (keys : List (MemberRole × String))
    (touched : List NodeId) (s s' : UnitState) : Prop where
  component : s'.component = s.component
  scopes : s'.scopes = { s.scopes with opened := { scope with touched } :: rest }
  home : s.graph.Stays scope.frame.home s'.graph
  track : ∀ {g₁ : Graph} {done}, g₁.Track scope.frame.home done scope.touched s.graph →
    g₁.Track scope.frame.home (done ++ keys) touched s'.graph
  outer : ∀ scope' ∈ rest, s.graph.Spares scope'.frame.home s'.graph

lemma Visit.trans (h : Visit scope rest keys touched s t)
    (h' : Visit { scope with touched } rest keys' touched' t s') :
    Visit scope rest (keys ++ keys') touched' s s' where
  component := h'.component.trans h.component
  scopes := by rw [h'.scopes, h.scopes]
  home := h.home.trans h'.home
  track htr := by
    rw [← List.append_assoc]
    exact h'.track (h.track htr)
  outer scope' hin := (h.outer scope' hin).trans (h'.outer scope' hin)

lemma Nested.steps {P : Permit} (h : s.Nested) (hs : Steps P s.graph t.graph) (hu : s.SameUnit t)
    (hst : ∀ scope ∈ s.scopes.opened, s.graph.Stays scope.frame.home t.graph) : t.Nested := by
  refine ⟨h.toSound.steps hs hu, ?_, ?_⟩
  · rw [hu.scopes]
    refine h.nested.stays fun n hn => ?_
    obtain ⟨scope, hin, rfl⟩ := List.mem_map.mp hn
    exact hst scope hin
  · rw [hu.scopes]
    exact h.frames

lemma Visit.nested {P : Permit} (h : Visit scope rest keys touched s t) (hs : s.Nested)
    (ho : s.scopes.opened = scope :: rest) (hst : Steps P s.graph t.graph) : t.Nested := by
  have hopen : t.scopes.opened = { scope with touched } :: rest := by rw [h.scopes]
  have hpack : t.scopes.package = s.scopes.package := by rw [h.scopes]
  obtain ⟨k, hk, hp⟩ := hs.package
  refine ⟨⟨hs.graph.steps hst, ⟨k, ?_, hp⟩, fun c hc => ?_⟩, ?_, ?_⟩
  · rw [hpack]
    exact hs.graph.package_steps hst hk hp
  · rw [h.component] at hc
    exact (hs.component c hc).steps hst
  · rw [hpack, hopen]
    have hnest := hs.nested
    rw [ho] at hnest
    refine hnest.stays fun n hn => ?_
    simp only [List.map_cons, List.mem_cons, List.mem_map] at hn
    rcases hn with rfl | ⟨scope', hin, rfl⟩
    · exact h.home
    · exact (h.outer scope' hin).toStays
  · rw [hopen]
    intro scope' hin
    rcases List.mem_cons.mp hin with rfl | hin
    · exact hs.frames scope (by simp [ho])
    · exact hs.frames scope' (by simp [ho, hin])

lemma Nested.isClassifier (h : s.Nested) (hin : scope ∈ s.scopes.opened) :
    ∃ k, s.graph.kind? scope.frame.home = some k ∧ k.isClassifier = true := by
  obtain ⟨_, r, hr, hk, _⟩ := h.nested.classifier (List.mem_map_of_mem hin)
  exact ⟨_, kind?_eq hr, hk⟩

/-- What declares nothing is part of a visit. -/
lemma Leads.visit (h : s.Leads t) (hs : s.Nested) (ho : s.scopes.opened = scope :: rest) :
    Visit scope rest [] scope.touched s t := by
  have spares : ∀ scope' ∈ scope :: rest, s.graph.Spares scope'.frame.home t.graph := by
    intro scope' hin
    obtain ⟨k, hk, hc⟩ := hs.isClassifier (ho ▸ hin)
    exact h.spares hk hc
  refine ⟨h.unit.component, ?_, (spares scope (by simp)).toStays, fun htr => ?_,
    fun scope' hin => spares scope' (by simp [hin])⟩
  · rw [h.unit.scopes, ← ho]
  · rw [List.append_nil]
    exact htr.spares (spares scope (by simp))

lemma Sound.touch (h : s.Sound) (m : NodeId) :
    ({ s with scopes := s.scopes.touch m } : UnitState).Sound := by
  refine ⟨h.graph, ?_, h.component⟩
  rw [ScopeStack.package_touch]
  exact h.package

/-- Declaring a member is part of a visit. -/
lemma visit_declares {role : MemberRole} {name : String} {m : NodeId}
    (hd : s.graph.Declares scope.frame.home role name m t.graph)
    (hout : ∀ scope' ∈ rest, s.graph.Spares scope'.frame.home t.graph)
    (ho : s.scopes.opened = scope :: rest) (hsc : t.scopes = s.scopes.touch m)
    (hc : t.component = s.component) :
    Visit scope rest [(role, name)] (m :: scope.touched) s t := by
  refine ⟨hc, ?_, hd.toStays, fun htr => htr.declares hd, hout⟩
  rw [hsc, ScopeStack.touch, ho]

end UnitState

/-- What may be done declares nothing. -/
class Permit.Modest (u : outParam UnitContext) (P : Permit) : Prop where
  le_clear : ∀ homes, P ≤ .clear u homes
  leads : ∀ {s t : UnitState}, s.Sound → Steps P s.graph t.graph → s.SameUnit t → s.Leads t

section modest

variable {α β : Type} {u : UnitContext} {P P' : Permit} [hP : Permit.Modest u P] {s : UnitState}
  {x : ImportM α} {f : α → ImportM β} {Q : α → UnitState → Prop}
  {r : EStateM.Result ImportError UnitState α}

include hP

/-- One part after the other, none of which declares anything. -/
lemma Performs.bind_leads (h : s.Sound)
    (hx : Performs P s (x s) fun a t => s.SameUnit t ∧ Q a t)
    (hf : ∀ a t, s.Leads t → Q a t → Performs P t (f a t) fun _ t' => t.SameUnit t') :
    Performs P s ((x >>= f) s) fun _ t' => s.SameUnit t' :=
  hx.bind fun a t hs ⟨hu, hQ⟩ => (hf a t (Permit.Modest.leads h hs hu) hQ).imp fun _ _ => hu.trans

lemma Performs.then_leads (h : s.Sound) (hx : Performs P s (x s) fun _ t => s.SameUnit t)
    (hf : ∀ a t, s.Leads t → Performs P t (f a t) fun _ t' => t.SameUnit t') :
    Performs P s ((x >>= f) s) fun _ t' => s.SameUnit t' :=
  hx.bind fun a t hs hu => (hf a t (Permit.Modest.leads h hs hu)).imp fun _ _ => hu.trans

lemma Performs.leads_and (h : s.Sound) (hr : Performs P s r fun a t => s.SameUnit t ∧ Q a t)
    (hle : P ≤ P') : Performs P' s r fun a t => s.Leads t ∧ Q a t :=
  ⟨hr.ends.mono (fun _ _ ⟨hs, hu, hQ⟩ => ⟨hs.mono hle, Permit.Modest.leads h hs hu, hQ⟩)
    fun _ hs => hs.mono hle⟩

lemma Performs.leads (h : s.Sound) (hr : Performs P s r fun _ t => s.SameUnit t) (hle : P ≤ P') :
    Performs P' s r fun _ t => s.Leads t :=
  (Performs.leads_and h (hr.imp (R := fun _ t => s.SameUnit t ∧ True) fun _ _ hu =>
    ⟨hu, trivial⟩) hle).imp fun _ _ h => h.1

lemma ImportM.performs_each {xs : List α} {f : α → ImportM PUnit} (h : s.Sound)
    (hf : ∀ a ∈ xs, ∀ t, s.Leads t → Performs P t (f a t) fun _ t' => t.SameUnit t') :
    Performs P s ((xs.forM f : ImportM PUnit) s) fun _ t => s.SameUnit t := by
  refine (performs_forM (I := fun t => s.Leads t) ?_ (.refl h)).imp fun _ _ ht => ht.unit
  intro a ha t ht
  have hrun := hf a ha t ht
  exact ⟨hrun.ends.imp fun _ t' ⟨hs, hu⟩ => ⟨hs, ht.trans (Permit.Modest.leads ht.sound hs hu)⟩⟩

end modest

end DeclGraph
