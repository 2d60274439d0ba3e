import DeclGraph.Proofs.Import.Opening
import DeclGraph.Proofs.Import.Recollection
import DeclGraph.Proofs.Import.Traits

/-! What becomes of classifiers when one is declared. The declaration takes over the classifier that
it finds under its name, placeholder or not. If this is of another kind it is gone then, and all
others are still there. -/

namespace DeclGraph

open DeclGraph.Graph

variable {g g' : Graph} {c n m old : NodeId} {r : Node} {k : NodeKind} {name : String}
  {kind : ClassifierKind} {s t t' : UnitState} {u : UnitContext}

namespace Graph

lemma classifier?_live (hr : g.node? n = some r) (name : Option String) :
    g.classifier? n name =
      .ok (g.findIn r.owned fun x => x.name = name && x.kind.isClassifier) := by
  unfold classifier? ownedElements
  rw [get_of_node? hr]
  rfl

lemma Linked.isPlaceholder_ok (h : g.Linked) (hr : g.node? n = some r) :
    ∃ b, g.isPlaceholder n = .ok b := by
  unfold isPlaceholder taggedValue?
  rw [GraphM.taggedValueNode?_ok h hr]
  exact ⟨_, rfl⟩

lemma Superseded.kind?_stays {ro x : Node} (h : g.Superseded old ro x g') (hg : g.Linked)
    (hold : g.node? old = some ro) (hk : g.kind? m = some k) (hm : m ≠ old)
    (ht : k ≠ .taggedValue) : g'.kind? m = some k := by
  obtain ⟨y, hy, rfl⟩ := kind?_eq_some.mp hk
  have htags : m ∉ ro.taggedValues := fun hin =>
    ht (Option.some.inj ((kind?_eq hy).symm.trans (hg.kind?_taggedValue hold hin)))
  obtain ⟨y', hy', hb, -⟩ := h.stay hy hm htags
  rw [kind?_eq hy', (Node.bare_congr hb).1]
  rfl

end Graph

namespace UnitState

/-- The classifier that a declaration of a name takes over: the first one of that name where
classifiers are declared, and where there is none a placeholder that a reference has left in the
root. -/
def Finds (s : UnitState) (name : String) (c : NodeId) : Prop :=
  s.graph.classifier? s.home (some name) = .ok (some c) ∨
    s.graph.classifier? s.home (some name) = .ok none ∧ s.home ≠ root ∧
      s.graph.classifier? root (some name) = .ok (some c) ∧ s.graph.isPlaceholder c = .ok true

/-- `t` is what a declaration has made of `s`: the classifier that it has found is gone if it was of
another kind, and those that were there besides still are. -/
structure Displaces (s : UnitState) (kind : NodeKind) (name : String) (t : UnitState) : Prop where
  gone : ∀ {c k}, s.graph.kind? c = some k → s.Finds name c → k ≠ kind → ¬t.graph.isLive c = true
  stays : ∀ {c k}, s.graph.kind? c = some k → k.isClassifier = true →
    (s.Finds name c → k = kind) → t.graph.kind? c = some k

/-- Classifiers are still there, and what is not there does not come back. -/
structure Spares (s t : UnitState) : Prop where
  back : ∀ {c}, c < s.graph.next → t.graph.isLive c = true → s.graph.isLive c = true
  stays : ∀ {c k}, s.graph.kind? c = some k → k.isClassifier = true → t.graph.kind? c = some k

lemma Displaces.spares (h : Displaces s k name t) (hnext : s.graph.next ≤ t.graph.next)
    (hs : t.Spares t') : Displaces s k name t' where
  gone hc hf hk hl := h.gone hc hf hk
    (hs.back ((lt_next (isLive_of_kind? hc)).trans_le hnext) hl)
  stays hc hcl hf := hs.stays (h.stays hc hcl hf) hcl

lemma Spares.of_keeps (hkeeps : s.graph.Keeps t.graph) (htitles : s.graph.Titles t.graph) :
    s.Spares t where
  back {c} hlt hl := by
    obtain ⟨r, hr⟩ := isLive_iff.mp hl
    rcases htitles.node hr with hnew | ⟨x, hx, -⟩
    · exact absurd hlt hnew.not_gt
    · exact isLive_of_node? hx
  stays hc _ := by
    obtain ⟨r, hr, rfl⟩ := kind?_eq_some.mp hc
    obtain ⟨r', hr', hsame⟩ := hkeeps.node hr
    rw [kind?_eq hr', hsame.kind]

end UnitState

namespace ImportM

/-- The search of a declaration for its element comes to an end, and all that it changes is the
owner of a placeholder. -/
lemma adoptClassifier_run (h : s.Nested) (name : String) : ∃ found t,
    adoptClassifier name s.home s = .ok found t ∧ (∀ c, found = some c ↔ s.Finds name c) ∧
      (∀ m, t.graph.kind? m = s.graph.kind? m) ∧ ∀ m, t.graph.traitsOf m = s.graph.traitsOf m := by
  obtain ⟨kh, hkh, -⟩ := h.home_kind
  obtain ⟨rh, hrh, -⟩ := kind?_eq_some.mp hkh
  obtain ⟨here, hhere⟩ : ∃ here, s.graph.classifier? s.home (some name) = .ok here :=
    ⟨_, classifier?_live hrh _⟩
  have hquery : query (·.classifier? s.home (some name)) s = .ok here s := query_ok hhere
  unfold adoptClassifier UnitState.Finds
  rw [bind_run hquery, hhere]
  cases here with
  | some n => exact ⟨some n, s, rfl, by simp, fun _ => rfl, fun _ => rfl⟩
  | none =>
    by_cases hroot : s.home = root
    · exact ⟨none, s, by simp only [if_pos hroot]; rfl, by simp [hroot], fun _ => rfl, fun _ => rfl⟩
    obtain ⟨rr, hrr⟩ := isLive_iff.mp h.graph.root_live
    obtain ⟨there, hthere⟩ : ∃ there, s.graph.classifier? root (some name) = .ok there :=
      ⟨_, classifier?_live hrr _⟩
    have hquery : query (·.classifier? root (some name)) s = .ok there s := query_ok hthere
    simp only [if_neg hroot, hthere]
    rw [bind_run hquery]
    cases there with
    | none => exact ⟨none, s, rfl, by simp, fun _ => rfl, fun _ => rfl⟩
    | some stray =>
      obtain ⟨x, hx, -⟩ := isMember_of_classifier? h.graph hthere
      obtain ⟨mark, hmark⟩ := h.graph.toLinked.isPlaceholder_ok hx
      have hquery : query (·.isPlaceholder stray) s = .ok mark s := query_ok hmark
      dsimp only
      rw [bind_run hquery]
      cases mark with
      | false =>
        refine ⟨none, s, rfl, fun c => ⟨fun hc => absurd hc.symm (Option.some_ne_none c), ?_⟩,
          fun _ => rfl, fun _ => rfl⟩
        rintro (hc | ⟨-, -, hc, hplaceholder⟩)
        · exact absurd (Except.ok.inj hc) (by simp)
        · obtain rfl := Option.some.inj (Except.ok.inj hc)
          exact absurd (Except.ok.inj (hmark.symm.trans hplaceholder)) (by simp)
      | true =>
        have hhome : ∀ p, some s.home = some p → s.graph.isLive p = true :=
          fun p hp => Option.some.inj hp ▸ isLive_of_kind? hkh
        obtain ⟨g, hrun, hmoved⟩ := GraphM.setNamespace_ok hx hhome
        refine ⟨some stray, { s with graph := g }, bind_run (change_ok hrun), fun c => ?_,
          hmoved.kind?, hmoved.traitsOf⟩
        constructor
        · rintro ⟨⟩
          exact Or.inr ⟨trivial, hroot, rfl, hmark⟩
        · rintro (hc | ⟨-, -, hc, -⟩)
          · exact absurd (Except.ok.inj hc) (by simp)
          · exact Except.ok.inj hc

/-- The element of a declared classifier takes the place of the one that is found, if this is of
another kind, and of nothing else. -/
lemma displaces_upsertNode (u : UnitContext) (h : s.Nested) (kind : ClassifierKind)
    (name : String) :
    s.Displaces kind.nodeKind name (finalState (upsertNode kind name s.home s)) := by
  obtain ⟨found, t, hadopt, hfinds, hkinds, -⟩ := adoptClassifier_run h name
  obtain ⟨hsteps, hupserted⟩ := (performs_adoptClassifier (u := u) h name).ok hadopt
  unfold upsertNode
  rw [bind_run hadopt]
  cases found with
  | none =>
    obtain rfl : s = t := hupserted.1.symm
    have hnone : ∀ c, ¬s.Finds name c := fun c hc =>
      absurd ((hfinds c).mpr hc).symm (Option.some_ne_none c)
    obtain ⟨kh, hkh, -⟩ := h.home_kind
    obtain ⟨g, hrun, hb⟩ := GraphM.create_under s.graph kind.nodeKind (some name)
      (isLive_of_kind? hkh)
    dsimp only
    rw [bind_run (change_ok hrun)]
    exact ⟨fun _ hf => absurd hf (hnone _),
      fun hc _ _ => (hb.kind?_old (isLive_of_kind? hc)).trans hc⟩
  | some n =>
    obtain ⟨k, hk, hu⟩ := hupserted
    have ht : t.Nested := hu.nested h hsteps
    have hhome : t.home = s.home := by simp [UnitState.home, hu.unit.scopes]
    obtain ⟨r, hr, rfl, ho, hname⟩ := hu.node
    have hn : s.Finds name n := (hfinds n).mp rfl
    have only : ∀ {c}, s.Finds name c → c = n := fun hc =>
      (Option.some.inj ((hfinds _).mpr hc)).symm
    have hkind : query (·.kindOf n) t = .ok r.kind t := query_ok (by
      unfold kindOf
      rw [get_of_node? hr]
      rfl)
    dsimp only
    rw [bind_run hkind]
    split_ifs with hne
    · have hm : t.graph.IsMember t.home .inner (some name) n :=
        ⟨r, hr, hhome ▸ ho, NodeKind.role?_eq_inner.mpr hk, hname⟩
      obtain ⟨g, hrun, hs⟩ := supersede_run ht kind hr hm
      rw [← hhome, hrun]
      constructor
      · intro c k hc hf _
        rw [only hf]
        simp [isLive, finalState, hs.gone n (Or.inl rfl)]
      · intro c k hc hcl hf
        have hcn : c ≠ n := by
          rintro rfl
          rw [← hkinds, kind?_eq hr] at hc
          exact hne ((Option.some.inj hc).trans (hf hn))
        refine hs.kind?_stays ht.graph.toLinked hr ((hkinds c).trans hc) hcn ?_
        rintro rfl
        cases hcl
    · have hsame : r.kind = kind.nodeKind := not_not.mp hne
      let t₁ : UnitState := { t with log := .classifierFound name :: t.log }
      have ht₁ : t₁.graph.Sound := ht.graph
      have hremoved : Performs (.aroundClassifiers u) t₁
          (change (.removeTaggedValues n generatedTag) t₁)
          fun _ t' => t₁.SameUnit t' ∧ ¬t'.graph.Tagged n generatedTag :=
        performs_removeTaggedValues ht₁ n generatedTag (by decide)
      rw [bind_run (show emit (.classifierFound name) t = .ok () t₁ from rfl), final_bind_pure]
      constructor
      · intro c k hc hf hck
        rw [only hf, ← hkinds, kind?_eq hr] at hc
        exact absurd ((Option.some.inj hc).symm.trans hsame) hck
      · intro c k hc hcl _
        refine ht.graph.declared_within hremoved.final NodeKind.role?_besideClassifiers
          ((hkinds c).trans hc) ?_
        simp [NodeKind.isDeclared, NodeKind.role?_eq_inner.mpr hcl]

/-- What the head of a declaration does with its element. -/
def describeHead (u : UnitContext) (kind : ClassifierKind) (modifiers : ModifierSet)
    (doc : Option String) (enclosing : Option NodeId) (n : NodeId) : ImportM NodeId := do
  change (.setVisibility n modifiers.visibility)
  change (.setRoot n false)
  describeClassifier n kind modifiers
  modifyScopes (·.touch n)
  endOfHead u n doc enclosing

lemma spares_describeHead (u : UnitContext) (kind : ClassifierKind) (modifiers : ModifierSet)
    (doc : Option String) (enclosing : Option NodeId) (n : NodeId) (s : UnitState) :
    s.Spares (finalState (describeHead u kind modifiers doc enclosing n s)) := by
  have hkeeps : Composed .keeping (describeHead u kind modifiers doc enclosing n) := by
    unfold describeHead
    infer_instance
  have htitles : Composed .titled (describeHead u kind modifiers doc enclosing n) := by
    unfold describeHead
    infer_instance
  exact .of_keeps ((relates hkeeps).final s) ((relates htitles).final s)

lemma displaces_addClassifier (u : UnitContext) (h : s.Nested) (kind : ClassifierKind)
    (name : String) (modifiers : ModifierSet) (doc : Option String) :
    s.Displaces kind.nodeKind name
      (finalState (addClassifier u kind name modifiers doc s)) := by
  have hupsert := displaces_upsertNode u h kind name
  have hrun : addClassifier u kind name modifiers doc s =
      (upsertNode kind name s.home >>= describeHead u kind modifiers doc s.scopes.classifier) s := by
    rw [← home_eq h]
    rfl
  rw [hrun]
  cases hnode : upsertNode kind name s.home s with
  | error e t =>
    rw [bind_failed hnode]
    rwa [hnode] at hupsert
  | ok n t =>
    rw [bind_run hnode]
    rw [hnode] at hupsert
    have hsteps := ((performs_upsertNode u h kind name).ok hnode).1
    exact hupsert.spares hsteps.ages.next (spares_describeHead ..)

/-- The edges to parents and interfaces. -/
lemma spares_addInheritance (hs : s.Sound) (hn : s.graph.Once n (·.isClassifier = true))
    (kind : ClassifierKind) (superclass : Option String) (interfaces : List String) :
    s.Spares (finalState (addInheritance u n kind superclass interfaces s)) := by
  have hsteps := (performs_addInheritance (u := u) hs hn kind superclass interfaces).final
  constructor
  · exact fun hlt hl => hsteps.ages.live _ hlt hl
  · intro c k hc hcl
    refine hs.graph.declared_within hsteps (by decide) hc ?_
    simp [NodeKind.isDeclared, NodeKind.role?_eq_inner.mpr hcl]

/-- A declaration of a classifier from its head to its edges. -/
lemma displaces_declaration (u : UnitContext) (h : s.Nested) (kind : ClassifierKind)
    (name : String) (modifiers : ModifierSet) (superclass : Option String)
    (interfaces : List String) (doc : Option String) : s.Displaces kind.nodeKind name
      (finalState ((do
        let n ← addClassifier u kind name modifiers doc
        addInheritance u n kind superclass interfaces
        return n : ImportM NodeId) s)) := by
  have hhead := displaces_addClassifier u h kind name modifiers doc
  cases hrun : addClassifier u kind name modifiers doc s with
  | error e t =>
    rw [bind_failed hrun]
    rwa [hrun] at hhead
  | ok n t =>
    rw [bind_run hrun, final_bind_pure]
    rw [hrun] at hhead
    obtain ⟨hsteps, frame, ho⟩ := (performs_addClassifier h kind name modifiers doc).ok hrun
    obtain ⟨r, hr, hk, -⟩ := ho.upserted.node
    have hn : t.graph.Once n (·.isClassifier = true) :=
      once (kind?_eq hr) (by rw [hk]; cases kind <;> rfl)
    exact hhead.spares hsteps.ages.next (spares_addInheritance ho.nested.toSound hn ..)

end ImportM

/-- The classifier that a call declares, with its kind. -/
def UnitCall.declared? : UnitCall → Option (ClassifierKind × String)
  | .addClass name .. => some (.classType, name)
  | .addInterface name .. => some (.interfaceType, name)
  | .addEnumeration name .. => some (.enumeration, name)
  | _ => none

lemma UnitCall.displaces (h : s.Nested) {call : UnitCall}
    (hcall : call.declared? = some (kind, name)) :
    s.Displaces kind.nodeKind name (call.after u s) := by
  cases call <;> cases hcall
  all_goals
    rw [after, run, final_discard]
    exact ImportM.displaces_declaration u h ..

/-- Of the classifiers that are there, a declaration in whatever scope, pass and policy takes away
the one that it finds, if that is of another kind, and no other. It does so whether that one is a
placeholder or was declared. -/
theorem declaration_displaces_found (h : s.Reached u) {call : UnitCall}
    (hcall : call.declared? = some (kind, name)) (hc : s.graph.kind? c = some k)
    (hk : k.isClassifier = true) :
    (call.after u s).graph.isLive c = false ↔ s.Finds name c ∧ k ≠ kind.nodeKind := by
  have hd := UnitCall.displaces (u := u) h.framed.toNested hcall
  constructor
  · intro hdead
    by_contra hne
    have hstays := hd.stays hc hk fun hf => by_contra fun hkind => hne ⟨hf, hkind⟩
    rw [isLive_of_kind? hstays] at hdead
    cases hdead
  · rintro ⟨hf, hkind⟩
    simpa using hd.gone hc hf hkind

/-- A placeholder for a superclass, which is declared as an interface in a package later. -/
theorem declaration_displaces_found_of_placeholder :
    let s := [UnitCall.addClass "B" {} (some "A") [] none, .popClassifier,
      .enterPackage "q"].foldl (UnitCall.after forcingUnit)
        (.start forcingUnit { graph := .new "m" ⟨"p", [], []⟩ })
    let call := UnitCall.addInterface "A" {} [] none
    s.Reached forcingUnit ∧ call.declared? = some (.interfaceType, "A") ∧
      s.graph.kind? 4 = some .classType ∧ s.Finds "A" 4 ∧
      (call.after forcingUnit s).graph.isLive 4 = false := by
  intro s call
  have hfresh : Imported (fun _ => True)
      ({ graph := .new "m" ⟨"p", [], []⟩ } : Store).graph := .fresh "m" ⟨"p", [], []⟩
  have hs : s.Reached forcingUnit := .calls (.first _ hfresh) _
  have hkind : s.graph.kind? 4 = some .classType := by decide +kernel
  have hfinds : s.Finds "A" 4 := Or.inr (by decide +kernel)
  exact ⟨hs, rfl, hkind, hfinds,
    (declaration_displaces_found hs rfl hkind rfl).mpr ⟨hfinds, by decide⟩⟩

/-- A declared class, which is no placeholder, goes when an interface of its name is declared. -/
theorem interface_displaces_declared_class :
    let u : UnitContext := { name := "x.idl", pass := .skeleton }
    let s := [UnitCall.addClass "A" {} none [] none, .popClassifier].foldl (UnitCall.after u)
      (.start u { graph := .new "m" ⟨"p", [], []⟩ })
    s.Reached u ∧ s.graph.kind? 3 = some .classType ∧ s.graph.isPlaceholder 3 = .ok false ∧
      ((UnitCall.addInterface "A" {} [] none).after u s).graph.isLive 3 = false := by
  intro u s
  have hfresh : Imported (fun _ => True)
      ({ graph := .new "m" ⟨"p", [], []⟩ } : Store).graph := .fresh "m" ⟨"p", [], []⟩
  exact ⟨.calls (.first _ hfresh) _, by decide +kernel, by decide +kernel, by decide +kernel⟩

end DeclGraph
