import DeclGraph.Proofs.Import.Traversal

/-! What is left of a state by programs that keep to a manner. Registries remember stereotypes under
their names, so that what is declared as an enumeration is known as one. -/

namespace DeclGraph

open DeclGraph.Graph

namespace Graph

variable {g g' : Graph} {n : NodeId} {name : String}

/-- A stereotype of a name is there. -/
def Named (g : Graph) (n : NodeId) (name : String) : Prop :=
  ∃ r, g.node? n = some r ∧ r.kind = .stereotype ∧ r.name = some name

/-- An element is there and has a stereotype of a name. -/
def IsMarked (g : Graph) (n : NodeId) (name : String) : Prop :=
  ∃ r, g.node? n = some r ∧ g.Marked r name

lemma Keeps.named (h : g.Keeps g') (hn : g.Named n name) : g'.Named n name := by
  obtain ⟨r, hr, hk, hname⟩ := hn
  obtain ⟨r', hr', hsame⟩ := h.node hr
  exact ⟨r', hr', hsame.kind.trans hk, hsame.name.trans hname⟩

lemma Keeps.isMarked (h : g.Keeps g') (hn : g.IsMarked n name) : g'.IsMarked n name := by
  obtain ⟨r, hr, st, hst, x, hx, hname⟩ := hn
  obtain ⟨r', hr', hsame⟩ := h.node hr
  obtain ⟨x', hx', hsame'⟩ := h.node hx
  exact ⟨r', hr', st, hsame.stereotypes hst, x', hx', hsame'.name.trans hname⟩

lemma named_of_stereotypeIn? {p : NodeId} {base : Option String}
    (h : g.stereotypeIn? p name base = .ok (some n)) : g.Named n name := by
  obtain ⟨owned, -, hfind⟩ := except_bind_eq_ok.mp h
  obtain ⟨-, r, hr, hfits⟩ := findIn_eq_some (Except.ok.inj hfind)
  simp only [fitsStereotype, Bool.and_eq_true, decide_eq_true_eq] at hfits
  exact ⟨r, hr, hfits.1.1, hfits.1.2⟩

lemma named_of_stereotype? {base : Option String} (h : g.stereotype? name base = .ok (some n)) :
    g.Named n name := by
  obtain ⟨found, hprofile, hmodel⟩ := except_bind_eq_ok.mp h
  cases found with
  | none => exact named_of_stereotypeIn? hmodel
  | some m =>
    obtain rfl := Option.some.inj (Except.ok.inj hmodel)
    exact named_of_stereotypeIn? hprofile

end Graph

lemma GraphM.ends_create (g : Graph) (name : String) (home : Option NodeId) :
    Ends (create .stereotype (some name) home g) (fun n g' => g'.Named n name) fun _ => True := by
  let r : Node := { kind := .stereotype, name := some name }
  have hadded : (g.add r).2.Named g.next name := ⟨r, by rw [node?_add, if_pos rfl], rfl, rfl⟩
  have hplace : Obeys Keeps (setNamespace g.next home) := inferInstance
  unfold create
  refine Ends.bind_ok (a := g.next) (t := (g.add r).2) rfl ?_
  split_ifs
  · refine Ends.bind ((hplace.ends _).mono (fun _ _ h => h) fun _ _ => trivial) ?_
    exact fun _ g' h => Ends.answer (h.named hadded)
  · exact Ends.answer hadded

namespace StereotypeRegistry

variable {ρ : StereotypeRegistry} {g g' : Graph} {name : String} {base : Option String} {n : NodeId}

/-- What is remembered under a name is of that name, unless it is gone. -/
def Faithful (ρ : StereotypeRegistry) (g : Graph) : Prop :=
  ∀ key n, (key, n) ∈ ρ.cache → n < g.next ∧
    ∀ r, g.node? n = some r → r.kind = .stereotype ∧ r.name = some key.1

lemma Faithful.titles (h : ρ.Faithful g) (hg : g.Titles g') : ρ.Faithful g' := by
  intro key n hn
  obtain ⟨hold, hname⟩ := h key n hn
  refine ⟨hold.trans_le hg.next, fun r' hr' => ?_⟩
  obtain ⟨r, hr, hk, hsame⟩ := (hg.node hr').resolve_left hold.not_ge
  obtain ⟨hst, hkey⟩ := hname r hr
  exact ⟨hk.trans hst, (hsame hst).trans hkey⟩

lemma Faithful.remember (h : ρ.Faithful g) (hn : g.Named n name) :
    (ρ.remember name base n).Faithful g := by
  intro key n' hn'
  rcases List.mem_cons.mp hn' with heq | hn'
  · obtain ⟨rfl, rfl⟩ := Prod.mk.inj heq
    obtain ⟨r, hr, hname⟩ := hn
    refine ⟨lt_next (isLive_of_node? hr), fun r' hr' => ?_⟩
    exact Option.some.inj (hr.symm.trans hr') ▸ hname
  · exact h key n' hn'

lemma Faithful.remembered (h : ρ.Faithful g) (hn : ρ.remembered? name base = some n)
    (hl : g.isLive n = true) : g.Named n name := by
  obtain ⟨before, after, hcache, -⟩ := List.lookup_eq_some_iff.mp hn
  obtain ⟨r, hr⟩ := isLive_iff.mp hl
  exact ⟨r, hr, (h (name, base) n (by simp [hcache])).2 r hr⟩

/-- The answer to a search is of the name that was searched for, and nothing else is remembered. A
search without an answer changes nothing. -/
lemma ends_answer (h : ρ.Faithful g) (name : String) (base : Option String) :
    Ends (ρ.resolve name base g)
      (fun a g' => match a.1 with
        | .ok n =>
          g'.Named n name ∧ (a.2.cache = ρ.cache ∨ a.2.cache = ((name, base), n) :: ρ.cache)
        | .error m => m = ⟨name, base⟩ ∧ ρ.allowSynthesis = false ∧ a.2 = ρ ∧ g' = g)
      fun _ => True := by
  unfold resolve
  refine Ends.bind_ok (a := g) (t := g) rfl ?_
  cases hr : (ρ.remembered? name base).filter g.isLive with
  | some n =>
    obtain ⟨hmem, hlive⟩ := Option.filter_eq_some_iff.mp hr
    exact Ends.answer ⟨h.remembered hmem hlive, Or.inl rfl⟩
  | none =>
    cases hq : g.stereotype? name base with
    | error e =>
      have hrun : GraphM.query (·.stereotype? name base) g = .error e g := by
        simp [GraphM.query, hq]
      dsimp only
      rw [bind_failed hrun]
      trivial
    | ok found =>
      refine Ends.bind_ok (GraphM.query_ok hq) ?_
      cases found with
      | some n => exact Ends.answer ⟨named_of_stereotype? hq, Or.inr rfl⟩
      | none =>
        dsimp only
        split_ifs with hallow
        · refine (GraphM.ends_create g name (some root)).bind fun n g₁ hn => ?_
          cases base with
          | none => exact Ends.answer ⟨hn, Or.inr rfl⟩
          | some b =>
            have hkeeps : Obeys Keeps (GraphM.addBaseClass n b) := inferInstance
            refine Ends.bind ((hkeeps.ends g₁).mono (fun _ _ h => h) fun _ _ => trivial) ?_
            exact fun _ _ hk => Ends.answer ⟨hk.named hn, Or.inr rfl⟩
        · exact Ends.answer ⟨rfl, eq_false_of_ne_true hallow, rfl, rfl⟩

/-- What is remembered after a search is of its name. -/
lemma ends_resolve (h : ρ.Faithful g) (name : String) (base : Option String) :
    Ends (ρ.resolve name base g)
      (fun a g' => a.2.Faithful g' ∧ ∀ n, a.1 = .ok n → g'.Named n name)
      fun g' => ρ.Faithful g' := by
  have htitles : Obeys Titles (ρ.resolve name base) := inferInstance
  refine ((htitles.ends g).and (ends_answer h name base)).mono ?_ fun g' hg => h.titles hg.1
  rintro ⟨result, ρ'⟩ g' ⟨hg, hanswer⟩
  have hold := h.titles hg
  cases result with
  | error m =>
    dsimp only at hanswer
    exact ⟨hanswer.2.2.1 ▸ hold, nofun⟩
  | ok n =>
    obtain ⟨hn, hcache⟩ := hanswer
    refine ⟨?_, fun m hm => Except.ok.inj hm ▸ hn⟩
    unfold Faithful
    rcases hcache with hcache | hcache <;> rw [hcache]
    exacts [hold, hold.remember hn]

end StereotypeRegistry

namespace UnitState

/-- The stereotypes that a unit remembers are of their names. -/
def Faithful (s : UnitState) : Prop := s.registry.Faithful s.graph

/-- Groundwork may have been laid, but nothing was warned about. -/
structure Laid (s t : UnitState) : Prop where
  graph : s.graph.Lays t.graph
  diagnostics : t.session.diagnostics = s.session.diagnostics

/-- What is remembered is right if it was. -/
def Minds (s t : UnitState) : Prop := s.Faithful → t.Faithful

/-- There is a component if there was one. -/
def Houses (s t : UnitState) : Prop := s.component.isSome = true → t.component.isSome = true

/-- The graphs of two states are in a relation. -/
def Relates (R : Graph → Graph → Prop) (s t : UnitState) : Prop := R s.graph t.graph

/-- All elements are still there and are marked as they were. -/
def Keeps (s t : UnitState) : Prop := s.graph.Keeps t.graph

instance : IsPreorder UnitState Laid where
  refl s := ⟨refl_of Lays s.graph, rfl⟩
  trans _ _ _ h h' := ⟨trans_of Lays h.graph h'.graph, h'.diagnostics.trans h.diagnostics⟩

instance : IsPreorder UnitState Minds where
  refl _ := id
  trans _ _ _ h h' := h' ∘ h

instance : IsPreorder UnitState Houses where
  refl _ := id
  trans _ _ _ h h' := h' ∘ h

instance {R : Graph → Graph → Prop} [IsPreorder Graph R] : IsPreorder UnitState (Relates R) where
  refl s := refl_of R s.graph
  trans _ _ _ := trans_of R

instance : IsPreorder UnitState Keeps :=
  inferInstanceAs (IsPreorder UnitState (Relates Graph.Keeps))

end UnitState

namespace ImportM

variable {α : Type} {x : ImportM α} {s t : UnitState} {u : UnitContext} {n : NodeId}
  {name : String} {base : Option String}

lemma stereotype_run (name : String) (base : Option String) (s : UnitState) :
    stereotype name base s = match s.registry.resolve name base s.graph with
      | .error e g => .error (.graph e) { s with graph := g }
      | .ok (.error m, registry) g =>
        .error (.missingStereotype m) { s with graph := g, registry }
      | .ok (.ok n, registry) g => .ok n { s with
          graph := g, registry
          session := if n ∈ registry.synthesized then s.session.register n else s.session } := by
  unfold stereotype
  rw [bind_run (show (get : ImportM UnitState) s = .ok s s from rfl)]
  cases hr : s.registry.resolve name base s.graph with
  | error e g =>
    exact bind_failed (by simp [change, hr])
  | ok a g =>
    obtain ⟨result, registry⟩ := a
    refine (bind_run (change_ok hr)).trans ((bind_run rfl).trans ?_)
    cases result with
    | error m => rfl
    | ok n =>
      dsimp only
      split_ifs <;> rfl

lemma ends_stereotype (h : s.Faithful) (name : String) (base : Option String) :
    Ends (stereotype name base s) (fun n t => t.Faithful ∧ t.graph.Named n name)
      UnitState.Faithful := by
  have hresolve := StereotypeRegistry.ends_resolve h name base
  rw [stereotype_run]
  split
  · next hr =>
    rw [hr] at hresolve
    exact hresolve
  · next hr =>
    rw [hr] at hresolve
    exact hresolve.1
  · next hr =>
    rw [hr] at hresolve
    exact ⟨hresolve.1, hresolve.2 _ rfl⟩

lemma final_stereotype (name : String) (base : Option String) (s : UnitState) :
    (finalState (stereotype name base s)).graph =
        finalState (s.registry.resolve name base s.graph) ∧
      (finalState (stereotype name base s)).session.diagnostics = s.session.diagnostics := by
  rw [stereotype_run]
  split
  · next hr => exact ⟨by rw [hr]; rfl, rfl⟩
  · next hr => exact ⟨by rw [hr]; rfl, rfl⟩
  · next hr =>
    refine ⟨by rw [hr]; rfl, ?_⟩
    simp only [finalState]
    split_ifs
    exacts [s.session.diagnostics_register _, rfl]

lemma obeys_change {A : Graph → Graph → Prop} {R : UnitState → UnitState → Prop} {m : GraphM α}
    (hm : Obeys A m) (hR : ∀ (s : UnitState) g, A s.graph g → R s { s with graph := g }) :
    Obeys R (change m) := by
  refine ⟨fun s => ?_⟩
  have hs := hR s _ (hm.final s.graph)
  unfold change
  cases hr : m s.graph <;> rwa [hr] at hs

/-- What lays groundwork warns about nothing. -/
theorem laid (h : Composed .skeleton x) : Obeys UnitState.Laid x := by
  refine h.obeys (fun {s t} hst => ?_) (fun hm => ?_) (fun {name base} hm => ?_) nofun
  · exact ⟨hst.graph ▸ refl_of Lays s.graph, hst.diagnostics⟩
  · exact obeys_change hm.alters fun s g hg => ⟨hg, rfl⟩
  · refine ⟨fun s => ?_⟩
    obtain ⟨hgraph, hdiagnostics⟩ := final_stereotype name base s
    exact ⟨hgraph ▸ (hm s.registry).alters.final s.graph, hdiagnostics⟩

/-- What leaves stereotypes their names keeps what is remembered right. -/
theorem minds {M : Manner} (h : Composed M x) (hM : M.alters ≤ Titles) :
    Obeys UnitState.Minds x := by
  refine h.obeys (fun {s t} hst hs => ?_) (fun hm => ?_) (fun {name base} hm => ⟨fun s hs => ?_⟩)
    fun _ u _ _ => ⟨fun _ => id⟩
  · rwa [UnitState.Faithful, hst.graph, hst.registry]
  · exact obeys_change hm.alters fun s g hg hs => hs.titles (hM _ _ hg)
  · exact Ends.final ((ends_stereotype hs name base).imp fun _ _ h => h.1)

lemma faithful_run {a : α} [h : Composed .skeleton x] (hs : s.Faithful) (hrun : x s = .ok a t) :
    t.Faithful :=
  ((minds h fun _ _ => Lays.titles).ends s).ok hrun hs

/-- Components come and do not go. -/
theorem houses {M : Manner} (h : Composed M x) : Obeys UnitState.Houses x := by
  have change {α : Type} (m : GraphM α) : Obeys UnitState.Houses (change m) :=
    obeys_change (A := fun _ _ => True) ⟨fun _ => trivial⟩ fun _ _ _ => id
  refine h.obeys (fun {s t} hst => hst.component) (fun _ => change _)
    (fun {name base} _ => ⟨fun s hs => ?_⟩) fun _ u _ _ => ⟨fun _ => id⟩
  rw [stereotype_run]
  split <;> exact hs

/-- What becomes of the graph under the parts of a program becomes of it under the program. -/
theorem relates {M : Manner} [IsPreorder Graph M.alters] (h : Composed M x) :
    Obeys (UnitState.Relates M.alters) x := by
  have same (s : UnitState) : s.Relates M.alters s := refl_of M.alters s.graph
  refine h.obeys (fun {s t} hst => ?_) (fun hm => ?_) (fun {name base} hm => ?_)
    fun _ _ _ _ => ⟨same⟩
  · exact (show M.alters s.graph t.graph from hst.graph ▸ refl_of M.alters s.graph)
  · exact obeys_change hm.alters fun s g hg => hg
  · refine ⟨fun s => show M.alters s.graph _ from ?_⟩
    rw [(final_stereotype name base s).1]
    exact (hm s.registry).alters.final s.graph

/-- What describes elements leaves all of them with the marks that they have. -/
theorem keeps (h : Composed .keeping x) : Obeys UnitState.Keeps x := relates h

/-! Enumerations -/

lemma addStereotype_marks {st : NodeId} (hst : s.graph.Named st name)
    (hrun : change (.addStereotype n st) s = .ok () t) : t.graph.IsMarked n name := by
  obtain ⟨x, hx, -, hname⟩ : t.graph.Named st name :=
    Graph.Keeps.named (((keeps inferInstance).ends s).ok hrun) hst
  obtain ⟨y, hy, -⟩ := hst
  unfold change at hrun
  rw [GraphM.addStereotype_run, hy] at hrun
  by_cases hk : y.kind = .stereotype
  · simp only [hk, if_true, GraphM.update_run] at hrun
    cases hr : s.graph.node? n with
    | none => simp [hr] at hrun
    | some r =>
      simp only [hr] at hrun
      cases hrun
      refine ⟨_, by rw [node?_modify, if_pos rfl, hr]; rfl, st, ?_, x, hx, hname⟩
      dsimp only
      split_ifs with hin
      exacts [hin, by simp]
  · simp [hk] at hrun

lemma describeClassifier_marks {modifiers : ModifierSet} (h : s.Faithful)
    (hrun : describeClassifier n .enumeration modifiers s = .ok () t) :
    t.graph.IsMarked n Profile.enumerationStereotype := by
  unfold describeClassifier at hrun
  obtain ⟨st, s₁, hst, hrun⟩ := bind_eq_ok.mp hrun
  obtain ⟨_, s₂, hmark, hrun⟩ := bind_eq_ok.mp hrun
  have hnamed := ((ends_stereotype h _ _).ok hst).2
  have hleaf := ((keeps inferInstance).ends s₂).ok hrun
  exact Graph.Keeps.isMarked hleaf (addStereotype_marks hnamed hmark)

/-- The head of a classifier declaration answers with the element that it describes. -/
lemma ends_endOfHead (doc : Option String) (enclosing : Option NodeId) :
    Ends (endOfHead u n doc enclosing s) (fun m _ => m = n) fun _ => True := by
  have opened (t : UnitState) :
      Ends (openHead u n doc t) (fun m _ => m = n) fun _ => True := by
    unfold openHead
    split_ifs
    · exact .last fun _ _ => .last fun _ _ => .answer rfl
    · exact .last fun _ _ => .answer rfl
  unfold endOfHead
  refine .last fun v t => ?_
  cases enclosing with
  | some _ => exact opened t
  | none =>
    cases v.component with
    | none => exact opened t
    | some component =>
      refine .last fun residences t => ?_
      cases residences.isEmpty with
      | true => exact .last fun _ t => opened t
      | false => exact opened t

/-- What is declared as an enumeration is marked as one. -/
lemma addClassifier_marks {modifiers : ModifierSet} {doc : Option String} (h : s.Faithful)
    (hrun : addClassifier u .enumeration name modifiers doc s = .ok n t) :
    t.graph.IsMarked n Profile.enumerationStereotype := by
  rw [addClassifier_eq] at hrun
  obtain ⟨_, _, hget, hrun⟩ := bind_eq_ok.mp hrun
  cases hget
  obtain ⟨m, s₁, h₁, hrun⟩ := bind_eq_ok.mp hrun
  obtain ⟨_, s₂, h₂, hrun⟩ := bind_eq_ok.mp hrun
  obtain ⟨_, s₃, h₃, hrun⟩ := bind_eq_ok.mp hrun
  have hf₃ : s₃.Faithful := faithful_run (faithful_run (faithful_run h h₁) h₂) h₃
  obtain ⟨_, s₄, h₄, hrun⟩ := bind_eq_ok.mp hrun
  obtain ⟨_, s₅, h₅, hrun⟩ := bind_eq_ok.mp hrun
  cases h₅
  obtain rfl := (ends_endOfHead doc _).ok hrun
  have hmarked : s₄.graph.IsMarked n _ := describeClassifier_marks hf₃ h₄
  exact Graph.Keeps.isMarked (((keeps inferInstance).ends _).ok hrun) hmarked

/-- Literals may be declared in classes that are marked. -/
lemma isEnumeration_of_marked (h : s.Sound) (hk : s.graph.kind? n = some .classType)
    (hm : s.graph.IsMarked n Profile.enumerationStereotype) : isEnumeration n s = .ok true s := by
  obtain ⟨r, hr, hmarked⟩ := hm
  have hkind : s.graph.kindOf n = .ok .classType := by
    rw [kindOf, get_of_node? hr, Option.some.inj ((kind?_eq hr).symm.trans hk).symm]
    rfl
  have hb := GraphM.hasStereotype_ok h.graph.toLinked hr Profile.enumerationStereotype
  rw [(hasStereotype_eq_ok hr hb).mp hmarked] at hb
  unfold isEnumeration
  rw [bind_run (query_ok hkind)]
  simp only [ne_eq, not_true, if_false]
  exact query_ok hb

/-- So literals may be declared in it. -/
lemma isEnumeration_addClassifier {modifiers : ModifierSet} {doc : Option String} (hs : s.Nested)
    (h : s.Faithful) (hrun : addClassifier u .enumeration name modifiers doc s = .ok n t) :
    isEnumeration n t = .ok true t := by
  obtain ⟨-, frame, hopened⟩ := (performs_addClassifier hs .enumeration name modifiers doc).ok hrun
  obtain ⟨r, hr, hk, -⟩ := hopened.upserted.node
  exact isEnumeration_of_marked hopened.nested.toSound ((kind?_eq hr).trans (congrArg some hk))
    (addClassifier_marks h hrun)

end ImportM

end DeclGraph
