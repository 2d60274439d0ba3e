import DeclGraph.Proofs.Graph.Arrivals
import DeclGraph.Proofs.Graph.Mooring

/-! Sequences of calls of a graph, with whatever handles: they may be of live elements, of elements
that are gone or of none. Calls that fail are followed by others. -/

namespace DeclGraph

open DeclGraph.Graph

/-- A question about a graph that can be refused. Each field of a record can be asked for. -/
inductive Reading where
  | field {α : Type} (n : NodeId) (field : Node → α)
  | lookupIn (n : NodeId) (name : String)
  | inProfile (n : NodeId)
  | hasStereotype (n : NodeId) (name : String)
  | taggedValue (n : NodeId) (tag : String)
  | features (n : NodeId) (kind : NodeKind)
  | innerClassifiers (n : NodeId)
  | clientDependencies (n : NodeId)
  | dependenciesBetween (supplier client : NodeId)
  | associationEnds (n : NodeId)
  | nextEnd (n : NodeId)
  | associationEnd (classifier association : NodeId)
  | elementResidences (n : NodeId)

namespace Reading

/-- What remains of an answer when it does not matter what it is. -/
def answered {α : Type} (x : Except GraphFault α) : Except GraphFault Unit := x.map fun _ => ()

def ask (g : Graph) : Reading → Except GraphFault Unit
  | .field n f => answered (f <$> g.get n)
  | .lookupIn n name => answered (g.lookupIn n name)
  | .inProfile n => answered (g.inProfile n)
  | .hasStereotype n name => answered (g.hasStereotype n name)
  | .taggedValue n tag => answered (g.taggedValue? n tag)
  | .features n kind => answered (g.featuresOfKind n kind)
  | .innerClassifiers n => answered (g.innerClassifiers n)
  | .clientDependencies n => answered (g.clientDependencies n)
  | .dependenciesBetween supplier client => answered (g.dependenciesBetween supplier client)
  | .associationEnds n => answered (g.associationEnds n)
  | .nextEnd n => answered (g.nextEnd? n)
  | .associationEnd classifier association => answered (g.associationEnd? classifier association)
  | .elementResidences n => answered (g.elementResidences n)

end Reading

/-- A call of an operation or a question. -/
inductive Call where
  | change (c : Mutation)
  | ask (q : Reading)

namespace Call

def run : Call → GraphM Unit
  | .change c => c.run
  | .ask q => GraphM.query fun g => q.ask g

/-- The graph after a call, whether it fails or not. -/
def apply (call : Call) (g : Graph) : Graph := finalState (call.run g)

/-- The graph after some calls. -/
def applyAll (calls : List Call) (g : Graph) : Graph := calls.foldl (fun g call => call.apply g) g

/-- No call moves an association end that stays out of its association. -/
def SparesEnds : Graph → List Call → Prop
  | _, [] => True
  | g, call :: calls => g.KeepsEnds (call.apply g) ∧ SparesEnds (call.apply g) calls

instance decidableSparesEnds : (g : Graph) → (calls : List Call) → Decidable (SparesEnds g calls)
  | _, [] => isTrue trivial
  | g, call :: calls =>
    have := decidableSparesEnds (call.apply g) calls
    inferInstanceAs (Decidable (g.KeepsEnds (call.apply g) ∧ SparesEnds (call.apply g) calls))

end Call

/-! Questions -/

namespace Reading

variable {g : Graph} {α : Type} {x : Except GraphFault α}

instance refuses_answered [h : Refuses g x] : Refuses g (answered x) := by
  refine ⟨fun hg {f} hx => ?_⟩
  cases hr : x with
  | ok a =>
    rw [hr] at hx
    cases hx
  | error e =>
    rw [hr] at hx
    cases hx
    exact h.refusal hg hr

instance refuses_inProfileWithin (steps : Nat) (n : NodeId) :
    Refuses g (g.inProfileWithin steps n) := by
  induction steps generalizing n with
  | zero => exact refuses_ok false
  | succ steps ih =>
    unfold inProfileWithin
    have hup : Refuses g (do
        match (← g.get n).owner with
        | none => return false
        | some owner => g.inProfileWithin steps owner) :=
      .bind inferInstance fun r => by
        cases r.owner
        exacts [refuses_ok false, ih _]
    exact refuses_ite

/-- Questions are answered or refused while ends are in their associations. -/
lemma refuses_ask (hg : g.Moored) (q : Reading) : Refuses g (q.ask g) := by
  cases q with
  | nextEnd n =>
    have := hg.refuses_nextEnd? (n := n)
    exact refuses_answered
  | inProfile n =>
    have : Refuses g (g.inProfile n) := refuses_inProfileWithin _ n
    exact refuses_answered
  | _ => exact refuses_answered

end Reading

/-! Operations -/

namespace Graph

variable {g g' g'' : Graph} {ns : List NodeId}

/-- Elements are of the kinds that they were of, and what is new has a new handle. -/
structure KeepsKinds (g g' : Graph) : Prop where
  next : g.next ≤ g'.next
  kind : ∀ {n k}, n < g.next → g'.kind? n = some k → g.kind? n = some k

lemma KeepsKinds.trans (h : g.KeepsKinds g') (h' : g'.KeepsKinds g'') : g.KeepsKinds g'' :=
  ⟨h.next.trans h'.next, fun hn hk => h.kind hn (h'.kind (hn.trans_le h.next) hk)⟩

lemma Brings.keepsKinds (h : Brings ns g g') : g.KeepsKinds g' :=
  ⟨h.next, fun hn hk => (h.kind hk).resolve_right fun hnew => hn.not_ge hnew.1⟩

lemma Titles.keepsKinds (h : g.Titles g') : g.KeepsKinds g' := by
  refine ⟨h.next, fun {n k} hn hk => ?_⟩
  obtain ⟨r', hr', rfl⟩ := kind?_eq_some.mp hk
  obtain ⟨r, hr, hkind, -⟩ := (h.node hr').resolve_left hn.not_ge
  exact hkind ▸ kind?_eq hr

end Graph

namespace Mutation

variable {g : Graph}

lemma discard_eq {α : Type} (x : GraphM α) : discard x = (do let _ ← x : GraphM Unit) := by
  funext g
  change EStateM.map _ x g = EStateM.bind x _ g
  unfold EStateM.map EStateM.bind
  cases x g <;> rfl

open GraphM in
/-- Operations are carried out or refused, and leave lists that can be followed. -/
instance sure_run (c : Mutation) : Sure c.run := by
  cases c with
  | set n field => cases field <;> unfold run <;> unfold PlainField.set <;> infer_instance
  | _ =>
    simp only [run, discard_eq]
    infer_instance

open GraphM in
/-- Operations leave ends in their associations, unless they move them away. -/
lemma moored (hg : g.Moored) (c : Mutation) (hkeep : g.KeepsEnds (c.apply g)) :
    (c.apply g).Moored := by
  have stays (h : Moors c.run) : (c.apply g).Moored := h.final g hg
  cases c with
  | setNamespace n home => exact ((shifts_setNamespace home).final g).moored hg hkeep
  | replaceReferences old new => exact ((shifts_replaceReferences old new).final g).moored hg hkeep
  | _ => exact stays (by unfold run; infer_instance)

open GraphM in
/-- No operation, even if it fails, gives an element another kind. -/
lemma keepsKinds_apply (c : Mutation) (g : Graph) : g.KeepsKinds (c.apply g) := by
  have titled (h : Obeys Titles c.run) : g.KeepsKinds (c.apply g) := (h.final g).keepsKinds
  have brought (h : Obeys (Brings []) c.run) : g.KeepsKinds (c.apply g) := (h.final g).keepsKinds
  cases c with
  | create | buildOperation | buildAttribute | buildGeneralization | buildDependency
  | buildAssociation => exact titled (by simp only [run, discard_eq]; infer_instance)
  -- a stereotype may lose its name here, but nothing new comes
  | set n field => exact brought (by cases field <;> unfold run PlainField.set <;> infer_instance)
  | _ => exact brought (by simp only [run, discard_eq]; infer_instance)

lemma keepsKinds_applyAll (calls : List Mutation) (g : Graph) :
    g.KeepsKinds (applyAll calls g) := by
  induction calls generalizing g with
  | nil => exact ⟨le_rfl, fun _ => id⟩
  | cons c calls ih => exact (keepsKinds_apply c g).trans (ih _)

/-- Whatever is called, the root is the model or gone. -/
lemma kind?_root_applyAll {k : NodeKind} (name : String) (profile : Profile) (calls : List Mutation)
    (hk : (applyAll calls (new name profile)).kind? root = some k) : k = .model := by
  have hroot := (installing_new name profile).root_node
  have hold := (keepsKinds_applyAll calls _).kind (lt_next (isLive_of_node? hroot)) hk
  exact Option.some.inj (hold.symm.trans (kind?_eq hroot))

end Mutation

namespace Call

variable {g : Graph}

/-- What a sequence of calls relies on. -/
structure Safe (g : Graph) : Prop where
  stocked : g.Stocked
  moored : g.Moored

lemma safe_new (name : String) (profile : Profile) : Safe (new name profile) :=
  ⟨stocked_new name profile, moored_new name profile⟩

/-- One call, whether it fails or not. -/
lemma Safe.step (h : Safe g) (call : Call) (hkeep : g.KeepsEnds (call.apply g)) :
    Safe (call.apply g) := by
  cases call with
  | change c => exact ⟨(Mutation.sure_run c).keeps h.stocked, c.moored h.moored hkeep⟩
  | ask q =>
    have hsame : (ask q).apply g = g := by
      unfold apply run GraphM.query
      dsimp only
      cases q.ask g <;> rfl
    rw [hsame]
    exact h

lemma Safe.run (h : Safe g) (calls : List Call) (hspares : SparesEnds g calls) :
    Safe (applyAll calls g) := by
  induction calls generalizing g with
  | nil => exact h
  | cons call calls ih => exact ih (h.step call hspares.1) hspares.2

lemma Safe.refusal (h : Safe g) (call : Call) {f : GraphFault} {g' : Graph}
    (hrun : call.run g = .error f g') : f.IsRefusal := by
  cases call with
  | change c => exact (Mutation.sure_run c).error h.stocked hrun
  | ask q =>
    have hq := Reading.refuses_ask h.moored q
    unfold Call.run GraphM.query at hrun
    dsimp only at hrun
    split at hrun
    · cases hrun
    · next hask =>
      cases hrun
      exact hq.refusal h.stocked hask

lemma applyAll_changes (changes : List Mutation) (g : Graph) :
    applyAll (changes.map .change) g = Mutation.applyAll changes g := by
  rw [applyAll, List.foldl_map]
  rfl

/-- Calls that are allowed spare ends. -/
lemma sparesEnds_of_admissible {changes : List Mutation} (h : Mutation.Admissible g changes) :
    SparesEnds g (changes.map .change) := by
  induction changes generalizing g with
  | nil => trivial
  | cons c changes ih => exact ⟨h.2.1, ih h.2.2⟩

/-- Whatever handles calls are given, and whether those before it failed or not: a call answers or
is refused, as long as no end was moved out of an association that it was part of. No record refers
to one that is missing. -/
theorem answers_or_refuses (name : String) (profile : Profile) (before : List Call)
    (hspares : SparesEnds (new name profile) before) (call : Call) :
    (∃ g', call.run (applyAll before (new name profile)) = .ok () g') ∨
      ∃ f g', call.run (applyAll before (new name profile)) = .error f g' ∧ f.IsRefusal := by
  have hsafe := (safe_new name profile).run before hspares
  cases hrun : call.run (applyAll before (new name profile)) with
  | ok _ g' => exact .inl ⟨g', rfl⟩
  | error f g' => exact .inr ⟨f, g', rfl, hsafe.refusal call hrun⟩

/-- An association between two classes is deleted, after a call with a handle that was never given
out and one that leaves a class under such a handle. -/
def deletedAssociation : List Call :=
  [.change (.create .classType (some "A") (some root)),
    .change (.create .classType (some "B") (some root)),
    .change (.buildAssociation 3 true 4 false none),
    .change (.setNamespace 99 (some root)),
    .change (.create .classType (some "C") (some 42)),
    .change (.delete 5)]

/-- The ends went with their association, and so the way from one to the other is refused. -/
theorem answers_or_refuses_of_deleted :
    SparesEnds (new "m" ⟨"p", [], []⟩) deletedAssociation ∧
      ∃ f g', (ask (.nextEnd 6)).run (applyAll deletedAssociation (new "m" ⟨"p", [], []⟩)) =
        .error f g' ∧ f.IsRefusal := by
  have hspares : SparesEnds (new "m" ⟨"p", [], []⟩) deletedAssociation := by decide +kernel
  have hfails : succeeds ((ask (.nextEnd 6)).run
      (applyAll deletedAssociation (new "m" ⟨"p", [], []⟩))) = false := by cbv
  refine ⟨hspares, ?_⟩
  rcases answers_or_refuses "m" ⟨"p", [], []⟩ deletedAssociation hspares (ask (.nextEnd 6)) with
    ⟨g', hrun⟩ | hrefused
  · rw [hrun] at hfails
    cases hfails
  · exact hrefused

/-- One end of an association is moved to the root before the association is deleted. -/
def movedEnd : List Call :=
  [.change (.create .classType (some "A") (some root)),
    .change (.create .classType (some "B") (some root)),
    .change (.buildAssociation 20 true 21 false none),
    .change (.setNamespace 23 (some root)),
    .change (.delete 22)]

/-- The end that was moved is still there, and the way from it leads to the association that is
gone. Owners come before what they own, so there is no circle of them. -/
theorem missingRecord_of_movedEnd :
    (∀ e ∈ (applyAll movedEnd .empty).entries, ∀ o ∈ e.2.owner, o < e.1) ∧
      (ask (.nextEnd 23)).run (applyAll movedEnd .empty) =
        .error (.missingRecord 22) (applyAll movedEnd .empty) ∧
      ¬(GraphFault.missingRecord 22).IsRefusal := by
  have hrun : (applyAll movedEnd .empty).nextEnd? 23 = .error (.missingRecord 22) := by cbv
  refine ⟨by decide +kernel, ?_, id⟩
  simp [run, GraphM.query, Reading.ask, hrun, Reading.answered, Except.map]

end Call

end DeclGraph
