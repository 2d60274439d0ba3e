import DeclGraph.Proofs.Import.Failures
import DeclGraph.Proofs.Import.Isolation
import DeclGraph.Proofs.Import.Reachability

/-! What the registry of a unit remembers in the states that calls lead to. It is right there, also
after calls that fail, and whether stereotypes may be made is up to the settings all the time. -/

namespace DeclGraph

open DeclGraph.Graph

namespace Manner

/-- Anything may go wrong, but stereotypes keep their names. -/
def titled : Manner := ⟨fun _ => True, Graph.Titles, True⟩

instance : Referring titled where
  toAccepts := inferInstanceAs (Graph.Accepts Graph.Titles)
  raises _ _ := trivial
  unresolved _ _ := trivial
  warns := trivial

instance : Laying titled := ⟨fun _ _ => Graph.Lays.titles⟩

instance : Misplacing titled := ⟨fun _ => trivial⟩

end Manner

-- the instance for a program is as long as the program
set_option synthInstance.maxSize 4096

/-- The registry may make stereotypes if it could before. -/
def UnitState.SameLicense (s t : UnitState) : Prop :=
  t.registry.allowSynthesis = s.registry.allowSynthesis

instance : IsPreorder UnitState UnitState.SameLicense where
  refl _ := rfl
  trans _ _ _ h h' := Eq.trans h' h

lemma StereotypeRegistry.allowSynthesis_resolve (ρ : StereotypeRegistry) (name : String)
    (base : Option String) (g : Graph) :
    Ends (ρ.resolve name base g) (fun a _ => a.2.allowSynthesis = ρ.allowSynthesis)
      fun _ => True := by
  unfold resolve
  refine Ends.bind_ok (a := g) (t := g) rfl ?_
  cases (ρ.remembered? name base).filter g.isLive with
  | some n => exact .answer rfl
  | none =>
    refine .last fun found g₁ => ?_
    cases found with
    | some n => exact .answer rfl
    | none =>
      dsimp only
      split_ifs
      · refine .last fun n g₂ => ?_
        cases base with
        | none => exact .answer rfl
        | some b => exact .last fun _ _ => .answer rfl
      · exact .answer rfl

namespace ImportM

variable {α : Type} {x : ImportM α} {s : UnitState} {u : UnitContext}

/-- No program changes whether stereotypes may be made. -/
theorem sameLicense {M : Manner} (h : Composed M x) : Obeys UnitState.SameLicense x := by
  have change {α : Type} (m : GraphM α) : Obeys UnitState.SameLicense (change m) :=
    obeys_change (A := fun _ _ => True) ⟨fun _ => trivial⟩ fun _ _ _ => rfl
  refine h.obeys (fun {s t} hst => congrArg _ hst.registry) (fun _ => change _)
    (fun {name base} _ => ⟨fun s => ?_⟩) fun _ u _ _ => ⟨fun _ => rfl⟩
  have hresolve := s.registry.allowSynthesis_resolve name base s.graph
  rw [stereotype_run]
  split
  · rfl
  · next hr =>
    rw [hr] at hresolve
    exact hresolve
  · next hr =>
    rw [hr] at hresolve
    exact hresolve

/-- A field declaration leaves what is remembered right, also where it cannot stand. -/
lemma faithful_addAttribute (h : s.Nested) (hs : s.Faithful) (modifiers : ModifierSet)
    (type : Option String) (name : String) (initializer doc : Option String) :
    (finalState (addAttribute u modifiers type name initializer doc s)).Faithful := by
  cases ho : s.scopes.opened with
  | nil =>
    unfold addAttribute
    rw [bind_failed (requireClassifier_closed ho _)]
    exact hs
  | cons scope rest =>
    exact ((dueFrom_addAttribute h ho modifiers type name initializer doc).keeps
      ⟨h.graph.stocked, hs⟩).faithful

lemma faithful_addEnumerationLiteral (h : s.Nested) (hs : s.Faithful) (name : String) :
    (finalState (addEnumerationLiteral u name s)).Faithful := by
  unfold addEnumerationLiteral
  cases ho : s.scopes.opened with
  | nil =>
    rw [bind_failed (requireClassifier_closed ho _)]
    exact hs
  | cons scope rest =>
    rw [bind_run (requireClassifier_ok h ho _)]
    have hreads : Performs ⊤ s (isEnumeration scope.frame.home s) fun _ t => t = s :=
      performs_isEnumeration _
    have hminds : Obeys UnitState.Minds (isEnumeration scope.frame.home) :=
      minds (M := .titled) inferInstance le_rfl
    cases hrun : isEnumeration scope.frame.home s with
    | error e t =>
      rw [bind_failed hrun]
      have := hminds.final s hs
      rwa [hrun] at this
    | ok is t =>
      obtain ⟨-, rfl⟩ := hreads.ok hrun
      rw [bind_run hrun]
      cases is with
      | false => exact hs
      | true => exact faithful_addAttribute h hs { isPublic := true } none name none none

lemma faithful_popClassifier (h : s.Nested) (hs : s.Faithful) :
    (finalState (popClassifier u s)).Faithful := by
  cases ho : s.scopes.opened with
  | nil =>
    rw [popClassifier_closed ho]
    exact hs
  | cons scope rest =>
    exact ((dueFrom_popClassifier h ho).keeps ⟨h.graph.stocked, hs⟩).faithful

end ImportM

namespace UnitCall

variable {s : UnitState} {u : UnitContext}

lemma composed_run (c : UnitCall) : Composed .free (c.run u) := by
  have discarded {α : Type} {x : ImportM α} (h : Composed .free x) :
      Composed .free (discard x : ImportM Unit) := composed_map (g := fun _ => ())
  cases c with
  | addClass => exact discarded (by unfold ImportM.addClass; infer_instance)
  | addInterface => exact discarded (by unfold ImportM.addInterface; infer_instance)
  | addEnumeration => exact discarded (by unfold ImportM.addEnumeration; infer_instance)
  | _ => exact discarded inferInstance

lemma faithful_after (h : s.Framed) (hs : s.Faithful) (c : UnitCall) : (c.after u s).Faithful := by
  have discarded {α : Type} {x : ImportM α} (hx : Composed .titled x) :
      (finalState ((discard x : ImportM Unit) s)).Faithful := by
    rw [final_discard]
    exact (ImportM.minds hx le_rfl).final s hs
  cases c with
  | addClass => exact discarded (by unfold ImportM.addClass; infer_instance)
  | addInterface => exact discarded (by unfold ImportM.addInterface; infer_instance)
  | addEnumeration => exact discarded (by unfold ImportM.addEnumeration; infer_instance)
  | addAttribute =>
    rw [after, run, final_discard]
    exact ImportM.faithful_addAttribute h.toNested hs _ _ _ _ _
  | addEnumerationLiteral name =>
    rw [after, run, final_discard]
    exact ImportM.faithful_addEnumerationLiteral h.toNested hs name
  | popClassifier =>
    rw [after, run, final_discard]
    exact ImportM.faithful_popClassifier h.toNested hs
  | _ => exact discarded inferInstance

end UnitCall

namespace UnitState.Reached

variable {s : UnitState} {u : UnitContext}

lemma faithful (h : Reached u s) : s.Faithful := by
  induction h with
  | first | next => nofun
  | call c hs ih => exact c.faithful_after hs.framed ih

/-- Stereotypes are made in a unit if the settings of the unit say so. -/
lemma allowSynthesis (h : Reached u s) :
    s.registry.allowSynthesis = u.settings.synthesizeStereotypes := by
  induction h with
  | first | next => rfl
  | call c _ ih => exact ((ImportM.sameLicense c.composed_run).final _).trans ih

end UnitState.Reached

end DeclGraph
