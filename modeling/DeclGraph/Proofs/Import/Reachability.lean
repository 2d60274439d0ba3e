import DeclGraph.Proofs.Import.Constancy
import DeclGraph.Proofs.Import.Facade

/-! The states that calls on units lead to. Units work on one graph after each other; each starts on
what the one before it left. -/

namespace DeclGraph

open DeclGraph.Graph

variable {g : Graph} {s : UnitState} {u : UnitContext} {store : Store}

/-- The states of a unit that calls lead to. The first unit starts on a graph that imports may have
filled, and every other one on the graph that another left, wherever it was left. -/
inductive UnitState.Reached : UnitContext → UnitState → Prop
  | first (u : UnitContext) {store : Store} : Imported (fun _ => True) store.graph →
      Reached u (.start u store)
  | next {u : UnitContext} {s : UnitState} (u' : UnitContext) {store : Store} : Reached u s →
      store.graph = s.graph → Reached u' (.start u' store)
  | call {u : UnitContext} {s : UnitState} (c : UnitCall) : Reached u s → Reached u (c.after u s)

lemma Imported.secludes (h : Imported (fun _ => True) g) :
    ∃ name profile, (new name profile).Secludes g := by
  induction h with
  | fresh name profile => exact ⟨name, profile, secludes_new⟩
  | pass _ hs name unit p ih =>
    obtain ⟨title, profile, hg⟩ := ih
    exact ⟨title, profile, (kept_secludes _).pass hg hs name unit p⟩

namespace UnitCall

-- the instance for a program is as long as the program
set_option synthInstance.maxSize 1024

instance secluded_run [Closed g] (c : UnitCall) : Maintains (UnitState.Secluded g) (c.run u) := by
  have discarded {α : Type} {x : ImportM α} (h : Maintains (UnitState.Secluded g) x) :
      Maintains (UnitState.Secluded g) (discard x : ImportM Unit) :=
    obeys_map (g := fun _ => ())
  have declared (kind : ClassifierKind) (name : String) (modifiers : ModifierSet)
      (superclass : Option String) (interfaces : List String) (doc : Option String) :
      Maintains (UnitState.Secluded g) (do
        let n ← ImportM.addClassifier u kind name modifiers doc
        ImportM.addInheritance u n kind superclass interfaces
        return n : ImportM NodeId) := by
    apply (ImportM.yields_addClassifier ..).next
    intro n _
    infer_instance
  cases c with
  | addClass => exact discarded (declared ..)
  | addInterface => exact discarded (declared ..)
  | addEnumeration => exact discarded (declared ..)
  | _ => exact discarded inferInstance

end UnitCall

namespace UnitState.Reached

lemma framed (h : Reached u s) : s.Framed := by
  induction h with
  | first u h => exact framed_start h
  | next u' _ hstore ih =>
    exact ⟨⟨sound_start (hstore ▸ ih.graph), trivial, by simp [start]⟩, hstore ▸ ih.rooted,
      by simp [start, frames]⟩
  | call c _ ih => exact UnitCall.framed_after ih c

/-- Units work outside the profile of the graph that all started from. -/
lemma secluded (h : Reached u s) : ∃ name profile, s.Secluded (new name profile) := by
  have start {u : UnitContext} {store : Store} {name : String} {profile : Profile}
      (h : (new name profile).Secludes store.graph) :
      (UnitState.start u store).Secluded (new name profile) :=
    ⟨h, Closed.root, nofun, nofun, nofun⟩
  induction h with
  | first u h =>
    obtain ⟨name, profile, hg⟩ := h.secludes
    exact ⟨name, profile, start hg⟩
  | next u' _ hstore ih =>
    obtain ⟨name, profile, hs⟩ := ih
    exact ⟨name, profile, start (hstore ▸ hs.graph)⟩
  | call c _ ih =>
    obtain ⟨name, profile, hs⟩ := ih
    exact ⟨name, profile, (UnitCall.secluded_run c).final _ hs⟩

/-- Calls in a row. -/
lemma calls (h : Reached u s) (calls : List UnitCall) :
    Reached u (calls.foldl (UnitCall.after u) s) := by
  induction calls generalizing s with
  | nil => exact h
  | cons c calls ih => exact ih (h.call c)

end UnitState.Reached

end DeclGraph
