import Mathlib

/-! Reasoning about programs with a state that survives failures: where they end, and how that
composes. -/

namespace DeclGraph

variable {ε σ α β γ : Type} {Q R : α → σ → Prop} {E F : σ → Prop}

/-- The state in which a run ends, failed or not. -/
def finalState : EStateM.Result ε σ α → σ
  | .ok _ s => s
  | .error _ s => s

/-- The answer of a run, if it does not fail. -/
def answer? : EStateM.Result ε σ α → Option α
  | .ok a _ => some a
  | .error .. => none

lemma eq_ok_of_answer? {r : EStateM.Result ε σ α} {a : α} (h : answer? r = some a) :
    r = .ok a (finalState r) := by
  cases r with
  | ok b t => exact congrArg (EStateM.Result.ok · t) (Option.some.inj h)
  | error e t => cases h

lemma final_discard (x : EStateM ε σ α) (s : σ) : finalState (discard x s) = finalState (x s) := by
  change finalState (EStateM.map _ x s) = _
  unfold EStateM.map
  cases x s <;> rfl

/-- What is answered in the end makes no difference to the state. -/
lemma final_bind_pure (x : EStateM ε σ α) (b : β) (s : σ) :
    finalState ((do let _ ← x; return b : EStateM ε σ β) s) = finalState (x s) := by
  change finalState (EStateM.bind x _ s) = _
  unfold EStateM.bind
  cases x s <;> rfl

/-- Whether a run ends with an answer. -/
def succeeds : EStateM.Result ε σ α → Bool
  | .ok .. => true
  | .error .. => false

lemma exists_ok_of_succeeds {r : EStateM.Result ε σ α} (h : succeeds r = true) :
    ∃ a, r = .ok a (finalState r) := by
  cases r with
  | ok a s => exact ⟨a, rfl⟩
  | error e s => exact absurd h (by simp [succeeds])

lemma eq_ok_of_succeeds {r : EStateM.Result ε σ Unit} (h : succeeds r = true) :
    r = .ok () (finalState r) :=
  (exists_ok_of_succeeds h).elim fun _ hr => hr

/-- The error that a run fails with. -/
def failure? : EStateM.Result ε σ α → Option ε
  | .ok .. => none
  | .error e _ => some e

lemma eq_error_of_failure? {r : EStateM.Result ε σ α} {e : ε} (h : failure? r = some e) :
    r = .error e (finalState r) := by
  cases r with
  | ok a s => cases h
  | error e' s => rw [Option.some.inj h, finalState]

/-- A run ends with an answer and a state in `Q`, or fails in a state in `E`. -/
def Ends (r : EStateM.Result ε σ α) (Q : α → σ → Prop) (E : σ → Prop) : Prop :=
  match r with
  | .ok a s => Q a s
  | .error _ s => E s

namespace Ends

variable {r : EStateM.Result ε σ α} {s s' : σ} {a : α} {x : EStateM ε σ α}
  {f : α → EStateM ε σ β} {S : β → σ → Prop}

lemma mono (h : Ends r Q E) (hQ : ∀ a s, Q a s → R a s) (hE : ∀ s, E s → F s) : Ends r R F := by
  cases r with
  | ok a s => exact hQ a s h
  | error e s => exact hE s h

lemma imp (h : Ends r Q E) (hQ : ∀ a s, Q a s → R a s) : Ends r R E := h.mono hQ fun _ => id

lemma and (h : Ends r Q E) (h' : Ends r R F) :
    Ends r (fun a s => Q a s ∧ R a s) (fun s => E s ∧ F s) := by
  cases r with
  | ok a s => exact ⟨h, h'⟩
  | error e s => exact ⟨h, h'⟩

lemma ok (h : Ends (x s) Q E) (hx : x s = .ok a s') : Q a s' := by
  simpa only [Ends, hx] using h

lemma final (h : Ends r (fun _ => E) E) : E (finalState r) := by
  cases r <;> exact h

lemma of_final (h : E (finalState r)) : Ends r (fun _ => E) E := by
  cases r <;> exact h

lemma answer (h : Q a s) : Ends ((pure a : EStateM ε σ α) s) Q E := h

lemma failure {e : ε} (h : E s) : Ends ((throw e : EStateM ε σ α) s) Q E := h

lemma modified {Q : Unit → σ → Prop} {g : σ → σ} (h : Q () (g s)) :
    Ends ((modify g : EStateM ε σ Unit) s) Q E := h

lemma bind (hx : Ends (x s) Q E) (hf : ∀ a s', Q a s' → Ends (f a s') S E) :
    Ends ((x >>= f) s) S E := by
  change Ends (EStateM.bind x f s) S E
  unfold EStateM.bind
  cases h : x s with
  | ok a s' =>
    rw [h] at hx
    exact hf a s' hx
  | error e s' =>
    rw [h] at hx
    exact hx

lemma bind_ok {t : σ} (hx : x s = .ok a t) (hf : Ends (f a t) S E) : Ends ((x >>= f) s) S E := by
  change Ends (EStateM.bind x f s) S E
  simpa only [EStateM.bind, hx] using hf

/-- A part that may do anything comes first. -/
lemma last (hf : ∀ a s', Ends (f a s') S fun _ => True) : Ends ((x >>= f) s) S fun _ => True :=
  bind (Q := fun _ _ => True) (by unfold Ends; split <;> trivial) fun a s' _ => hf a s'

lemma map {g : α → β} (hx : Ends (x s) (fun a => S (g a)) E) : Ends ((g <$> x) s) S E := by
  change Ends (EStateM.map g x s) S E
  unfold EStateM.map
  cases h : x s <;> simpa only [h, Ends] using hx

/-- An invariant of the body is an invariant of the loop. -/
lemma loop {P : σ → Prop} {xs : List α} {f : α → PUnit → EStateM ε σ (ForInStep PUnit)}
    (hf : ∀ a ∈ xs, ∀ s, P s → Ends (f a ⟨⟩ s) (fun step t => step = .yield ⟨⟩ ∧ P t) P)
    (hs : P s) : Ends ((forIn xs PUnit.unit f : EStateM ε σ PUnit) s) (fun _ => P) P := by
  induction xs generalizing s with
  | nil => exact hs
  | cons a xs ih =>
    rw [List.forIn_cons]
    refine bind (hf a (by simp) s hs) ?_
    rintro _ t ⟨rfl, ht⟩
    exact ih (fun b hb => hf b (by simp [hb])) ht

lemma forM {P : σ → Prop} {xs : List α} {f : α → EStateM ε σ PUnit}
    (hf : ∀ a ∈ xs, ∀ s, P s → Ends (f a s) (fun _ => P) E) (hs : P s) :
    Ends ((xs.forM f : EStateM ε σ PUnit) s) (fun _ => P) E := by
  induction xs generalizing s with
  | nil => exact hs
  | cons a xs ih =>
    change Ends ((f a >>= fun _ => xs.forM f) s) _ _
    exact bind (hf a (by simp) s hs) fun _ t ht => ih (fun b hb => hf b (by simp [hb])) ht

end Ends

/-- A program leads from a state to related ones, whether it fails or not. -/
class Obeys (R : σ → σ → Prop) (x : EStateM ε σ α) : Prop where
  final : ∀ s, R s (finalState (x s))

section obeys

variable {R : σ → σ → Prop} {x y : EStateM ε σ α} {f : α → EStateM ε σ β}

lemma Obeys.ends (h : Obeys R x) (s : σ) : Ends (x s) (fun _ => R s) (R s) := .of_final (h.final s)

lemma Obeys.ok {s t : σ} {a : α} (h : Obeys R x) (hx : x s = .ok a t) : R s t := (h.ends s).ok hx

lemma obeys_modify {g : σ → σ} (hg : ∀ s, R s (g s)) : Obeys R (modify g : EStateM ε σ PUnit) :=
  ⟨hg⟩

variable [IsPreorder σ R]

instance obeys_pure (a : α) : Obeys R (pure a : EStateM ε σ α) := ⟨refl_of R⟩

instance obeys_throw (e : ε) : Obeys R (throw e : EStateM ε σ α) := ⟨refl_of R⟩

instance obeys_get : Obeys R (get : EStateM ε σ σ) := ⟨refl_of R⟩

lemma Obeys.bind (hx : Obeys R x) (hf : ∀ a, Obeys R (f a)) : Obeys R (x >>= f) := by
  refine ⟨fun s => Ends.final ((hx.ends s).bind fun a t ht => ?_)⟩
  exact ((hf a).ends t).mono (fun _ _ => trans_of R ht) fun _ => trans_of R ht

instance obeys_bind [hx : Obeys R x] [hf : ∀ a, Obeys R (f a)] : Obeys R (x >>= f) := hx.bind hf

instance obeys_map {g : α → β} [hx : Obeys R x] : Obeys R (g <$> x) :=
  ⟨fun s => Ends.final (Ends.map (S := fun _ => R s) (hx.ends s))⟩

instance obeys_ite {p : Prop} [Decidable p] [hx : Obeys R x] [hy : Obeys R y] :
    Obeys R (if p then x else y) := by
  split_ifs
  exacts [hx, hy]

/-- What comes after a value was found or not. -/
lemma Obeys.found {o : EStateM ε σ (Option α)} {f : Option α → EStateM ε σ β} (ho : Obeys R o)
    (hnone : Obeys R (f none)) (hsome : ∀ a, Obeys R (f (some a))) : Obeys R (o >>= f) :=
  ho.bind fun found => found.casesOn hnone hsome

instance obeys_forM {xs : List α} {f : α → EStateM ε σ PUnit} [hf : ∀ a, Obeys R (f a)] :
    Obeys R (xs.forM f : EStateM ε σ PUnit) := by
  induction xs with
  | nil => exact obeys_pure _
  | cons a xs ih => exact (hf a).bind fun _ => ih

instance obeys_forIn {xs : List α} {b : β} {f : α → β → EStateM ε σ (ForInStep β)}
    [hf : ∀ a b, Obeys R (f a b)] : Obeys R (forIn xs b f) := by
  induction xs generalizing b with
  | nil => exact obeys_pure b
  | cons a xs ih =>
    rw [List.forIn_cons]
    refine (hf a b).bind fun step => ?_
    cases step
    exacts [obeys_pure _, ih]

end obeys

lemma bind_run {x : EStateM ε σ α} {f : α → EStateM ε σ β} {s t : σ} {a : α}
    (h : x s = .ok a t) : (x >>= f) s = f a t := by
  change EStateM.bind x f s = _
  simp only [EStateM.bind, h]

lemma bind_failed {x : EStateM ε σ α} {f : α → EStateM ε σ β} {s t : σ} {e : ε}
    (h : x s = .error e t) : (x >>= f) s = .error e t := by
  change EStateM.bind x f s = _
  simp only [EStateM.bind, h]

/-- Runs are the same if their first parts are, and what comes after these where they end. -/
lemma bind_congr_run {x x' : EStateM ε σ α} {f f' : α → EStateM ε σ β} {s : σ} (hx : x s = x' s)
    (hf : ∀ a t, x s = .ok a t → f a t = f' a t) : (x >>= f) s = (x' >>= f') s := by
  cases h : x s with
  | ok a t => rw [bind_run h, bind_run (hx ▸ h), hf a t h]
  | error e t => rw [bind_failed h, bind_failed (hx ▸ h)]

lemma bind_eq_ok {x : EStateM ε σ α} {f : α → EStateM ε σ β} {s s' : σ} {b : β} :
    (x >>= f) s = .ok b s' ↔ ∃ a t, x s = .ok a t ∧ f a t = .ok b s' := by
  change EStateM.bind x f s = .ok b s' ↔ _
  unfold EStateM.bind
  cases h : x s with
  | ok a t => simp
  | error e t => simp

@[simp] lemma except_ok_bind (a : α) (f : α → Except ε β) : ((.ok a : Except ε α) >>= f) = f a := rfl

lemma except_bind_eq_ok {x : Except ε α} {f : α → Except ε β} {b : β} :
    (x >>= f) = .ok b ↔ ∃ a, x = .ok a ∧ f a = .ok b := by
  cases x with
  | ok a =>
    change f a = .ok b ↔ _
    simp
  | error e =>
    change Except.error e = .ok b ↔ _
    simp

lemma except_map_eq_ok {x : Except ε α} {f : α → β} {b : β} :
    f <$> x = .ok b ↔ ∃ a, x = .ok a ∧ f a = b := by
  change Except.map f x = .ok b ↔ _
  cases x <;> simp [Except.map]

lemma except_bind_eq_error {x : Except ε α} {f : α → Except ε β} {e : ε} :
    (x >>= f) = .error e ↔ x = .error e ∨ ∃ a, x = .ok a ∧ f a = .error e := by
  cases x with
  | ok a =>
    change f a = .error e ↔ _
    simp
  | error e' =>
    change Except.error e' = .error e ↔ _
    simp

/-- What a selection that can fail keeps. -/
lemma mem_filterM {p : α → Except ε Bool} {xs ys : List α} (h : xs.filterM p = .ok ys) {y : α} :
    y ∈ ys ↔ y ∈ xs ∧ p y = .ok true := by
  have aux : ∀ {xs acc zs : List α}, xs.filterAuxM p acc = .ok zs →
      ∀ z, z ∈ zs ↔ z ∈ acc ∨ z ∈ xs ∧ p z = .ok true := by
    intro xs
    induction xs with
    | nil =>
      intro acc zs h z
      obtain rfl := Except.ok.inj h
      simp
    | cons x xs ih =>
      intro acc zs h z
      obtain ⟨b, hb, h⟩ := except_bind_eq_ok.mp h
      rw [ih h z]
      cases b with
      | false =>
        have hne : p z = .ok true → z ≠ x := by
          rintro hz rfl
          simp [hb] at hz
        simp only [cond_false, List.mem_cons]
        tauto
      | true =>
        have hx : z = x → p z = .ok true := fun hz => hz ▸ hb
        simp only [cond_true, List.mem_cons]
        tauto
  obtain ⟨zs, hz, h⟩ := except_bind_eq_ok.mp h
  obtain rfl := Except.ok.inj h
  rw [List.mem_reverse, aux hz y]
  simp

end DeclGraph
