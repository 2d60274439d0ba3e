import DeclGraph.Proofs.Outcome

/-! Programs that keep an invariant, whether they fail or not, and what their answers are then. -/

namespace DeclGraph

variable {ε σ α β : Type} {I : σ → Prop} {Q : α → Prop} {R : β → Prop} {x : EStateM ε σ α}
  {f : α → EStateM ε σ β}

/-- From states in `I` to states in `I`. -/
def Maintained (I : σ → Prop) (s t : σ) : Prop := I s → I t

instance : IsPreorder σ (Maintained I) where
  refl _ := id
  trans _ _ _ h h' := h' ∘ h

/-- Programs that keep `I`. -/
abbrev Maintains (I : σ → Prop) (x : EStateM ε σ α) : Prop := Obeys (Maintained I) x

/-- A program keeps `I`, and the answers that it gives in such states are in `Q`. -/
structure Yields (I : σ → Prop) (x : EStateM ε σ α) (Q : α → Prop) : Prop where
  ends : ∀ s, I s → Ends (x s) (fun a t => Q a ∧ I t) I

lemma maintains_of_ends (h : ∀ s, I s → Ends (x s) (fun _ => I) I) : Maintains I x :=
  ⟨fun s hs => (h s hs).final⟩

lemma Obeys.maintained (h : Maintains I x) {s : σ} (hs : I s) : Ends (x s) (fun _ => I) I :=
  .of_final (h.final s hs)

lemma Obeys.yields_bind (hx : Maintains I x) (hf : ∀ a, Yields I (f a) R) :
    Yields I (x >>= f) R :=
  ⟨fun _ hs => (hx.maintained hs).bind fun a t ht => (hf a).ends t ht⟩

lemma maintains_forM {xs : List α} {f : α → EStateM ε σ PUnit} (hf : ∀ a ∈ xs, Maintains I (f a)) :
    Maintains I (xs.forM f : EStateM ε σ PUnit) :=
  maintains_of_ends fun _ hs => Ends.forM (fun a ha _ ht => (hf a ha).maintained ht) hs

lemma maintains_forIn {xs : List α} {b : β} {f : α → β → EStateM ε σ (ForInStep β)}
    (hf : ∀ a ∈ xs, ∀ b, Maintains I (f a b)) : Maintains I (forIn xs b f) := by
  induction xs generalizing b with
  | nil => exact obeys_pure b
  | cons a xs ih =>
    rw [List.forIn_cons]
    apply (hf a (by simp) b).bind
    rintro (b' | b')
    · exact obeys_pure b'
    · exact ih fun a ha => hf a (by simp [ha])

namespace Yields

lemma get : Yields I (get : EStateM ε σ σ) I := ⟨fun _ hs => ⟨hs, hs⟩⟩

lemma answer {a : α} (h : Q a) : Yields I (pure a : EStateM ε σ α) Q := ⟨fun _ hs => ⟨h, hs⟩⟩

lemma failure (e : ε) : Yields I (throw e : EStateM ε σ α) Q := ⟨fun _ hs => hs⟩

lemma maintains (h : Yields I x Q) : Maintains I x :=
  maintains_of_ends fun s hs => (h.ends s hs).imp fun _ _ => And.right

lemma bind (hx : Yields I x Q) (hf : ∀ a, Q a → Yields I (f a) R) : Yields I (x >>= f) R :=
  ⟨fun s hs => (hx.ends s hs).bind fun a t ha => (hf a ha.1).ends t ha.2⟩

/-- What comes after an answer may use what it is. -/
lemma next (hx : Yields I x Q) (hf : ∀ a, Q a → Maintains I (f a)) : Maintains I (x >>= f) :=
  maintains_of_ends fun s hs => (hx.ends s hs).bind fun a _ ha => (hf a ha.1).maintained ha.2

lemma ite {p : Prop} [Decidable p] {y : EStateM ε σ α} (hx : Yields I x Q) (hy : Yields I y Q) :
    Yields I (if p then x else y) Q := by
  split_ifs
  exacts [hx, hy]

end Yields

end DeclGraph
