import DeclGraph.Proofs.Graph.Membership
import DeclGraph.Proofs.Graph.Rooting
import DeclGraph.Proofs.Graph.Uniqueness

/-! Graphs in which everything is in its place, once, and nothing is a placeholder. They stay so
unless something is marked as one. -/

namespace DeclGraph

open DeclGraph.Graph

/-- Nothing is marked as a placeholder. -/
def Change.MarksNothing : Change → Prop
  | .build r => r.kind = .taggedValue → r.name ≠ some generatedTag
  | .force _ => False
  | _ => True

namespace Graph

variable {P : Graph → Change → Prop} {g g' : Graph} {n : NodeId} {r : Node} {c : Change}

/-- There are no placeholders. -/
structure Unmarked (g : Graph) : Prop where
  name : ∀ {n r}, g.node? n = some r → r.kind = .taggedValue → r.name ≠ some generatedTag

namespace Unmarked

/-- The elements that were not there before have other names or are of other kinds. -/
lemma along (h : g.Unmarked) (hold : ∀ {m y}, g'.node? m = some y → y.kind = .taggedValue →
    (∃ x, g.node? m = some x ∧ y.kind = x.kind ∧ y.name = x.name) ∨
      y.name ≠ some generatedTag) : g'.Unmarked := by
  refine ⟨fun hy hk => (hold hy hk).elim ?_ id⟩
  rintro ⟨x, hx, hk', hname⟩
  exact hname ▸ h.name hx (hk' ▸ hk)

lemma built (h : g.Unmarked) (hb : g.Built r g')
    (hr : r.kind = .taggedValue → r.name ≠ some generatedTag) : g'.Unmarked := by
  refine h.along fun hy hk => ?_
  rcases hb.cases_bare hy with ⟨-, rfl⟩ | ⟨x, hx, hbare, -⟩
  · exact Or.inr (hr hk)
  · exact Or.inl ⟨x, hx, (Node.bare_congr hbare).1, (Node.bare_congr hbare).2.1⟩

lemma step (h : g.Unmarked) (hs : g.Step c g') (hc : c.MarksNothing) : g'.Unmarked := by
  cases hs with
  | build _ _ hb _ => exact h.built hb hc
  | move _ _ hm _ =>
    refine h.along fun hy _ => Or.inl ?_
    obtain ⟨x, hx, hbare, -⟩ := hm.cases_bare hy
    exact ⟨x, hx, (Node.bare_congr hbare).1, (Node.bare_congr hbare).2.1⟩
  | edit hr he _ hed _ =>
    refine h.along fun {m y} hy _ => Or.inl ?_
    rw [hed.node] at hy
    split_ifs at hy with hm
    · obtain rfl := Option.some.inj hy
      exact ⟨_, hm ▸ hr, he.place.kind, he.name⟩
    · exact ⟨y, hy, rfl, rfl⟩
  | delete _ _ =>
    refine h.along fun hy _ => Or.inl ?_
    obtain ⟨-, x, hx, rfl⟩ := node?_remove_eq_some.mp hy
    exact ⟨x, hx, rfl, rfl⟩
  | force => exact hc.elim
  | supersede _ _ hk _ _ _ hs =>
    refine h.along fun {m y} hy hky => Or.inl ?_
    by_cases hm : m = g.next
    · subst hm
      have := hs.kind?_new
      rw [kind?_eq hy, hky] at this
      rw [← Option.some.inj this] at hk
      exact Bool.noConfusion hk
    · obtain ⟨x, hx, -, -, hb, -⟩ := hs.stays hy hm
      exact ⟨x, hx, (Node.bare_congr hb).1, (Node.bare_congr hb).2.1⟩
  | associate ha _ =>
    obtain ⟨_, _, _, _, hb₁, hb₂, hb₃⟩ := ha.built
    refine ((h.built hb₁ ?_).built hb₂.toBuilt ?_).built hb₃.toBuilt ?_ <;> intro hk
    · exact absurd (ha.kind.symm.trans hk) (by decide)
    · exact absurd (hb₂.kind.symm.trans hk) (by decide)
    · exact absurd (hb₃.kind.symm.trans hk) (by decide)

end Unmarked

/-- A graph without placeholders in which what is known about graphs holds. -/
structure Tidy (g : Graph) : Prop extends Sound g where
  keyed : g.Keyed
  rooted : g.Rooted
  unmarked : g.Unmarked

lemma Tidy.step (h : g.Tidy) (hs : g.Step c g') (hc : c.MarksNothing) : g'.Tidy :=
  ⟨h.toSound.step hs, h.keyed.step h.toSound hs (by rintro r rfl; exact hc),
    h.rooted.step h.toSound hs, h.unmarked.step hs hc⟩

lemma Tidy.steps (h : g.Tidy) (hs : Steps P g g') (hP : ∀ g c, P g c → c.MarksNothing) :
    g'.Tidy := by
  induction hs with
  | refl => exact h
  | step _ hc hstep ih => exact ih.step hstep (hP _ _ hc)

end Graph

end DeclGraph
