import DeclGraph.Import.Batch
import DeclGraph.Proofs.Graph.Persistence

/-! Programs of the importer as runs of permitted changes. -/

namespace DeclGraph

open DeclGraph.Graph

/-- What may be done to a graph. -/
abbrev Permit := Graph → Change → Prop

/-- Making, moving and deleting elements of some kinds, changing elements of others, and making
placeholders where the policy is to make them. Nothing else is marked as a placeholder, and
stereotypes are not deleted. -/
def Permit.within (u : UnitContext) (made edited : List NodeKind) : Permit
  | _, .build r => r.kind ∈ made ∧ (r.kind = .taggedValue → r.name ≠ some generatedTag)
  | g, .move n _ => ∃ k ∈ made, g.kind? n = some k ∧ k ≠ .taggedValue
  | g, .delete n => ∃ k ∈ made, g.kind? n = some k ∧ k ≠ .stereotype
  | g, .edit n _ => ∃ k ∈ edited, g.kind? n = some k
  | _, .force _ => u.settings.unresolvedPolicy = .force
  | _, .supersede _ _ => False
  | _, .associate _ => .association ∈ made ∧ .associationEnd ∈ made

/-- Anything may be done, but placeholders are made only where the policy is to make them, and
nothing else is marked as one. -/
def Permit.free (u : UnitContext) : Permit
  | _, .build r => r.kind = .taggedValue → r.name ≠ some generatedTag
  | _, .force _ => u.settings.unresolvedPolicy = .force
  | _, _ => True

lemma Permit.within_le_free {u : UnitContext} {made edited : List NodeKind} :
    Permit.within u made edited ≤ Permit.free u := by
  intro g c h
  cases c with
  | build r => exact h.2
  | force r => exact h
  | supersede old r => exact h.elim
  | _ => trivial

lemma Permit.within_mono {u : UnitContext} {made made' edited edited' : List NodeKind}
    (hm : made ⊆ made') (he : edited ⊆ edited') :
    Permit.within u made edited ≤ Permit.within u made' edited' := by
  intro g c h
  cases c with
  | build r => exact ⟨hm h.1, h.2⟩
  | move n home => exact h.imp fun _ h => ⟨hm h.1, h.2⟩
  | edit n r => exact h.imp fun _ h => ⟨he h.1, h.2⟩
  | delete n => exact h.imp fun _ h => ⟨hm h.1, h.2⟩
  | force r => exact h
  | supersede old r => exact h
  | associate r => exact h.imp (hm ·) (hm ·)

variable {α β : Type} {P P' : Permit} {s s' : UnitState} {Q R : α → UnitState → Prop}
  {S : β → UnitState → Prop} {x : ImportM α} {f : α → ImportM β} {a : α}

/-- A run makes permitted changes alone, whether it fails or not, and ends in `Q` if it does not. -/
structure Performs (P : Permit) (s : UnitState) (r : EStateM.Result ImportError UnitState α)
    (Q : α → UnitState → Prop) : Prop where
  ends : Ends r (fun a s' => Steps P s.graph s'.graph ∧ Q a s') fun s' => Steps P s.graph s'.graph

/-- The scopes and the component of a unit are what they were. -/
structure UnitState.SameUnit (s s' : UnitState) : Prop where
  scopes : s'.scopes = s.scopes
  component : s'.component = s.component

lemma UnitState.SameUnit.refl (s : UnitState) : s.SameUnit s := ⟨rfl, rfl⟩

lemma UnitState.SameUnit.trans {s₁ s₂ s₃ : UnitState} (h : s₁.SameUnit s₂) (h' : s₂.SameUnit s₃) :
    s₁.SameUnit s₃ :=
  ⟨h'.scopes.trans h.scopes, h'.component.trans h.component⟩

namespace Performs

variable {r : EStateM.Result ImportError UnitState α}

lemma mono (h : Performs P s r Q) (hP : P ≤ P') (hQ : ∀ a s', Q a s' → R a s') :
    Performs P' s r R :=
  ⟨h.ends.mono (fun _ _ h => ⟨h.1.mono hP, hQ _ _ h.2⟩) fun _ h => h.mono hP⟩

lemma imp (h : Performs P s r Q) (hQ : ∀ a s', Q a s' → R a s') : Performs P s r R :=
  h.mono le_rfl hQ

lemma weaken (h : Performs P s r Q) (hP : P ≤ P') : Performs P' s r Q := h.mono hP fun _ _ => id

lemma ok (h : Performs P s (x s) Q) (hx : x s = .ok a s') :
    Steps P s.graph s'.graph ∧ Q a s' := by
  simpa only [Ends, hx] using h.ends

/-- The outcome of a run may be used along with what it ends in. -/
lemma recorded (h : Performs P s (x s) Q) :
    Performs P s (x s) fun a t => Q a t ∧ x s = .ok a t := by
  refine ⟨?_⟩
  have h := h.ends
  cases hx : x s with
  | ok a t =>
    rw [hx] at h
    exact ⟨h.1, h.2, rfl⟩
  | error e t =>
    rw [hx] at h
    exact h

lemma final (h : Performs P s r Q) : Steps P s.graph (finalState r).graph := by
  have h := h.ends
  cases r with
  | ok a s' => exact h.1
  | error e s' => exact h

lemma answer (h : Q a s) : Performs P s ((pure a : ImportM α) s) Q := ⟨⟨.refl, h⟩⟩

lemma failure {e : ImportError} : Performs P s ((throw e : ImportM α) s) Q := ⟨Steps.refl⟩

lemma failed {e : ImportError} (hs : Steps P s.graph s'.graph) :
    Performs P s (.error e s' : EStateM.Result ImportError UnitState α) Q := ⟨hs⟩

lemma after (h : Performs P s' r Q) (hs : Steps P s.graph s'.graph) : Performs P s r Q :=
  ⟨h.ends.mono (fun _ _ h => ⟨hs.trans h.1, h.2⟩) fun _ h => hs.trans h⟩

lemma bind (hx : Performs P s (x s) Q)
    (hf : ∀ a s', Steps P s.graph s'.graph → Q a s' → Performs P s' (f a s') S) :
    Performs P s ((x >>= f) s) S :=
  ⟨hx.ends.bind fun a s' h => ((hf a s' h.1 h.2).after h.1).ends⟩

/-- A first part whose outcome is known. -/
lemma bind_ok {t : UnitState} (hx : x s = .ok a t) (hs : Steps P s.graph t.graph)
    (hf : Performs P t (f a t) S) : Performs P s ((x >>= f) s) S := by
  rw [bind_run hx]
  exact hf.after hs

lemma bind_same {t : UnitState} (hx : x s = .ok a t) (hs : t.graph = s.graph)
    (hf : Performs P t (f a t) S) : Performs P s ((x >>= f) s) S :=
  bind_ok hx (hs ▸ .refl) hf

lemma same {t : UnitState} (hx : x s = .ok a t) (hs : t.graph = s.graph) (hQ : Q a t) :
    Performs P s (x s) Q := by
  rw [hx]
  exact ⟨⟨hs ▸ .refl, hQ⟩⟩

lemma failure_bind {e : ImportError} {f : α → ImportM β} :
    Performs P s (((throw e : ImportM α) >>= f) s) S := by
  rw [bind_failed (show (throw e : ImportM α) s = .error e s from rfl)]
  exact failed .refl

lemma after_change {g : Graph} (h : Performs P { s with graph := g } r Q)
    (hs : Steps P s.graph g) : Performs P s r Q := h.after hs

end Performs

namespace ImportM

/-- A query that succeeds, or fails and changes nothing. -/
lemma performs_query {g : Graph → Except GraphFault α} (hQ : ∀ a, g s.graph = .ok a → Q a s) :
    Performs P s (query g s) Q := by
  unfold query
  cases h : g s.graph with
  | ok a => exact ⟨⟨.refl, hQ a h⟩⟩
  | error e => exact Performs.failed .refl

lemma bind_query {g : Graph → Except GraphFault α}
    (hf : ∀ a, g s.graph = .ok a → Performs P s (f a s) S) :
    Performs P s ((query g >>= f) s) S := by
  cases h : g s.graph with
  | ok a => exact Performs.bind_same (by simp [query, h]) rfl (hf a h)
  | error e =>
    rw [bind_failed (by simp only [query, h]; rfl)]
    exact Performs.failed .refl

lemma change_ok {m : GraphM α} {g : Graph} (h : m s.graph = .ok a g) :
    change m s = .ok a { s with graph := g } := by
  simp [change, h]

lemma query_ok {g : Graph → Except GraphFault α} (h : g s.graph = .ok a) :
    query g s = .ok a s := by
  simp [query, h]

lemma query_eq_ok {g : Graph → Except GraphFault α} :
    query g s = .ok a s' ↔ g s.graph = .ok a ∧ s' = s := by
  unfold query
  cases g s.graph <;> simp [eq_comm]

/-- A change of the graph whose outcome is known. -/
lemma bind_change {m : GraphM α} {g : Graph} (hm : m s.graph = .ok a g) (hs : Steps P s.graph g)
    (hf : Performs P { s with graph := g } (f a { s with graph := g }) S) :
    Performs P s ((change m >>= f) s) S :=
  Performs.bind_ok (change_ok hm) hs hf

lemma performs_warn (u : UnitContext) (code message : String) :
    Performs P s (warn u code message s) fun _ t => s.SameUnit t :=
  ⟨⟨Steps.refl, rfl, rfl⟩⟩

lemma bind_emit {e : Event} {f : Unit → ImportM β}
    (hf : Performs P { s with log := e :: s.log } (f () { s with log := e :: s.log }) S) :
    Performs P s ((emit e >>= f) s) S :=
  Performs.bind_same rfl rfl hf

lemma bind_register {n : NodeId} {f : Unit → ImportM β}
    (hf : Performs P { s with session := s.session.register n }
      (f () { s with session := s.session.register n }) S) :
    Performs P s ((register n >>= f) s) S :=
  Performs.bind_same rfl rfl hf

lemma bind_discard {n : NodeId} {f : Unit → ImportM β}
    (hf : Performs P { s with session := s.session.discard n }
      (f () { s with session := s.session.discard n }) S) :
    Performs P s ((discard n >>= f) s) S :=
  Performs.bind_same rfl rfl hf

/-- The state changes beside the graph. -/
lemma bind_modify {g : UnitState → UnitState} {f : Unit → ImportM β}
    (hg : (g s).graph = s.graph) (hf : Performs P (g s) (f () (g s)) S) :
    Performs P s ((modify g >>= f) s) S :=
  Performs.bind_same rfl hg hf

/-- The state is read. -/
lemma bind_get {f : UnitState → ImportM β} (hf : Performs P s (f s s) S) :
    Performs P s ((get >>= f) s) S :=
  Performs.bind_same rfl rfl hf

/-- What declares no return type is a constructor, so that nothing is left of the case in which the
type of a result is missing. -/
lemma addResult_eq (u : UnitContext) (classifier op : NodeId) (returnType : Option String)
    (name : String) : addResult u classifier op returnType name = (do
      let constructs ← query (·.isConstructor classifier returnType (some name))
      match returnType.filter fun _ => !constructs with
      | none =>
        let st ← stereotype Profile.createStereotype (some "BehavioralFeature")
        change (.addStereotype op st)
      | some type =>
        if let some n ← resolve u type .any "operation return type" then
          let _ ← change (.buildParameter op (some n) (some "return") .result)) := by
  funext s
  unfold addResult
  cases hc : s.graph.isConstructor classifier returnType (some name) with
  | error f =>
    have hquery : query (·.isConstructor classifier returnType (some name)) s =
        .error (.graph f) s := by
      simp [query, hc]
    rw [bind_failed hquery, bind_failed hquery]
  | ok constructs =>
    rw [bind_run (query_ok hc), bind_run (query_ok hc)]
    cases returnType with
    | none =>
      obtain rfl : true = constructs := Except.ok.inj hc
      rfl
    | some type => cases constructs <;> rfl

end ImportM

end DeclGraph
