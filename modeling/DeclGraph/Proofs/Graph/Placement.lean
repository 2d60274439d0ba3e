import DeclGraph.Proofs.Graph.Coherence
import DeclGraph.Proofs.Outcome

/-! Adding elements and changing their owners, record by record. -/

namespace DeclGraph

/-- What becomes of the record `x` under `m` when the element `n` with the record `r` gets another
owner. -/
def Node.relocated (n : NodeId) (r : Node) (home : Option NodeId) (m : NodeId) (x : Node) : Node :=
  let x := if r.owner = some m then x.detach r.kind.slot n else x
  let x := if m = n then { x with owner := home } else x
  if home = some m then x.attach r.kind.slot n else x

namespace Node

variable (n m : NodeId) (r x : Node) (home : Option NodeId)

@[simp] lemma children_with_owner (s : Slot) :
    ({ r with owner := home } : Node).children s = r.children s := by
  cases s <;> rfl

section fields

variable (s : Slot) (parts : List NodeId) (c : NodeId)

@[simp] lemma kind_setChildren : (r.setChildren s parts).kind = r.kind := by cases s <;> rfl
@[simp] lemma name_setChildren : (r.setChildren s parts).name = r.name := by cases s <;> rfl
@[simp] lemma owner_setChildren : (r.setChildren s parts).owner = r.owner := by cases s <;> rfl

/-- A record with its owner and its lists of parts left out. -/
def bare (r : Node) : Node :=
  { r with owner := none, owned := [], features := [], parameters := [], connections := [],
           taggedValues := [] }

@[simp] lemma bare_setChildren : (r.setChildren s parts).bare = r.bare := by cases s <;> rfl
@[simp] lemma bare_with_owner : ({ r with owner := home } : Node).bare = r.bare := rfl

@[simp] lemma bare_attach : (r.attach s c).bare = r.bare := by
  unfold attach
  split <;> simp

@[simp] lemma bare_detach : (r.detach s c).bare = r.bare := by simp [detach]

@[simp] lemma owner_attach : (r.attach s c).owner = r.owner := by
  unfold attach
  split <;> simp

@[simp] lemma owner_detach : (r.detach s c).owner = r.owner := by simp [detach]

end fields

@[simp] lemma bare_relocated : (Node.relocated n r home m x).bare = x.bare := by
  unfold relocated
  split_ifs <;> simp

lemma owner_relocated :
    (Node.relocated n r home m x).owner = if m = n then home else x.owner := by
  unfold relocated
  split_ifs <;> simp

lemma children_relocated_of_ne {s : Slot} (hs : s ≠ r.kind.slot) :
    (Node.relocated n r home m x).children s = x.children s := by
  unfold relocated
  split_ifs <;> simp [children_attach, children_detach, hs]

lemma children_relocated_slot :
    (Node.relocated n r home m x).children r.kind.slot =
      let rest := if r.owner = some m then (x.children r.kind.slot).erase n
        else x.children r.kind.slot
      if home = some m ∧ n ∉ rest then rest ++ [n] else rest := by
  unfold relocated
  split_ifs <;> simp_all [children_attach, children_detach]

/-- Records with the same core have the same fields apart from owner and parts. -/
lemma bare_congr {r r' : Node} (h : r.bare = r'.bare) :
    r.kind = r'.kind ∧ r.name = r'.name ∧ r.type = r'.type ∧ r.general = r'.general ∧
      r.specific = r'.specific ∧ r.clients = r'.clients ∧ r.suppliers = r'.suppliers ∧
      r.resident = r'.resident ∧ r.container = r'.container ∧ r.association = r'.association ∧
      r.stereotypes = r'.stereotypes := by
  simp only [bare, Node.mk.injEq] at h
  tauto

end Node

namespace Graph

/-- `g'` is `g` with the element `n`, whose record was `r`, under another owner. -/
structure Moved (g : Graph) (n : NodeId) (r : Node) (home : Option NodeId) (g' : Graph) : Prop where
  next : g'.next = g.next
  node : ∀ m, g'.node? m = (g.node? m).map (Node.relocated n r home m)

/-- The graph in which an element has left its owner, before it is in a list of the new one. -/
def release (g : Graph) (n : NodeId) (r : Node) (home : Option NodeId) : Graph :=
  (r.owner.elim g fun owner => g.modify owner (·.detach r.kind.slot n)).modify n
    ({ · with owner := home })

/-- `g'` is `g` with a new element that has the record `r`. -/
structure Built (g : Graph) (r : Node) (g' : Graph) : Prop where
  next : g'.next = g.next + 1
  node : ∀ m, g'.node? m = if m = g.next then some r
    else (g.node? m).map fun x => if r.owner = some m then x.attach r.kind.slot g.next else x

namespace Built

variable {g g' : Graph} {m : NodeId} {r x y : Node}

lemma new_node (h : g.Built r g') : g'.node? g.next = some r := by
  rw [h.node, if_pos rfl]

lemma old_node (h : g.Built r g') (hm : g.node? m = some x) :
    g'.node? m = some (if r.owner = some m then x.attach r.kind.slot g.next else x) := by
  rw [h.node, if_neg (ne_next (isLive_of_node? hm)), hm]
  rfl

lemma node_cases (h : g.Built r g') (hm : g'.node? m = some y) : (m = g.next ∧ y = r) ∨
    ∃ x, g.node? m = some x ∧ y = if r.owner = some m then x.attach r.kind.slot g.next else x := by
  by_cases hmn : m = g.next
  · subst hmn
    exact Or.inl ⟨rfl, (Option.some.inj (h.new_node.symm.trans hm)).symm⟩
  · rw [h.node, if_neg hmn] at hm
    obtain ⟨x, hx, rfl⟩ := Option.map_eq_some_iff.mp hm
    exact Or.inr ⟨x, hx, rfl⟩

lemma isLive (h : g.Built r g') : g'.isLive m = true ↔ m = g.next ∨ g.isLive m = true := by
  constructor
  · intro hm
    obtain ⟨y, hy⟩ := isLive_iff.mp hm
    rcases h.node_cases hy with ⟨rfl, _⟩ | ⟨x, hx, _⟩
    · exact Or.inl rfl
    · exact Or.inr (isLive_of_node? hx)
  · rintro (rfl | hm)
    · exact isLive_of_node? h.new_node
    · obtain ⟨x, hx⟩ := isLive_iff.mp hm
      exact isLive_of_node? (h.old_node hx)

lemma live (h : g.Built r g') (hm : g.isLive m = true) : g'.isLive m = true :=
  h.isLive.mpr (Or.inr hm)

/-- Filling in the record of an element just built. -/
lemma modify (h : g.Built r g') {f : Node → Node} (hk : (f r).kind = r.kind)
    (ho : (f r).owner = r.owner) : g.Built (f r) (g'.modify g.next f) := by
  refine ⟨(next_modify _ _).trans h.next, ?_⟩
  intro m
  rw [node?_modify, h.node, hk, ho]
  split_ifs <;> rfl

/-- Filling in another record, which is not that of the owner. -/
lemma modify_other (h : g.Built r g') {f : Node → Node} (hm : m ≠ g.next) (ho : r.owner ≠ some m) :
    (g.modify m f).Built r (g'.modify m f) := by
  have hnext : (g.modify m f).next = g.next := next_modify _ _
  refine ⟨(next_modify _ _).trans (h.next.trans (congrArg (· + 1) hnext.symm)), ?_⟩
  intro y
  rw [node?_modify, node?_modify, h.node, hnext]
  by_cases hy : y = m
  · subst hy
    simp only [if_pos, if_neg hm, if_neg ho, Option.map_id']
  · simp only [if_neg hy]

end Built

end Graph

namespace GraphM

variable {g : Graph} {n : NodeId} {r : Node}

@[simp] lemma get_run (n : NodeId) (g : Graph) : GraphM.get n g =
    match g.node? n with
    | some r => .ok r g
    | none => .error (.unknownHandle n) g := by
  simp only [GraphM.get, query, Graph.get]
  cases g.node? n <;> rfl

lemma get_ok (hr : g.node? n = some r) : GraphM.get n g = .ok r g := by rw [get_run, hr]

lemma update_run (n : NodeId) (f : Node → Node) (g : Graph) : update n f g =
    match g.node? n with
    | some _ => .ok () (g.modify n f)
    | none => .error (.unknownHandle n) g := by
  change EStateM.bind (GraphM.get n) _ g = _
  unfold EStateM.bind
  rw [get_run]
  cases g.node? n <;> rfl

lemma update_ok (f : Node → Node) (hn : g.isLive n = true) :
    update n f g = .ok () (g.modify n f) := by
  obtain ⟨r, hr⟩ := Graph.isLive_iff.mp hn
  rw [update_run, hr]

lemma query_ok {α : Type} {f : Graph → Except GraphFault α} {a : α} (h : f g = .ok a) :
    query f g = .ok a g := by
  simp [query, h]

lemma node?_release (n : NodeId) (r : Node) (home : Option NodeId) (m : NodeId) :
    (g.release n r home).node? m = (g.node? m).map fun x =>
      let x := if r.owner = some m then x.detach r.kind.slot n else x
      if m = n then { x with owner := home } else x := by
  unfold Graph.release
  rw [Graph.node?_modify]
  cases ho : r.owner with
  | none =>
    simp only [Option.elim_none, reduceCtorEq, if_false]
    split_ifs <;> simp
  | some owner =>
    simp only [Option.elim_some, Graph.node?_modify, Option.some.injEq, eq_comm (a := owner)]
    split_ifs <;> simp [Function.comp_def]

lemma setNamespace_run (hr : g.node? n = some r) (home : Option NodeId) :
    setNamespace n home g =
      (home.elim (pure ()) fun p => update p (·.attach r.kind.slot n)) (g.release n r home) := by
  unfold setNamespace
  rw [bind_run (get_ok hr)]
  cases home <;> cases ho : r.owner <;> simp only [Graph.release, ho] <;> rfl

/-- The element ends up under the new owner, or with a dead one that has no list for it. -/
lemma moved_setNamespace (hr : g.node? n = some r) (home : Option NodeId) :
    g.Moved n r home (finalState (setNamespace n home g)) := by
  have hnext : (g.release n r home).next = g.next := by
    unfold Graph.release
    cases r.owner <;> simp
  rw [setNamespace_run hr]
  cases home with
  | none => exact ⟨hnext, fun m => node?_release n r none m⟩
  | some p =>
    rw [Option.elim_some, update_run]
    cases hp : (g.release n r (some p)).node? p with
    | none =>
      refine ⟨hnext, fun m => (node?_release n r (some p) m).trans ?_⟩
      cases hx : g.node? m with
      | none => rfl
      | some x =>
        have hne : p ≠ m := by
          rintro rfl
          simp [node?_release, hx] at hp
        simp [Node.relocated, hne]
    | some _ =>
      refine ⟨(Graph.next_modify _ _).trans hnext, fun m => ?_⟩
      change ((g.release n r (some p)).modify p (·.attach r.kind.slot n)).node? m = _
      rw [Graph.node?_modify, node?_release]
      unfold Node.relocated
      by_cases hm : m = p
      · subst hm
        simp [Function.comp_def]
      · simp [hm, Ne.symm hm]

lemma setNamespace_ok (hr : g.node? n = some r) {home : Option NodeId}
    (hp : ∀ p, home = some p → g.isLive p = true) :
    ∃ g', setNamespace n home g = .ok () g' ∧ g.Moved n r home g' := by
  have hm := moved_setNamespace hr home
  suffices h : ∃ g', setNamespace n home g = .ok () g' by
    obtain ⟨g', hrun⟩ := h
    rw [hrun] at hm
    exact ⟨g', hrun, hm⟩
  rw [setNamespace_run hr]
  cases home with
  | none => exact ⟨_, rfl⟩
  | some p =>
    obtain ⟨x, hx⟩ := Graph.isLive_iff.mp (hp p rfl)
    refine ⟨_, update_ok _ ?_⟩
    simp [Graph.isLive, node?_release, hx]

lemma setNamespace_unknown (hn : g.node? n = none) (home : Option NodeId) :
    setNamespace n home g = .error (.unknownHandle n) g := by
  unfold setNamespace
  exact bind_failed (by rw [get_run, hn])

lemma create_ok (g : Graph) (kind : NodeKind) (name : Option String) (home : Option NodeId)
    (hp : ∀ p, home = some p → g.isLive p = true) :
    ∃ g', create kind name home g = .ok g.next g' ∧ g.Built { kind, name, owner := home } g' := by
  let g₁ := (g.add { kind, name }).2
  have hadd : add kind name g = .ok g.next g₁ := rfl
  cases home with
  | none =>
    refine ⟨g₁, rfl, ⟨Graph.next_add _, ?_⟩⟩
    intro m
    simp [g₁, Graph.node?_add]
  | some p =>
    have hr : g₁.node? g.next = some { kind, name } := by simp [g₁, Graph.node?_add]
    have hne : p ≠ g.next := Graph.ne_next (hp p rfl)
    have hlive : ∀ q, some p = some q → g₁.isLive q = true := by
      rintro q h
      obtain rfl := Option.some.inj h
      simpa [Graph.isLive, g₁, Graph.node?_add, hne] using hp p rfl
    obtain ⟨g', hset, hmoved⟩ := setNamespace_ok hr hlive
    refine ⟨g', ?_, ⟨?_, ?_⟩⟩
    · unfold create
      rw [bind_run hadd]
      exact bind_run hset
    · rw [hmoved.next]
      exact Graph.next_add _
    · intro m
      rw [hmoved.node]
      by_cases hm : m = g.next
      · subst hm
        simp [hr, Node.relocated, hne]
      · simp only [g₁, Graph.node?_add, hm, if_false]
        congr 1
        funext x
        simp [Node.relocated, hm]

end GraphM

end DeclGraph
