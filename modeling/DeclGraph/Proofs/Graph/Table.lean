import Mathlib
import DeclGraph.Graph.Edge
import DeclGraph.Graph.Feature
import DeclGraph.Graph.Redirection

/-! What the elementary operations of the table do to the record under a handle. -/

namespace DeclGraph.Graph

variable {g : Graph} {n m : NodeId} {r : Node}

/-- The handle that is given out next. -/
def next (g : Graph) : NodeId := g.slots.size

lemma isLive_iff : g.isLive n = true ↔ ∃ r, g.node? n = some r := by
  simp [isLive, Option.isSome_iff_exists]

lemma isLive_of_node? (h : g.node? n = some r) : g.isLive n = true :=
  isLive_iff.mpr ⟨r, h⟩

lemma node?_of_not_isLive (h : ¬g.isLive n = true) : g.node? n = none := by
  simpa [isLive] using h

lemma node?_eq_some : g.node? n = some r ↔ ∃ i : Nat, n = i ∧ g.slots[i]? = some (some r) := by
  cases n with
  | ofNat i =>
    constructor
    · intro h
      exact ⟨i, rfl, Option.join_eq_some_iff.mp h⟩
    · rintro ⟨j, hj, h⟩
      obtain rfl := Int.ofNat.inj hj
      exact Option.join_eq_some_iff.mpr h
  | negSucc i =>
    constructor
    · intro h
      simp [node?] at h
    · rintro ⟨j, hj, _⟩
      exact Int.noConfusion hj

lemma lt_next (h : g.isLive n = true) : n < g.next := by
  obtain ⟨r, hr⟩ := isLive_iff.mp h
  obtain ⟨i, rfl, hi⟩ := node?_eq_some.mp hr
  have := (Array.getElem?_eq_some_iff.mp hi).1
  simpa [next] using this

lemma ne_next (h : g.isLive n = true) : n ≠ g.next := (lt_next h).ne

@[simp] lemma node?_next : g.node? g.next = none := by
  apply node?_of_not_isLive
  intro h
  exact ne_next h rfl

@[simp] lemma add_fst (r : Node) : (g.add r).1 = g.next := rfl

lemma node?_add (r : Node) (m : NodeId) :
    (g.add r).2.node? m = if m = g.next then some r else g.node? m := by
  cases m with
  | ofNat i =>
    have hi : ((Int.ofNat i : NodeId) = g.next) ↔ i = g.slots.size := by
      simp [next]
    by_cases h : i = g.slots.size
    · subst h
      simp [node?, add, next]
    · rw [if_neg (hi.not.mpr h)]
      simp [node?, add, Array.getElem?_push, h]
  | negSucc i => simp [node?, next]

@[simp] lemma next_add (r : Node) : (g.add r).2.next = g.next + 1 := by
  simp [next, add]

lemma node?_modify (n : NodeId) (f : Node → Node) (m : NodeId) :
    (g.modify n f).node? m = if m = n then (g.node? m).map f else g.node? m := by
  cases m with
  | ofNat i =>
    cases n with
    | ofNat j =>
      simp only [node?, modify, Int.ofNat_eq_natCast, Int.toNat_natCast, Array.getElem?_modify,
        Nat.cast_inj]
      by_cases h : i = j
      · subst h
        cases g.slots[i]? <;> simp
      · simp [h, Ne.symm h]
    | negSucc j =>
      rw [if_neg Int.noConfusion]
      simp only [node?, modify, Array.getElem?_modify]
      cases g.slots[i]? <;> simp
  | negSucc i => cases n <;> simp [node?]

@[simp] lemma next_modify (n : NodeId) (f : Node → Node) : (g.modify n f).next = g.next := by
  simp [next, modify]

lemma node?_mapNodes (f : NodeId → Node → Node) (m : NodeId) :
    (g.mapNodes f).node? m = (g.node? m).map (f m) := by
  cases m with
  | ofNat i =>
    simp only [node?, mapNodes, Array.getElem?_mapIdx]
    cases g.slots[i]? <;> simp
  | negSucc i => simp [node?]

@[simp] lemma next_mapNodes (f : NodeId → Node → Node) : (g.mapNodes f).next = g.next := by
  simp [next, mapNodes]

lemma node?_remove (doomed : List NodeId) (m : NodeId) :
    (g.remove doomed).node? m = if m ∈ doomed then none else (g.node? m).map (·.forget doomed) := by
  cases m with
  | ofNat i =>
    simp only [node?, remove, Array.getElem?_mapIdx, Int.ofNat_eq_natCast]
    by_cases h : (i : NodeId) ∈ doomed
    · cases g.slots[i]? <;> simp [h]
    · cases g.slots[i]? <;> simp [h]
  | negSucc i => simp [node?]

@[simp] lemma next_remove (doomed : List NodeId) : (g.remove doomed).next = g.next := by
  simp [next, remove]

/-- Handles are listed in the order in which they were given out. -/
lemma handles_increasing (g : Graph) : g.handles.Pairwise (· < ·) := by
  apply List.Pairwise.filter
  exact List.pairwise_map.mpr (List.pairwise_lt_range.imp fun h => Int.ofNat_lt.mpr h)

lemma mem_handles : n ∈ g.handles ↔ g.isLive n = true := by
  simp only [handles, List.mem_filter, List.mem_map, List.mem_range, and_iff_right_iff_imp]
  intro h
  obtain ⟨r, hr⟩ := isLive_iff.mp h
  obtain ⟨i, rfl, hi⟩ := node?_eq_some.mp hr
  exact ⟨i, (Array.getElem?_eq_some_iff.mp hi).1, rfl⟩

lemma mem_entries : (n, r) ∈ g.entries ↔ g.node? n = some r := by
  simp only [entries, List.mem_filterMap, mem_handles, Option.map_eq_some_iff, Prod.mk.injEq]
  constructor
  · rintro ⟨m, _, s, hs, rfl, rfl⟩
    exact hs
  · intro h
    exact ⟨n, isLive_of_node? h, r, h, rfl, rfl⟩

lemma mem_select {p : Node → Bool} :
    n ∈ g.select p ↔ ∃ r, g.node? n = some r ∧ p r = true := by
  simp only [select, List.mem_filter, mem_handles, Option.any_eq_true]
  constructor
  · rintro ⟨_, h⟩
    exact h
  · rintro ⟨r, hr, hp⟩
    exact ⟨isLive_of_node? hr, r, hr, hp⟩

lemma get_eq_ok : g.get n = .ok r ↔ g.node? n = some r := by
  unfold get
  cases g.node? n <;> simp

lemma get_of_node? (h : g.node? n = some r) : g.get n = .ok r := get_eq_ok.mpr h

lemma follow_of_node? (h : g.node? n = some r) : g.follow n = .ok r := by simp [follow, h]

section following

variable {p : Node → Bool} {ns : List NodeId}

/-- References to live elements lead to the first one with a property. -/
lemma followFirst_of_live (h : ∀ m ∈ ns, g.isLive m = true) :
    g.followFirst p ns = .ok (g.findIn ns p) := by
  induction ns with
  | nil => rfl
  | cons n ns ih =>
    obtain ⟨r, hr⟩ := isLive_iff.mp (h n (by simp))
    rw [followFirst, follow_of_node? hr]
    change (if p r = true then Except.ok (some n) else g.followFirst p ns) = _
    rw [ih fun m hm => h m (by simp [hm])]
    by_cases hp : p r = true <;> simp [findIn, hr, hp]

/-- What is found is what a search among the live elements finds. -/
lemma findIn_of_followFirst {o : Option NodeId} (h : g.followFirst p ns = .ok o) :
    g.findIn ns p = o := by
  induction ns with
  | nil => exact Except.ok.inj h
  | cons n ns ih =>
    cases hr : g.node? n with
    | none => simp [followFirst, follow, hr, bind, Except.bind] at h
    | some r =>
      rw [followFirst, follow_of_node? hr] at h
      change (if p r = true then Except.ok (some n) else g.followFirst p ns) = _ at h
      split_ifs at h with hp
      · obtain rfl := Except.ok.inj h
        simp [findIn, hr, hp]
      · rw [← ih h]
        simp [findIn, hr, hp]

/-- References to live elements lead to all of them with a property. -/
lemma followAll_of_live (h : ∀ m ∈ ns, g.isLive m = true) :
    g.followAll p ns = .ok (g.selectIn ns p) := by
  induction ns with
  | nil => rfl
  | cons n ns ih =>
    obtain ⟨r, hr⟩ := isLive_iff.mp (h n (by simp))
    rw [followAll, follow_of_node? hr, ih fun m hm => h m (by simp [hm])]
    change Except.ok (if p r = true then _ else _) = _
    by_cases hp : p r = true <;> simp [selectIn, hr, hp]

/-- What is found is what a selection among the live elements finds. -/
lemma selectIn_of_followAll {ms : List NodeId} (h : g.followAll p ns = .ok ms) :
    g.selectIn ns p = ms := by
  induction ns generalizing ms with
  | nil => exact Except.ok.inj h
  | cons n ns ih =>
    cases hr : g.node? n with
    | none => simp [followAll, follow, hr, bind, Except.bind] at h
    | some r =>
      rw [followAll, follow_of_node? hr] at h
      cases hrest : g.followAll p ns with
      | error f =>
        rw [hrest] at h
        exact nomatch h
      | ok rest =>
        rw [hrest] at h
        obtain rfl := Except.ok.inj h
        rw [← ih hrest]
        by_cases hp : p r = true <;> simp [selectIn, hr, hp]

end following

lemma get_of_none (h : g.node? n = none) : g.get n = .error (.unknownHandle n) := by
  simp [get, h]

end DeclGraph.Graph
