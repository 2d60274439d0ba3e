import DeclGraph.Proofs.Graph.Placement

/-! The elements that go with a deleted one are the least set that contains it and drags nothing
else along. -/

namespace DeclGraph

namespace Graph

variable {g : Graph} {n m : NodeId} {X : NodeId → Prop} {doomed : List NodeId}

/-- A set of elements that can be deleted without leaving anything behind that depends on them. -/
structure DragClosed (g : Graph) (X : NodeId → Prop) : Prop where
  part : ∀ p r c, X p → g.node? p = some r → c ∈ r.parts → X c
  whole : ∀ e r a, X e → g.node? e = some r → r.kind = .associationEnd →
    r.association = some a → X a
  generalization : ∀ e r c, g.node? e = some r → r.kind = .generalization →
    r.general = some c ∨ r.specific = some c → X c → X e
  dependency : ∀ e r, g.node? e = some r → r.kind.isDependency = true →
    (r.clients ≠ [] ∧ ∀ c ∈ r.clients, X c) ∨ (r.suppliers ≠ [] ∧ ∀ c ∈ r.suppliers, X c) → X e
  residence : ∀ e r c, g.node? e = some r → r.kind = .elementResidence →
    r.resident = some c ∨ r.container = some c → X c → X e
  typed : ∀ e r a c, g.node? e = some r → r.kind = .associationEnd → r.association = some a →
    r.type = some c → X c → X a

lemma allDoomed_iff {ns : List NodeId} :
    Node.allDoomed doomed ns = true ↔ ns ≠ [] ∧ ∀ c ∈ ns, c ∈ doomed := by
  simp [Node.allDoomed]

lemma isDoomed_iff {o : Option NodeId} :
    Node.isDoomed doomed o = true ↔ ∃ c, o = some c ∧ c ∈ doomed := by
  simp [Node.isDoomed, Option.any_eq_true]

lemma dangles_iff {r : Node} : r.dangles doomed = true ↔
    (r.kind = .generalization ∧ ∃ c, (r.general = some c ∨ r.specific = some c) ∧ c ∈ doomed) ∨
    (r.kind.isDependency = true ∧ ((r.clients ≠ [] ∧ ∀ c ∈ r.clients, c ∈ doomed) ∨
      (r.suppliers ≠ [] ∧ ∀ c ∈ r.suppliers, c ∈ doomed))) ∨
    (r.kind = .elementResidence ∧
      ∃ c, (r.resident = some c ∨ r.container = some c) ∧ c ∈ doomed) := by
  cases hk : r.kind <;>
    simp [Node.dangles, hk, NodeKind.isDependency, isDoomed_iff, allDoomed_iff, or_and_right,
      exists_or]

lemma associationLost_eq {r : Node} {a : NodeId} : associationLost r doomed = some a ↔
    r.kind = .associationEnd ∧ (∃ c, r.type = some c ∧ c ∈ doomed) ∧ r.association = some a := by
  by_cases hk : r.kind = .associationEnd <;> by_cases hd : Node.isDoomed doomed r.type = true <;>
    simp [associationLost, hk, hd, ← isDoomed_iff]

lemma mem_dependentParts {r : Node} {c : NodeId} : c ∈ r.dependentParts ↔
    c ∈ r.parts ∨ (r.kind = .associationEnd ∧ r.association = some c) := by
  unfold Node.dependentParts
  split_ifs with hk <;> simp [hk]

lemma mem_partsOf {c : NodeId} :
    c ∈ g.partsOf n ↔ ∃ r, g.node? n = some r ∧ c ∈ r.dependentParts := by
  cases hr : g.node? n <;> simp [partsOf, hr]

lemma mem_dependents : m ∈ g.dependents doomed ↔ ∃ e r, g.node? e = some r ∧ e ∉ doomed ∧
    ((r.dangles doomed = true ∧ m = e) ∨ associationLost r doomed = some m) := by
  simp only [dependents, List.mem_filterMap, List.mem_filter, decide_eq_true_eq, Prod.exists,
    mem_entries, and_assoc]
  refine exists_congr fun e => exists_congr fun r => and_congr_right fun _ =>
    and_congr_right fun _ => ?_
  by_cases hd : r.dangles doomed = true
  · -- An edge is no end of an association.
    have hl : associationLost r doomed = none := by
      unfold associationLost
      rw [if_neg]
      rintro h
      rw [Bool.and_eq_true, decide_eq_true_eq] at h
      rcases dangles_iff.mp hd with ⟨hk, _⟩ | ⟨hk, _⟩ | ⟨hk, _⟩ <;> rw [h.1] at hk <;>
        exact absurd hk (by decide)
    simp [hd, hl, eq_comm]
  · simp [hd]

/-- Some elements, each of them live and listed once. -/
structure Doomed (g : Graph) (doomed : List NodeId) : Prop where
  live : ∀ c ∈ doomed, g.isLive c = true
  nodup : doomed.Nodup

/-- Whatever is a part of one of some elements is among them. -/
def WithParts (g : Graph) (doomed : List NodeId) : Prop :=
  ∀ p ∈ doomed, ∀ c ∈ g.partsOf p, g.isLive c = true → c ∈ doomed

namespace Doomed

lemma subset_handles (h : g.Doomed doomed) : doomed ⊆ g.handles :=
  fun c hc => mem_handles.mpr (h.live c hc)

lemma length_le (h : g.Doomed doomed) : doomed.length ≤ g.size :=
  (h.nodup.subperm h.subset_handles).length_le

/-- As many elements as there are live ones are all of them. -/
lemma mem_of_size_le (h : g.Doomed doomed) (hs : g.size ≤ doomed.length)
    (hm : g.isLive m = true) : m ∈ doomed :=
  ((h.nodup.subperm h.subset_handles).perm_of_length_le hs).mem_iff.mpr (mem_handles.mpr hm)

lemma cons (h : g.Doomed doomed) (hn : g.isLive n = true) (hm : n ∉ doomed) :
    g.Doomed (n :: doomed) :=
  ⟨List.forall_mem_cons.mpr ⟨hn, h.live⟩, List.nodup_cons.mpr ⟨hm, h.nodup⟩⟩

end Doomed

section parts

variable {pending rest : List NodeId}

/-- What is passed over before the next pending element. -/
lemma passed_over (hrest : (pending.dropWhile fun n => n ∈ doomed || !g.isLive n) = rest)
    (hm : m ∈ pending) (hl : g.isLive m = true) : m ∈ doomed ∨ m ∈ rest := by
  have hsplit := List.takeWhile_append_dropWhile
    (p := fun n => decide (n ∈ doomed) || !g.isLive n) (l := pending)
  rw [← hsplit, List.mem_append, hrest] at hm
  refine hm.imp_left fun ht => ?_
  simpa [hl] using List.mem_takeWhile_imp ht

lemma next_pending
    (hrest : (pending.dropWhile fun n => n ∈ doomed || !g.isLive n) = n :: rest) :
    n ∈ pending ∧ n ∉ doomed ∧ g.isLive n = true := by
  have hsub : (n :: rest) ⊆ pending := hrest ▸ (List.dropWhile_sublist _).subset
  have hne : (pending.dropWhile fun n => n ∈ doomed || !g.isLive n) ≠ [] := by simp [hrest]
  have hhead := List.head_dropWhile_not (fun n => decide (n ∈ doomed) || !g.isLive n) hne
  simp only [hrest, List.head_cons, Bool.or_eq_false_iff, decide_eq_false_iff_not,
    Bool.not_eq_false'] at hhead
  exact ⟨hsub (by simp), hhead⟩

lemma doomParts_of_nil (steps : Nat)
    (hrest : (pending.dropWhile fun n => n ∈ doomed || !g.isLive n) = []) :
    g.doomParts steps pending doomed = doomed := by
  cases steps with
  | zero => rfl
  | succ steps => simp only [doomParts, hrest]

lemma doomParts_of_cons (steps : Nat)
    (hrest : (pending.dropWhile fun n => n ∈ doomed || !g.isLive n) = n :: rest) :
    g.doomParts (steps + 1) pending doomed =
      g.doomParts steps (g.partsOf n ++ rest) (n :: doomed) := by
  simp only [doomParts, hrest]

/-- What following parts from some pending elements leads to. -/
structure Followed (g : Graph) (pending doomed more : List NodeId) : Prop where
  each : g.Doomed more
  subset : doomed ⊆ more
  pending : ∀ c ∈ pending, g.isLive c = true → c ∈ more
  parts : g.WithParts more

/-- Following parts for as many steps as there are elements left. The parts of what is doomed are
doomed or pending all the time. -/
lemma doomParts_spec (pending : List NodeId) (steps : Nat) (h : g.Doomed doomed)
    (hparts : ∀ p ∈ doomed, ∀ c ∈ g.partsOf p, g.isLive c = true → c ∈ doomed ∨ c ∈ pending)
    (hs : g.size ≤ doomed.length + steps) :
    g.Followed pending doomed (g.doomParts steps pending doomed) := by
  induction steps generalizing pending doomed with
  | zero =>
    have hall : ∀ c, g.isLive c = true → c ∈ doomed := fun c hc => h.mem_of_size_le hs hc
    exact ⟨h, List.Subset.refl _, fun c _ => hall c, fun _ _ c _ => hall c⟩
  | succ steps ih =>
    cases hrest : pending.dropWhile fun n => n ∈ doomed || !g.isLive n with
    | nil =>
      rw [doomParts_of_nil _ hrest]
      have hdone : ∀ c ∈ pending, g.isLive c = true → c ∈ doomed := fun c hc hl =>
        (passed_over hrest hc hl).resolve_right (by simp)
      exact ⟨h, List.Subset.refl _, hdone,
        fun p hp c hc hl => (hparts p hp c hc hl).elim id fun hc => hdone c hc hl⟩
    | cons n rest =>
      rw [doomParts_of_cons _ hrest]
      obtain ⟨-, hnd, hn⟩ := next_pending hrest
      have hmore := ih (g.partsOf n ++ rest) (h.cons hn hnd) ?_
        (by simp only [List.length_cons]; omega)
      · refine ⟨hmore.each, fun c hc => hmore.subset (by simp [hc]), ?_, hmore.parts⟩
        intro c hc hl
        rcases passed_over hrest hc hl with hd | hr
        · exact hmore.subset (by simp [hd])
        · rcases List.mem_cons.mp hr with rfl | hr
          · exact hmore.subset (by simp)
          · exact hmore.pending c (by simp [hr]) hl
      · intro p hp c hc hl
        rcases List.mem_cons.mp hp with rfl | hp
        · exact Or.inr (List.mem_append_left _ hc)
        · rcases hparts p hp c hc hl with hd | hd
          · exact Or.inl (by simp [hd])
          · rcases passed_over hrest hd hl with hd | hr
            · exact Or.inl (by simp [hd])
            · rcases List.mem_cons.mp hr with rfl | hr
              · exact Or.inl (by simp)
              · exact Or.inr (by simp [hr])

/-- Further steps lead no further. -/
lemma doomParts_of_le {steps : Nat} (h : g.Doomed doomed)
    (hs : g.size ≤ doomed.length + steps) (more : Nat) :
    g.doomParts (steps + more) pending doomed = g.doomParts steps pending doomed := by
  induction steps generalizing pending doomed with
  | zero =>
    refine doomParts_of_nil _ (List.dropWhile_eq_nil_iff.mpr fun c _ => ?_)
    by_cases hl : g.isLive c = true
    · simp [h.mem_of_size_le hs hl]
    · simp [hl]
  | succ steps ih =>
    rw [Nat.add_right_comm]
    cases hrest : pending.dropWhile fun n => n ∈ doomed || !g.isLive n with
    | nil => rw [doomParts_of_nil _ hrest, doomParts_of_nil _ hrest]
    | cons n rest =>
      obtain ⟨-, hnd, hn⟩ := next_pending hrest
      rw [doomParts_of_cons _ hrest, doomParts_of_cons _ hrest]
      exact ih (h.cons hn hnd) (by simp only [List.length_cons]; omega)

lemma DragClosed.of_partsOf (hX : g.DragClosed X) (hn : X n) (h : m ∈ g.partsOf n) : X m := by
  obtain ⟨r, hr, hm⟩ := mem_partsOf.mp h
  rcases mem_dependentParts.mp hm with hc | ⟨hk, ha⟩
  · exact hX.part n r m hn hr hc
  · exact hX.whole n r m hn hr hk ha

lemma DragClosed.of_dependents (hX : g.DragClosed X) (hd : ∀ c ∈ doomed, X c)
    (h : m ∈ g.dependents doomed) : X m := by
  obtain ⟨e, r, hr, -, ⟨hm, rfl⟩ | hm⟩ := mem_dependents.mp h
  · rcases dangles_iff.mp hm with ⟨hk, c, hc, hcd⟩ | ⟨hk, hc⟩ | ⟨hk, c, hc, hcd⟩
    · exact hX.generalization m r c hr hk hc (hd c hcd)
    · refine hX.dependency m r hr hk (hc.imp ?_ ?_)
      · exact fun h => ⟨h.1, fun c hc => hd c (h.2 c hc)⟩
      · exact fun h => ⟨h.1, fun c hc => hd c (h.2 c hc)⟩
    · exact hX.residence m r c hr hk hc (hd c hcd)
  · obtain ⟨hk, ⟨c, hc, hcd⟩, ha⟩ := associationLost_eq.mp hm
    exact hX.typed e r m c hr hk ha hc (hd c hcd)

lemma mem_doomParts (hX : g.DragClosed X) (steps : Nat) (hp : ∀ c ∈ pending, X c)
    (hd : ∀ c ∈ doomed, X c) (h : m ∈ g.doomParts steps pending doomed) : X m := by
  induction steps generalizing pending doomed with
  | zero => exact hd m h
  | succ steps ih =>
    cases hrest : pending.dropWhile fun n => n ∈ doomed || !g.isLive n with
    | nil =>
      rw [doomParts_of_nil _ hrest] at h
      exact hd m h
    | cons n rest =>
      rw [doomParts_of_cons _ hrest] at h
      have hn : X n := hp n (next_pending hrest).1
      have hsub : (n :: rest) ⊆ pending := hrest ▸ (List.dropWhile_sublist _).subset
      refine ih ?_ (List.forall_mem_cons.mpr ⟨hn, hd⟩) h
      intro c hc
      rcases List.mem_append.mp hc with hc | hc
      · exact hX.of_partsOf hn hc
      · exact hp c (hsub (by simp [hc]))

end parts

section rounds

variable {pending : List NodeId} {steps rounds : Nat}

lemma doomFor_nil : g.doomFor steps rounds [] doomed = doomed := by
  cases rounds <;> rfl

lemma doomFor_cons : g.doomFor steps (rounds + 1) (n :: pending) doomed =
    g.doomFor steps rounds ((g.dependents (g.doomParts steps (n :: pending) doomed)).filter
      (· ∉ g.doomParts steps (n :: pending) doomed)) (g.doomParts steps (n :: pending) doomed) :=
  rfl

lemma mem_doomFor (hX : g.DragClosed X) (hp : ∀ c ∈ pending, X c) (hd : ∀ c ∈ doomed, X c)
    (h : m ∈ g.doomFor steps rounds pending doomed) : X m := by
  induction rounds generalizing pending doomed with
  | zero =>
    cases pending with
    | nil => exact hd m h
    | cons c pending => exact hd m h
  | succ rounds ih =>
    cases pending with
    | nil => exact hd m h
    | cons c pending =>
      have hmore : ∀ c' ∈ g.doomParts steps (c :: pending) doomed, X c' :=
        fun _ => mem_doomParts hX steps hp hd
      refine ih ?_ hmore h
      exact fun c' hc' => hX.of_dependents hmore (List.mem_filter.mp hc').1

/-- Every round keeps what was doomed and takes all parts along. -/
lemma doomFor_spec (h : g.Doomed doomed) (hparts : g.WithParts doomed) (hs : g.size ≤ steps) :
    g.Doomed (g.doomFor steps rounds pending doomed) ∧
      doomed ⊆ g.doomFor steps rounds pending doomed ∧
      g.WithParts (g.doomFor steps rounds pending doomed) := by
  induction rounds generalizing pending doomed with
  | zero => cases pending <;> exact ⟨h, List.Subset.refl _, hparts⟩
  | succ rounds ih =>
    cases pending with
    | nil => exact ⟨h, List.Subset.refl _, hparts⟩
    | cons c pending =>
      have hmore := doomParts_spec (c :: pending) steps h
        (fun p hp c hc hl => Or.inl (hparts p hp c hc hl)) (by omega)
      obtain ⟨h₁, h₂, h₃⟩ := ih hmore.each hmore.parts
      exact ⟨h₁, List.Subset.trans hmore.subset h₂, h₃⟩

lemma mem_doomFor_of_pending (h : g.Doomed doomed) (hparts : g.WithParts doomed)
    (hs : g.size ≤ steps) (hm : m ∈ pending) (hl : g.isLive m = true) :
    m ∈ g.doomFor steps (rounds + 1) pending doomed := by
  cases pending with
  | nil => exact absurd hm (by simp)
  | cons c pending =>
    have hmore := doomParts_spec (c :: pending) steps h
      (fun p hp c hc hl => Or.inl (hparts p hp c hc hl)) (by omega)
    exact (doomFor_spec hmore.each hmore.parts hs).2.1 (hmore.pending m hm hl)

end rounds

section fixpoint

lemma doomed_nil : g.Doomed [] := ⟨by simp, List.nodup_nil⟩

lemma withParts_nil : g.WithParts [] := by simp [WithParts]

lemma self_mem_doomedWith (hn : g.isLive n = true) : n ∈ g.doomedWith n := by
  have hpos : g.size ≠ 0 := (List.length_pos_of_mem (mem_handles.mpr hn)).ne'
  obtain ⟨rounds, hr⟩ := Nat.exists_eq_add_one_of_ne_zero hpos
  unfold doomedWith
  rw [hr]
  exact mem_doomFor_of_pending doomed_nil withParts_nil hr.le (by simp) hn

lemma doomedWith_live (hm : m ∈ g.doomedWith n) : g.isLive m = true :=
  (doomFor_spec doomed_nil withParts_nil le_rfl).1.live m hm

/-- The parts of doomed elements are doomed as far as they are live. -/
lemma withParts_doomedWith : g.WithParts (g.doomedWith n) :=
  (doomFor_spec doomed_nil withParts_nil le_rfl).2.2

/-- The doomed elements lie in every closed set with the deleted one. -/
lemma doomedWith_subset (hX : g.DragClosed X) (hn : X n) (h : m ∈ g.doomedWith n) : X m :=
  mem_doomFor hX (by simpa using hn) (by simp) h

variable {pending : List NodeId} {steps rounds : Nat} (hg : g.Intact)
include hg

lemma Intact.dependents_live (hm : m ∈ g.dependents doomed) : g.isLive m = true := by
  obtain ⟨e, r, hr, -, ⟨-, rfl⟩ | hm⟩ := mem_dependents.mp hm
  · exact isLive_of_node? hr
  · exact hg hr m (by simp [Node.references, Node.links, (associationLost_eq.mp hm).2.2])

/-- Every round dooms what was pending, so it dooms one element more at least. -/
lemma Intact.round (hs : g.size ≤ steps) (h : g.Doomed doomed) (hparts : g.WithParts doomed)
    (hp : ∀ c ∈ n :: pending, g.isLive c = true ∧ c ∉ doomed) :
    g.Doomed (g.doomParts steps (n :: pending) doomed) ∧
      g.WithParts (g.doomParts steps (n :: pending) doomed) ∧
      doomed.length < (g.doomParts steps (n :: pending) doomed).length ∧
      ∀ c ∈ (g.dependents (g.doomParts steps (n :: pending) doomed)).filter
        (· ∉ g.doomParts steps (n :: pending) doomed),
          g.isLive c = true ∧ c ∉ g.doomParts steps (n :: pending) doomed := by
  have hmore := doomParts_spec (n :: pending) steps h
    (fun p hp c hc hl => Or.inl (hparts p hp c hc hl)) (by omega)
  obtain ⟨hl, hnd⟩ := hp n (by simp)
  refine ⟨hmore.each, hmore.parts, ?_, ?_⟩
  · have hsub : (n :: doomed) ⊆ g.doomParts steps (n :: pending) doomed :=
      List.cons_subset.mpr ⟨hmore.pending n (by simp) hl, hmore.subset⟩
    exact ((h.cons hl hnd).nodup.subperm hsub).length_le
  · intro c hc
    obtain ⟨hc, hcd⟩ := List.mem_filter.mp hc
    exact ⟨hg.dependents_live hc, by simpa using hcd⟩

/-- When the rounds are over, nothing more depends on what is doomed. -/
lemma Intact.doomFor_dependents (hs : g.size ≤ steps) (hr : g.size ≤ doomed.length + rounds)
    (h : g.Doomed doomed) (hparts : g.WithParts doomed)
    (hp : ∀ c ∈ pending, g.isLive c = true ∧ c ∉ doomed)
    (hend : pending = [] → g.dependents doomed ⊆ doomed) :
    g.dependents (g.doomFor steps rounds pending doomed) ⊆
      g.doomFor steps rounds pending doomed := by
  induction rounds generalizing pending doomed with
  | zero =>
    cases pending with
    | nil => exact hend rfl
    | cons c pending =>
      obtain ⟨hl, hc⟩ := hp c (by simp)
      exact absurd (h.mem_of_size_le hr hl) hc
  | succ rounds ih =>
    cases pending with
    | nil => exact hend rfl
    | cons c pending =>
      obtain ⟨hd, hparts', hlen, hnext⟩ := hg.round hs h hparts hp
      refine ih (by omega) hd hparts' hnext fun hnil c hc => ?_
      by_contra hcd
      exact List.filter_eq_nil_iff.mp hnil c hc (by simpa using hcd)

/-- Further rounds, of more steps, change nothing. -/
lemma Intact.doomFor_of_le (hs : g.size ≤ steps) (hr : g.size ≤ doomed.length + rounds)
    (h : g.Doomed doomed) (hparts : g.WithParts doomed)
    (hp : ∀ c ∈ pending, g.isLive c = true ∧ c ∉ doomed) (steps' rounds' : Nat) :
    g.doomFor (steps + steps') (rounds + rounds') pending doomed =
      g.doomFor steps rounds pending doomed := by
  induction rounds generalizing pending doomed with
  | zero =>
    cases pending with
    | nil => rw [doomFor_nil, doomFor_nil]
    | cons c pending =>
      obtain ⟨hl, hc⟩ := hp c (by simp)
      exact absurd (h.mem_of_size_le hr hl) hc
  | succ rounds ih =>
    cases pending with
    | nil => rw [doomFor_nil, doomFor_nil]
    | cons c pending =>
      obtain ⟨hd, hparts', hlen, hnext⟩ := hg.round hs h hparts hp
      rw [Nat.add_right_comm, doomFor_cons, doomFor_cons, doomParts_of_le h (by omega)]
      exact ih (by omega) hd hparts' hnext

lemma Intact.dependents_doomedWith (hn : g.isLive n = true) :
    g.dependents (g.doomedWith n) ⊆ g.doomedWith n :=
  hg.doomFor_dependents le_rfl (by simp) doomed_nil withParts_nil (by simpa using hn) (by simp)

/-- The doomed elements are closed themselves. -/
lemma Intact.doomedWith_closed (hn : g.isLive n = true) :
    g.DragClosed (· ∈ g.doomedWith n) where
  part p r c hp hr hc := by
    refine withParts_doomedWith p hp c ?_ (hg hr c (List.mem_append_right _ hc))
    exact mem_partsOf.mpr ⟨r, hr, mem_dependentParts.mpr (Or.inl hc)⟩
  whole e r a he hr hk ha := by
    refine withParts_doomedWith e he a ?_ (hg hr a (by simp [Node.references, Node.links, ha]))
    exact mem_partsOf.mpr ⟨r, hr, mem_dependentParts.mpr (Or.inr ⟨hk, ha⟩)⟩
  generalization e r c hr hk hc hcd := by
    by_contra he
    refine he (hg.dependents_doomedWith hn (mem_dependents.mpr ⟨e, r, hr, he, Or.inl ⟨?_, rfl⟩⟩))
    exact dangles_iff.mpr (Or.inl ⟨hk, c, hc, hcd⟩)
  dependency e r hr hk hc := by
    by_contra he
    refine he (hg.dependents_doomedWith hn (mem_dependents.mpr ⟨e, r, hr, he, Or.inl ⟨?_, rfl⟩⟩))
    exact dangles_iff.mpr (Or.inr (Or.inl ⟨hk, hc⟩))
  residence e r c hr hk hc hcd := by
    by_contra he
    refine he (hg.dependents_doomedWith hn (mem_dependents.mpr ⟨e, r, hr, he, Or.inl ⟨?_, rfl⟩⟩))
    exact dangles_iff.mpr (Or.inr (Or.inr ⟨hk, c, hc, hcd⟩))
  typed e r a c hr hk ha hc hcd := by
    have hra := hg hr a (by simp [Node.references, Node.links, ha])
    by_cases he : e ∈ g.doomedWith n
    · refine withParts_doomedWith e he a ?_ hra
      exact mem_partsOf.mpr ⟨r, hr, mem_dependentParts.mpr (Or.inr ⟨hk, ha⟩)⟩
    · refine hg.dependents_doomedWith hn (mem_dependents.mpr ⟨e, r, hr, he, Or.inr ?_⟩)
      exact associationLost_eq.mpr ⟨hk, ⟨c, hc, hcd⟩, ha⟩

omit hg in
lemma doomedWith_closed (hn : g.isLive n = true) (h : g.Linked) :
    g.DragClosed (· ∈ g.doomedWith n) :=
  Intact.doomedWith_closed h.intact hn

end fixpoint

end Graph

namespace GraphM

variable {g : Graph} {n : NodeId}

lemma delete_ok (hn : g.isLive n = true) : delete n g = .ok () (g.remove (g.doomedWith n)) := by
  obtain ⟨r, hr⟩ := Graph.isLive_iff.mp hn
  unfold delete
  rw [bind_run (get_ok hr)]
  rfl

lemma delete_unknown (hn : ¬g.isLive n = true) : delete n g = .error (.unknownHandle n) g := by
  unfold delete
  exact bind_failed (by rw [get_run, Graph.node?_of_not_isLive hn])

end GraphM

end DeclGraph
