import DeclGraph.Proofs.Graph.Mutation
import DeclGraph.Proofs.Import.Performance

/-! The order of deletions makes no difference. Whatever the order, what stays is what lies outside
of the least set that contains all that is deleted and drags nothing else along. -/

namespace DeclGraph

open DeclGraph.Graph

namespace Node

lemma forget_nil (r : Node) : r.forget [] = r := by
  have htype : r.type.filter (fun _ => true) = r.type := by
    cases r.type <;> rfl
  simp only [forget, List.not_mem_nil, not_false_eq_true, decide_true, List.filter_true, htype]

lemma forget_forget (r : Node) (gone more : List NodeId) :
    (r.forget gone).forget more = r.forget (gone ++ more) := by
  have hkeep : ∀ ns : List NodeId, (ns.filter (· ∉ gone)).filter (· ∉ more) =
      ns.filter (· ∉ gone ++ more) := by
    intro ns
    rw [List.filter_filter]
    exact List.filter_congr fun c _ => by simp [Bool.and_comm]
  have htype : (r.type.filter (· ∉ gone)).filter (· ∉ more) = r.type.filter (· ∉ gone ++ more) := by
    rw [Option.filter_filter]
    congr 1
    funext c
    simp
  simp only [forget, hkeep, htype]

end Node

namespace Graph

variable {g g' g₁ g₂ : Graph} {m n : NodeId} {X Y : NodeId → Prop} {gone more : List NodeId}

section records

/-- A graph is its records, with the number of handles given out and the profile. -/
lemma eq_of_node? (hs : g.next = g'.next) (hp : g.profile = g'.profile)
    (h : ∀ m, g.node? m = g'.node? m) : g = g' := by
  obtain ⟨slots, profile⟩ := g
  obtain ⟨slots', profile'⟩ := g'
  obtain rfl : profile = profile' := hp
  congr 1
  refine Array.ext (Int.ofNat.inj hs) fun i hi hi' => ?_
  simpa [node?, hi, hi'] using h i

lemma remove_nil (g : Graph) : g.remove [] = g := by
  refine eq_of_node? (next_remove _) rfl fun m => ?_
  rw [node?_remove, if_neg (List.not_mem_nil)]
  simp [Node.forget_nil]

lemma remove_remove (g : Graph) (gone more : List NodeId) :
    (g.remove gone).remove more = g.remove (gone ++ more) := by
  refine eq_of_node? (by simp) rfl fun m => ?_
  have hforget : (·.forget more) ∘ (·.forget gone) = (·.forget (gone ++ more) : Node → Node) :=
    funext fun r => Node.forget_forget r gone more
  simp only [node?_remove, List.mem_append]
  by_cases hg : m ∈ gone <;> by_cases hm : m ∈ more <;> simp [hg, hm, hforget]

/-- What is removed counts as a set. -/
lemma remove_congr (h : ∀ m, m ∈ gone ↔ m ∈ more) : g.remove gone = g.remove more := by
  simp only [remove, Node.forget, h]

end records

/-- What cannot stay when the elements of a set go. -/
def Dragged (g : Graph) (X : NodeId → Prop) (m : NodeId) : Prop :=
  ∀ Y : NodeId → Prop, g.DragClosed Y → (∀ x, X x → Y x) → Y m

section closures

lemma dragged_of (h : X m) : g.Dragged X m := fun _ _ hX => hX m h

lemma Dragged.mono (h : g.Dragged X m) (hXY : ∀ x, X x → g.Dragged Y x) : g.Dragged Y m :=
  fun Z hZ hY => h Z hZ fun x hx => hXY x hx Z hZ hY

lemma dragged_closed (g : Graph) (X : NodeId → Prop) : g.DragClosed (g.Dragged X) where
  part p r c hp hr hc Y hY hX := hY.part p r c (hp Y hY hX) hr hc
  whole e r a he hr hk ha Y hY hX := hY.whole e r a (he Y hY hX) hr hk ha
  generalization e r c hr hk hc hcd Y hY hX := hY.generalization e r c hr hk hc (hcd Y hY hX)
  dependency e r hr hk hc Y hY hX := hY.dependency e r hr hk <|
    hc.imp (And.imp_right fun h c hc => h c hc Y hY hX) (And.imp_right fun h c hc => h c hc Y hY hX)
  residence e r c hr hk hc hcd Y hY hX := hY.residence e r c hr hk hc (hcd Y hY hX)
  typed e r a c hr hk ha hc hcd Y hY hX := hY.typed e r a c hr hk ha hc (hcd Y hY hX)

lemma mem_parts_forget {r : Node} {c : NodeId} :
    c ∈ (r.forget gone).parts ↔ c ∈ r.parts ∧ c ∉ gone := by
  simp only [Node.mem_parts, Node.children_forget, List.mem_filter, decide_eq_true_eq,
    exists_and_right]

/-- A closed set stays closed when some of its elements go. -/
lemma DragClosed.remove (hX : g.DragClosed X) (hgone : ∀ c ∈ gone, X c) :
    (g.remove gone).DragClosed X := by
  have back : ∀ {e y}, (g.remove gone).node? e = some y → ∃ r, g.node? e = some r ∧
      r.forget gone = y := fun h => (node?_remove_eq_some.mp h).2
  -- An endpoint that went is in the set anyway.
  have hall : ∀ ns : List NodeId, (ns.filter (· ∉ gone) ≠ [] ∧ ∀ c ∈ ns.filter (· ∉ gone), X c) →
      ns ≠ [] ∧ ∀ c ∈ ns, X c := by
    rintro ns ⟨hne, h⟩
    refine ⟨fun hnil => hne (by simp [hnil]), fun c hc => ?_⟩
    by_cases hd : c ∈ gone
    · exact hgone c hd
    · exact h c (List.mem_filter.mpr ⟨hc, by simpa using hd⟩)
  constructor
  · intro p y c hp hy hc
    obtain ⟨r, hr, rfl⟩ := back hy
    exact hX.part p r c hp hr (mem_parts_forget.mp hc).1
  · intro e y a he hy hk ha
    obtain ⟨r, hr, rfl⟩ := back hy
    exact hX.whole e r a he hr hk ha
  · intro e y c hy hk hc hcd
    obtain ⟨r, hr, rfl⟩ := back hy
    exact hX.generalization e r c hr hk hc hcd
  · intro e y hy hk hc
    obtain ⟨r, hr, rfl⟩ := back hy
    exact hX.dependency e r hr hk (hc.imp (hall _) (hall _))
  · intro e y c hy hk hc hcd
    obtain ⟨r, hr, rfl⟩ := back hy
    exact hX.residence e r c hr hk hc hcd
  · intro e y a c hy hk ha hc hcd
    obtain ⟨r, hr, rfl⟩ := back hy
    exact hX.typed e r a c hr hk ha (Option.filter_eq_some_iff.mp hc).1 hcd

/-- What goes first and what goes with the rest are a closed set together. -/
lemma DragClosed.union (hd : g.DragClosed (· ∈ gone)) (hX : (g.remove gone).DragClosed X) :
    g.DragClosed fun m => m ∈ gone ∨ X m := by
  have left : ∀ {e r}, e ∉ gone → g.node? e = some r →
      (g.remove gone).node? e = some (r.forget gone) :=
    fun he hr => node?_remove_eq_some.mpr ⟨he, _, hr, rfl⟩
  -- Either all endpoints went first, or those that were left go with the rest.
  have hall : ∀ ns : List NodeId, (ns ≠ [] ∧ ∀ c ∈ ns, c ∈ gone ∨ X c) →
      (ns ≠ [] ∧ ∀ c ∈ ns, c ∈ gone) ∨
        (ns.filter (· ∉ gone) ≠ [] ∧ ∀ c ∈ ns.filter (· ∉ gone), X c) := by
    rintro ns ⟨hne, h⟩
    by_cases hnil : ns.filter (· ∉ gone) = []
    · exact Or.inl ⟨hne, fun c hc => by simpa using List.filter_eq_nil_iff.mp hnil c hc⟩
    · refine Or.inr ⟨hnil, fun c hc => ?_⟩
      obtain ⟨hc, hcd⟩ := List.mem_filter.mp hc
      exact (h c hc).resolve_left (by simpa using hcd)
  constructor
  · rintro p r c hp hr hc
    by_cases hpd : p ∈ gone
    · exact Or.inl (hd.part p r c hpd hr hc)
    by_cases hcd : c ∈ gone
    · exact Or.inl hcd
    · exact Or.inr (hX.part p _ c (hp.resolve_left hpd) (left hpd hr) (mem_parts_forget.mpr ⟨hc, hcd⟩))
  · rintro e r a he hr hk ha
    by_cases hed : e ∈ gone
    · exact Or.inl (hd.whole e r a hed hr hk ha)
    · exact Or.inr (hX.whole e _ a (he.resolve_left hed) (left hed hr) hk ha)
  · rintro e r c hr hk hc hcd
    by_cases hed : e ∈ gone
    · exact Or.inl hed
    · exact hcd.imp (hd.generalization e r c hr hk hc) (hX.generalization e _ c (left hed hr) hk hc)
  · rintro e r hr hk hc
    by_cases hed : e ∈ gone
    · exact Or.inl hed
    have hsplit := hc.imp (hall _) (hall _)
    rcases hsplit with (hc | hc) | (hc | hc)
    · exact Or.inl (hd.dependency e r hr hk (Or.inl hc))
    · exact Or.inr (hX.dependency e _ (left hed hr) hk (Or.inl hc))
    · exact Or.inl (hd.dependency e r hr hk (Or.inr hc))
    · exact Or.inr (hX.dependency e _ (left hed hr) hk (Or.inr hc))
  · rintro e r c hr hk hc hcd
    by_cases hed : e ∈ gone
    · exact Or.inl hed
    · exact hcd.imp (hd.residence e r c hr hk hc) (hX.residence e _ c (left hed hr) hk hc)
  · rintro e r a c hr hk ha hc hcd
    by_cases hed : e ∈ gone
    · exact Or.inl (hd.whole e r a hed hr hk ha)
    by_cases hcg : c ∈ gone
    · exact Or.inl (hd.typed e r a c hr hk ha hc hcg)
    · refine Or.inr (hX.typed e _ a c (left hed hr) hk ha ?_ (hcd.resolve_left hcg))
      exact Option.filter_eq_some_iff.mpr ⟨hc, by simpa using hcg⟩

/-- Closures compose: what two sets drag along is what the first one does, and then what the second
one drags along of the rest. -/
lemma dragged_union (hgone : ∀ m, m ∈ gone ↔ g.Dragged X m) :
    g.Dragged (fun x => X x ∨ Y x) m ↔ m ∈ gone ∨ (g.remove gone).Dragged Y m := by
  constructor
  · intro h
    have hd : g.DragClosed (· ∈ gone) := (funext fun m => propext (hgone m)) ▸ dragged_closed g X
    refine h _ (hd.union (dragged_closed _ Y)) fun x hx => ?_
    exact hx.imp (fun hx => (hgone x).mpr (dragged_of hx)) dragged_of
  · have hfirst : ∀ c ∈ gone, g.Dragged (fun x => X x ∨ Y x) c := fun c hc =>
      ((hgone c).mp hc).mono fun x hx => dragged_of (Or.inl hx)
    rintro (h | h)
    · exact hfirst m h
    · exact h _ ((dragged_closed g _).remove hfirst) fun x hx => dragged_of (Or.inr hx)

lemma Intact.mem_doomedWith (hg : g.Intact) (hn : g.isLive n = true) :
    m ∈ g.doomedWith n ↔ g.Dragged (· = n) m := by
  constructor
  · exact fun h Y hY hX => doomedWith_subset hY (hX n rfl) h
  · refine fun h => h _ (hg.doomedWith_closed hn) ?_
    rintro _ rfl
    exact self_mem_doomedWith hn

end closures

/-- `g'` is what a graph is without the elements of a set and all that goes with them. -/
def Swept (g : Graph) (X : NodeId → Prop) (g' : Graph) : Prop :=
  ∃ gone : List NodeId, (∀ m, m ∈ gone ↔ g.Dragged X m) ∧ g' = g.remove gone

namespace Swept

/-- The set determines what is left, record by record. -/
lemma unique (h₁ : g.Swept X g₁) (h₂ : g.Swept X g₂) : g₁ = g₂ := by
  obtain ⟨gone₁, hgone₁, rfl⟩ := h₁
  obtain ⟨gone₂, hgone₂, rfl⟩ := h₂
  exact remove_congr fun m => (hgone₁ m).trans (hgone₂ m).symm

/-- Elements that go anyway can be counted in or left out. -/
lemma congr (h : g.Swept X g') (hXY : ∀ x, X x → g.Dragged Y x) (hYX : ∀ y, Y y → g.Dragged X y) :
    g.Swept Y g' := by
  obtain ⟨gone, hgone, rfl⟩ := h
  exact ⟨gone, fun m => (hgone m).trans ⟨(·.mono hXY), (·.mono hYX)⟩, rfl⟩

lemma none (hX : ∀ x, ¬X x) : g.Swept X g := by
  have hempty : g.DragClosed fun _ => False := by
    constructor <;> simp +contextual [List.eq_nil_iff_forall_not_mem]
  refine ⟨[], fun m => ?_, (remove_nil g).symm⟩
  simp only [List.not_mem_nil, false_iff]
  exact fun h => h _ hempty hX

lemma trans (h₁ : g.Swept X g₁) (h₂ : g₁.Swept Y g₂) : g.Swept (fun x => X x ∨ Y x) g₂ := by
  obtain ⟨gone, hgone, rfl⟩ := h₁
  obtain ⟨more, hmore, rfl⟩ := h₂
  refine ⟨gone ++ more, fun m => ?_, remove_remove g gone more⟩
  rw [List.mem_append, hmore, dragged_union hgone]

lemma isLive (h : g.Swept X g') : g'.isLive m = true ↔ g.isLive m = true ∧ ¬g.Dragged X m := by
  obtain ⟨gone, hgone, rfl⟩ := h
  rw [isLive_remove, hgone]

lemma coherent (h : g.Swept X g') (hg : g.Coherent) : g'.Coherent := by
  obtain ⟨gone, hgone, rfl⟩ := h
  exact hg.remove ((funext fun m => propext (hgone m)) ▸ dragged_closed g X)

end Swept

lemma Coherent.swept (hg : g.Coherent) (hn : g.isLive n = true) :
    g.Swept (· = n) (g.remove (g.doomedWith n)) :=
  ⟨_, fun _ => Intact.mem_doomedWith hg.intact hn, rfl⟩

end Graph

/-- After one of two elements is deleted, the other one is deleted unless it went along. -/
lemma GraphM.delete_next {g g₁ : Graph} {a b : NodeId} (hg : g.Coherent) (hb : g.isLive b = true)
    (h₁ : g.Swept (· = a) g₁) : ∃ g₂,
      (if g₁.isLive b then delete b g₁ else .ok () g₁) = .ok () g₂ ∧
        g.Swept (fun x => x = a ∨ x = b) g₂ := by
  split_ifs with hlive
  · exact ⟨_, delete_ok hlive, h₁.trans ((h₁.coherent hg).swept hlive)⟩
  · have hgone : g.Dragged (· = a) b := by
      by_contra h
      exact hlive (h₁.isLive.mpr ⟨hb, h⟩)
    refine ⟨_, rfl, h₁.congr (fun x hx => dragged_of (Or.inl hx)) ?_⟩
    rintro x (rfl | rfl)
    exacts [dragged_of rfl, hgone]

namespace ImportM

variable {s : UnitState} {n : NodeId}

/-- Evicting an element deletes it if it is there. -/
lemma evict_swept (hs : s.graph.Coherent) : ∃ t, evict n s = .ok () t ∧
    s.graph.Swept (fun m => m = n ∧ s.graph.isLive m = true) t.graph := by
  unfold evict
  rw [bind_run (show (get : ImportM UnitState) s = .ok s s from rfl)]
  cases hr : s.graph.node? n with
  | none =>
    refine ⟨s, rfl, .none ?_⟩
    rintro _ ⟨rfl, hlive⟩
    simp [isLive, hr] at hlive
  | some r =>
    have hlive := isLive_of_node? hr
    have hrun : change (.delete n)
        { s with log := .staleRemoved r.kind.label (r.name.getD "") :: s.log } = .ok () _ :=
      change_ok (GraphM.delete_ok hlive)
    refine ⟨_, (bind_run rfl).trans ((bind_run hrun).trans rfl), ?_⟩
    refine (hs.swept hlive).congr ?_ fun x hx => dragged_of hx.1
    rintro _ rfl
    exact dragged_of ⟨rfl, hlive⟩

/-- Evicting elements one after the other leaves what is not dragged along by all of them. -/
lemma evictAll_swept (hs : s.graph.Coherent) (ns : List NodeId) :
    ∃ t, (ns.forM evict : ImportM PUnit) s = .ok ⟨⟩ t ∧
      s.graph.Swept (fun m => m ∈ ns ∧ s.graph.isLive m = true) t.graph := by
  induction ns generalizing s with
  | nil => exact ⟨s, rfl, .none (by simp)⟩
  | cons n ns ih =>
    obtain ⟨t₁, hrun₁, h₁⟩ := evict_swept (n := n) hs
    obtain ⟨t₂, hrun₂, h₂⟩ := ih (h₁.coherent hs)
    refine ⟨t₂, (bind_run hrun₁).trans hrun₂, (h₁.trans h₂).congr ?_ ?_⟩
    · rintro x (⟨rfl, hx⟩ | ⟨hx, hlive⟩)
      · exact dragged_of ⟨by simp, hx⟩
      · exact dragged_of ⟨by simp [hx], (h₁.isLive.mp hlive).1⟩
    · rintro x ⟨hx, hlive⟩
      rcases List.mem_cons.mp hx with rfl | hx
      · exact dragged_of (Or.inl ⟨rfl, hlive⟩)
      · -- What is not there any more went along with the first one.
        by_cases hgone : s.graph.Dragged (fun m => m = n ∧ s.graph.isLive m = true) x
        · exact hgone.mono fun y hy => dragged_of (Or.inl hy)
        · exact dragged_of (Or.inr ⟨hx, h₁.isLive.mpr ⟨hlive, hgone⟩⟩)

/-- Leaving a classifier sweeps its stale members. -/
lemma popClassifier_swept (hs : s.graph.Coherent) (u : UnitContext) {scope : Scope}
    {scopes : ScopeStack} (hpop : s.scopes.pop = .ok (scope, scopes)) :
    s.graph.Swept (fun m => m ∈ staleMembers u.pass scope ∧ s.graph.isLive m = true)
      (finalState (popClassifier u s)).graph := by
  obtain ⟨t, hrun, ht⟩ := evictAll_swept (s := { s with scopes }) hs (staleMembers u.pass scope)
  have hplaced : placed s.scopes.pop s = .ok (scope, scopes) s := by
    rw [hpop]
    rfl
  have hend : finalState (popClassifier u s) = t := by
    unfold popClassifier
    refine (congrArg finalState ((bind_run rfl).trans ((bind_run hplaced).trans
      ((bind_run rfl).trans (bind_run hrun))))).trans ?_
    cases scope.frame.classifier <;> rfl
  rw [hend]
  exact ht

end ImportM

open ImportM

/-- Deletions commute. Of two elements, either one can be deleted first, and then the other one
unless it went along: the graphs that are left are the same, record by record. So it makes no
difference in which order elements are evicted, in particular the stale members of a classifier
that is left. -/
theorem deletions_commute {g : Graph} (hg : g.Coherent) :
    (∀ a b, g.isLive a = true → g.isLive b = true → ∃ ga gb g',
      GraphM.delete a g = .ok () ga ∧ GraphM.delete b g = .ok () gb ∧
      (if ga.isLive b then GraphM.delete b ga else .ok () ga) = .ok () g' ∧
      (if gb.isLive a then GraphM.delete a gb else .ok () gb) = .ok () g') ∧
    ∀ s : UnitState, s.graph = g →
      (∀ ns ms : List NodeId, (∀ m, m ∈ ns ↔ m ∈ ms) → ∃ t t',
        (ns.forM evict : ImportM PUnit) s = .ok ⟨⟩ t ∧
        (ms.forM evict : ImportM PUnit) s = .ok ⟨⟩ t' ∧ t.graph = t'.graph) ∧
      ∀ (u : UnitContext) scope scopes (ns : List NodeId), s.scopes.pop = .ok (scope, scopes) →
        (∀ m, m ∈ ns ↔ m ∈ staleMembers u.pass scope) → ∃ t,
          (ns.forM evict : ImportM PUnit) s = .ok ⟨⟩ t ∧
          (finalState (popClassifier u s)).graph = t.graph := by
  refine ⟨fun a b ha hb => ?_, ?_⟩
  · obtain ⟨g', hrun, hab⟩ := GraphM.delete_next hg hb (hg.swept ha)
    obtain ⟨g'', hrun', hba⟩ := GraphM.delete_next hg ha (hg.swept hb)
    simp only [or_comm] at hba
    obtain rfl : g' = g'' := hab.unique hba
    exact ⟨_, _, g', GraphM.delete_ok ha, GraphM.delete_ok hb, hrun, hrun'⟩
  · rintro s rfl
    refine ⟨fun ns ms h => ?_, fun u scope scopes ns hpop h => ?_⟩
    · obtain ⟨t, hrun, ht⟩ := evictAll_swept hg ns
      obtain ⟨t', hrun', ht'⟩ := evictAll_swept hg ms
      simp only [h] at ht
      exact ⟨t, t', hrun, hrun', ht.unique ht'⟩
    · obtain ⟨t, hrun, ht⟩ := evictAll_swept hg ns
      simp only [h] at ht
      exact ⟨t, hrun, (popClassifier_swept hg u hpop).unique ht⟩

/-- A dependency of two classes on a third goes with the last of the two, whichever that is. -/
theorem deletions_commute_of_shared_dependency :
    let calls : List Mutation := [.create .classType (some "A") (some root),
      .create .classType (some "B") (some root), .create .classType (some "C") (some root),
      .buildDependency 4 6 .dependency none]
    let g := (Mutation.applyAll calls (.new "m" ⟨"p", ["long"], []⟩)).modify 7
      ({ · with clients := [4, 5] })
    g.Coherent ∧ g.isLive 4 = true ∧ g.isLive 5 = true ∧ ∃ ga gb g',
      GraphM.delete 4 g = .ok () ga ∧ ga.handles = [1, 2, 3, 5, 6, 7] ∧
      GraphM.delete 5 g = .ok () gb ∧ gb.handles = [1, 2, 3, 4, 6, 7] ∧
      GraphM.delete 5 ga = .ok () g' ∧ GraphM.delete 4 gb = .ok () g' ∧
      g'.handles = [1, 2, 3, 6] := by
  intro calls g
  have ha : Mutation.Admissible (.new "m" ⟨"p", ["long"], []⟩) calls := by decide +kernel
  have hnode : (Mutation.applyAll calls (.new "m" ⟨"p", ["long"], []⟩)).node? 7 =
      some { kind := .dependency, owner := some root, clients := [4], suppliers := [6] } := by
    decide +kernel
  have hb : (Mutation.applyAll calls (.new "m" ⟨"p", ["long"], []⟩)).isLive 5 = true := by
    decide +kernel
  have hg : g.Coherent := by
    have h := (Mutation.grown_applyAll (coherent_new _ _) calls ha).coherent
    refine h.modify hnode ⟨rfl, rfl, fun s => by cases s <;> rfl⟩ ⟨by simp, by simp, by simp⟩ ?_
      (by simp)
    intro x hx
    simp only [Node.links, Option.toList, List.append_nil, List.mem_append,
      List.mem_cons, List.not_mem_nil, or_false] at hx ⊢
    rcases hx with (rfl | rfl | rfl) | rfl
    exacts [by simp, by simp, Or.inr hb, by simp]
  have h4 : g.isLive 4 = true := by decide +kernel
  have h5 : g.isLive 5 = true := by decide +kernel
  have hfirst : (finalState (GraphM.delete 4 g)).handles = [1, 2, 3, 5, 6, 7] := by decide +kernel
  have hother : (finalState (GraphM.delete 5 g)).handles = [1, 2, 3, 4, 6, 7] := by decide +kernel
  have hlast : (finalState (GraphM.delete 5 (finalState (GraphM.delete 4 g)))).handles =
      [1, 2, 3, 6] := by decide +kernel
  clear_value g
  obtain ⟨ga, gb, g', hga, hgb, hg', hg''⟩ := (deletions_commute hg).1 4 5 h4 h5
  rw [hga] at hfirst hlast
  rw [hgb] at hother
  rw [if_pos (mem_handles.mp (by rw [show ga.handles = _ from hfirst]; decide))] at hg'
  rw [if_pos (mem_handles.mp (by rw [show gb.handles = _ from hother]; decide))] at hg''
  rw [show finalState (.ok () ga) = ga from rfl, hg'] at hlast
  exact ⟨hg, h4, h5, ga, gb, g', hga, hfirst, hgb, hother, hg', hg'', hlast⟩

end DeclGraph
