import DeclGraph.Proofs.Graph.Linkage

/-! The lists of parts and stereotypes name live elements in every graph that the operations lead to,
whatever handles they are given and whether they fail or not. -/

namespace DeclGraph

/-- Another record of the same kind with the same parts and stereotypes. -/
structure Node.SameLists (r r' : Node) : Prop where
  kind : r'.kind = r.kind
  children : ∀ s, r'.children s = r.children s
  stereotypes : r'.stereotypes = r.stereotypes

/-- A record with nothing but its kind, its parts and its stereotypes. -/
def Node.lists (r : Node) : Node :=
  { kind := r.kind, name := none, stereotypes := r.stereotypes, owned := r.owned,
    features := r.features, parameters := r.parameters, connections := r.connections,
    taggedValues := r.taggedValues }

lemma Node.SameLists.of_lists {r r' : Node} (h : r'.lists = r.lists) : r.SameLists r' := by
  refine ⟨congrArg (·.kind) h, fun s => ?_, congrArg (·.stereotypes) h⟩
  cases s
  exacts [congrArg (·.owned) h, congrArg (·.features) h, congrArg (·.parameters) h,
    congrArg (·.connections) h, congrArg (·.taggedValues) h]

namespace Graph

variable {g g' : Graph} {n m : NodeId} {r : Node}

/-- A live stereotype. -/
def IsStereotype (g : Graph) (st : NodeId) : Prop := ∃ x, g.node? st = some x ∧ x.kind = .stereotype

@[simp] lemma isLive_modify (n : NodeId) (f : Node → Node) (m : NodeId) :
    (g.modify n f).isLive m = g.isLive m := by
  unfold isLive
  rw [node?_modify]
  split_ifs <;> simp

namespace Stocked

/-- Lists that get longer by live elements alone. -/
lemma modify [h : g.Stocked] {f : Node → Node} (hk : ∀ r, (f r).kind = r.kind)
    (hc : ∀ r s, ∀ c ∈ (f r).children s, c ∈ r.children s ∨ g.isLive c = true)
    (hst : ∀ r, ∀ st ∈ (f r).stereotypes, st ∈ r.stereotypes ∨ g.IsStereotype st) :
    (g.modify n f).Stocked := by
  have hnode : ∀ m, (g.modify n f).node? m =
      (g.node? m).map fun x => if m = n then f x else x := by
    intro m
    rw [node?_modify]
    split_ifs <;> simp
  have hlive : ∀ m, (g.modify n f).isLive m = g.isLive m := isLive_congr hnode
  have hstereotype : ∀ st, g.IsStereotype st → (g.modify n f).IsStereotype st := by
    rintro st ⟨x, hx, hxk⟩
    refine ⟨_, by rw [hnode, hx]; rfl, ?_⟩
    split_ifs
    exacts [(hk x).trans hxk, hxk]
  constructor
  · intro m y hy s c hcy
    rw [hlive]
    rw [hnode] at hy
    obtain ⟨x, hx, rfl⟩ := Option.map_eq_some_iff.mp hy
    split_ifs at hcy
    · exact (hc x s c hcy).elim (h.part hx s c) id
    · exact h.part hx s c hcy
  · intro m y hy st hsty
    apply hstereotype
    rw [hnode] at hy
    obtain ⟨x, hx, rfl⟩ := Option.map_eq_some_iff.mp hy
    split_ifs at hsty
    · exact (hst x st hsty).elim (h.stereotype hx st) id
    · exact h.stereotype hx st hsty

lemma modify_same [g.Stocked] {f : Node → Node} (hf : ∀ r : Node, r.SameLists (f r)) :
    (g.modify n f).Stocked :=
  modify (fun r => (hf r).kind) (fun r s _ hc => Or.inl ((hf r).children s ▸ hc))
    fun r _ hst => Or.inl ((hf r).stereotypes ▸ hst)

lemma mapNodes [h : g.Stocked] {f : NodeId → Node → Node} (hf : ∀ n (r : Node), r.SameLists (f n r)) :
    (g.mapNodes f).Stocked := by
  have hlive : ∀ m, (g.mapNodes f).isLive m = g.isLive m := isLive_congr (node?_mapNodes f)
  constructor
  · intro m y hy s c hc
    rw [hlive]
    rw [node?_mapNodes] at hy
    obtain ⟨x, hx, rfl⟩ := Option.map_eq_some_iff.mp hy
    exact h.part hx s c ((hf m x).children s ▸ hc)
  · intro m y hy st hst
    rw [node?_mapNodes] at hy
    obtain ⟨x, hx, rfl⟩ := Option.map_eq_some_iff.mp hy
    obtain ⟨z, hz, hzk⟩ := h.stereotype hx st ((hf m x).stereotypes ▸ hst)
    exact ⟨f st z, by rw [node?_mapNodes, hz]; rfl, (hf st z).kind.trans hzk⟩

lemma add [h : g.Stocked] (hc : ∀ s, r.children s = []) (hst : r.stereotypes = []) :
    (g.add r).2.Stocked := by
  have hold : ∀ {m x}, g.node? m = some x → (g.add r).2.node? m = some x := fun hx => by
    rw [node?_add, if_neg (ne_next (isLive_of_node? hx)), hx]
  have back : ∀ {m y}, (g.add r).2.node? m = some y → y = r ∨ g.node? m = some y := by
    intro m y hy
    rw [node?_add] at hy
    split_ifs at hy
    exacts [Or.inl (Option.some.inj hy).symm, Or.inr hy]
  constructor
  · intro m y hy s c hcy
    rcases back hy with rfl | hx
    · rw [hc] at hcy
      exact absurd hcy (by simp)
    · obtain ⟨x, hx'⟩ := isLive_iff.mp (h.part hx s c hcy)
      exact isLive_of_node? (hold hx')
  · intro m y hy st hsty
    rcases back hy with rfl | hx
    · rw [hst] at hsty
      exact absurd hsty (by simp)
    · obtain ⟨x, hx', hk⟩ := h.stereotype hx st hsty
      exact ⟨x, hold hx', hk⟩

lemma remove [h : g.Stocked] (doomed : List NodeId) : (g.remove doomed).Stocked := by
  constructor
  · intro m y hy s c hc
    obtain ⟨-, x, hx, rfl⟩ := node?_remove_eq_some.mp hy
    rw [Node.children_forget, List.mem_filter, decide_eq_true_eq] at hc
    exact isLive_remove.mpr ⟨h.part hx s c hc.1, hc.2⟩
  · intro m y hy st hst
    obtain ⟨-, x, hx, rfl⟩ := node?_remove_eq_some.mp hy
    obtain ⟨hst, hd⟩ := List.mem_filter.mp hst
    obtain ⟨z, hz, hzk⟩ := h.stereotype hx st hst
    exact ⟨_, node?_remove_eq_some.mpr ⟨by simpa using hd, z, hz, rfl⟩, hzk⟩

end Stocked

end Graph

end DeclGraph
