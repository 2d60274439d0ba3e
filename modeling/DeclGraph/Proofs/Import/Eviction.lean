import DeclGraph.Proofs.Import.Opening

/-! The end of a visit: members that were there before and were not declared again are deleted. -/

namespace DeclGraph

open DeclGraph.Graph

namespace UnitState

/-- Some members of a classifier are deleted, and outer classifiers are left alone. -/
structure Evicted (n : NodeId) (outer gone : List NodeId) (s t : UnitState) : Prop where
  sound : t.Sound
  unit : s.SameUnit t
  pruned : s.graph.Pruned n gone t.graph
  outer : ∀ p ∈ outer, s.graph.Spares p t.graph

end UnitState

namespace ImportM

variable {s t : UnitState} {u : UnitContext} {n v : NodeId} {outer gone stale : List NodeId}
  {scope : Scope} {rest : List Scope}

lemma performs_evict (hs : s.graph.Nested s.scopes.package (n :: outer))
    (hv : s.graph.Former n v) (h : UnitState.Evicted n outer gone s t) :
    Performs (.free u) t (evict v t) fun _ t' => UnitState.Evicted n outer (v :: gone) s t' := by
  unfold evict
  refine Performs.bind_same (t := t) (a := t) rfl rfl ?_
  cases hr : t.graph.node? v with
  | none =>
    refine Performs.answer ⟨h.sound, h.unit, h.pruned.skip h.sound.graph ?_, h.outer⟩
    simp [Graph.isLive, hr]
  | some r =>
    have hlive := isLive_of_node? hr
    obtain ⟨role, name, hm₀⟩ := hv.member (h.pruned.ages.live v hv.old hlive)
    have hm : t.graph.IsMember n role name v :=
      h.pruned.member.mpr ⟨hm₀, fun hv => h.pruned.dead v hv hlive⟩
    have hnest : t.graph.Nested t.scopes.package (n :: outer) := by
      rw [h.unit.scopes]
      refine hs.stays fun p hp => ?_
      rcases List.mem_cons.mp hp with rfl | hp
      exacts [h.pruned.toStays, (h.outer p hp).toStays]
    obtain ⟨k, hk, hp⟩ := h.sound.package
    have hnp : r.kind.isPackage = false := by
      obtain ⟨k, hkind, hrole⟩ := hm.declared
      obtain rfl := Option.some.inj ((kind?_eq hr).symm.trans hkind)
      revert hrole
      cases r.kind <;> simp [NodeKind.role?, NodeKind.isPackage]
    have hsteps : Steps (Permit.free u) t.graph (t.graph.remove (t.graph.doomedWith v)) :=
      (Step.delete hr hnp).permitted trivial
    refine bind_emit (bind_change (GraphM.delete_ok hlive) hsteps ?_)
    refine Performs.same rfl rfl ⟨?_, ⟨h.unit.scopes, h.unit.component⟩,
      h.pruned.delete h.sound.graph hnest hk hp hm, fun p hp' => ?_⟩
    · exact h.sound.steps hsteps ⟨rfl, rfl⟩
    · exact (h.outer p hp').trans (hnest.spares_delete h.sound.graph hk hp hm hp')

lemma performs_evictAll (hs : s.graph.Nested s.scopes.package (n :: outer))
    (hstale : ∀ v ∈ stale, s.graph.Former n v) (h : UnitState.Evicted n outer gone s t) :
    Performs (.free u) t ((stale.forM evict : ImportM PUnit) t) fun _ t' =>
      UnitState.Evicted n outer (stale.reverse ++ gone) s t' := by
  induction stale generalizing gone t with
  | nil => exact Performs.answer h
  | cons v stale ih =>
    change Performs (.free u) t ((evict v >>= fun _ => stale.forM evict) t) _
    refine Performs.bind (performs_evict hs (hstale v (by simp)) h) fun _ t' _ ht' => ?_
    refine (ih (fun w hw => hstale w (by simp [hw])) ht').imp fun _ _ h => ?_
    simpa using h

/-- Leaving a classifier deletes its stale members. -/
lemma performs_popClassifier (h : s.Nested) (ho : s.scopes.opened = scope :: rest)
    (hstale : ∀ v ∈ staleMembers u.pass scope, s.graph.Former scope.frame.home v) :
    Performs (.free u) s (popClassifier u s) fun n t => n = scope.frame.home ∧
      UnitState.Evicted n (rest.map (·.frame.home)) (staleMembers u.pass scope)
        { s with scopes := { s.scopes with opened := rest } } t := by
  unfold popClassifier
  refine Performs.bind_same (t := s) (a := s) rfl rfl ?_
  refine Performs.bind_same (t := s) (a := (scope, { s.scopes with opened := rest })) ?_ rfl ?_
  · simp [ScopeStack.pop, ho, placed]
    rfl
  refine Performs.bind_same (t := { s with scopes := { s.scopes with opened := rest } }) rfl rfl ?_
  have hn := h.nested
  rw [ho, List.map_cons] at hn
  have hstart : UnitState.Evicted scope.frame.home (rest.map (·.frame.home)) []
      { s with scopes := { s.scopes with opened := rest } }
      { s with scopes := { s.scopes with opened := rest } } :=
    ⟨⟨h.graph, h.package, h.component⟩, .refl _, .refl _ _, fun _ _ => .refl _ _⟩
  refine Performs.bind (performs_evictAll
    (s := { s with scopes := { s.scopes with opened := rest } }) hn hstale hstart) ?_
  intro _ t _ ht
  simp only [h.frames scope (by simp [ho])]
  exact Performs.answer ⟨rfl, ht.sound, ht.unit, ht.pruned.congr (by simp), ht.outer⟩

end ImportM

end DeclGraph
