import DeclGraph.Proofs.Graph.Linkage

/-! A new graph: the root, the profile package, and below the latter the data types and stereotypes
of the profile. -/

namespace DeclGraph.Graph

variable {g g' : Graph} {n : NodeId} {r : Node} {name : String} {profile : Profile}

/-- What a graph holds while its profile is being installed. -/
structure Installing (name : String) (profile : Profile) (g : Graph) : Prop extends Linked g where
  root_node : g.node? root = some { kind := .model, name := some name }
  package_node : ∃ owned, g.node? profilePackage =
    some { kind := .package, name := some profile.name, owned }
  content : ∀ {n r}, g.node? n = some r → n ≠ root → n ≠ profilePackage →
    ∃ (kind : NodeKind) (name : String) (baseClasses : List String),
      (kind = .dataType ∨ kind = .stereotype) ∧
      r = { kind, name := some name, owner := some profilePackage, baseClasses }

lemma Installing.package_live {s : String} (h : Installing s profile g) :
    g.isLive profilePackage = true := by
  obtain ⟨_, hp⟩ := h.package_node
  exact isLive_of_node? hp

lemma Installing.create {s : String} (h : Installing s profile g) {kind : NodeKind}
    (hk : kind = .dataType ∨ kind = .stereotype) (name : String) :
    ∃ g', GraphM.create kind (some name) (some profilePackage) g = .ok g.next g' ∧
      Installing s profile g' ∧ g'.node? g.next =
        some { kind, name := some name, owner := some profilePackage } := by
  have hp : ∀ p, some profilePackage = some p → g.isLive p = true := by
    rintro p hpp
    obtain rfl := Option.some.inj hpp
    exact h.package_live
  obtain ⟨g', hrun, hc⟩ := GraphM.create_ok g kind (some name) _ hp
  have hnodes := hc.node
  have hnew := hc.new_node
  have hold : ∀ m, g.isLive m = true → m ≠ profilePackage → g'.node? m = g.node? m := by
    intro m hm hmp
    rw [hnodes, if_neg (ne_next hm)]
    simp [hmp.symm]
  have hlinked : g'.Linked := by
    refine h.toLinked.built hc ?_ ?_ ?_
    · intro s
      cases s <;> rfl
    · exact ⟨fun _ => ⟨rfl, rfl⟩, fun _ => ⟨rfl, rfl⟩, fun _ => rfl⟩
    · simpa [Node.links] using h.package_live
  refine ⟨g', hrun, ⟨hlinked, ?_, ?_, ?_⟩, hnew⟩
  · rw [hold root (isLive_of_node? h.root_node) (by decide)]
    exact h.root_node
  · obtain ⟨owned, ho⟩ := h.package_node
    have hslot : kind.slot = .owned := by rcases hk with rfl | rfl <;> rfl
    refine ⟨owned ++ [g.next], ?_⟩
    rw [hnodes, if_neg (ne_next h.package_live), ho]
    simp only [Option.map_some, if_true, hslot, Node.attach]
    rw [if_neg (h.next_not_mem ho .owned)]
    rfl
  · intro m x hx hmr hmp
    by_cases hm : m = g.next
    · subst hm
      obtain rfl := Option.some.inj (hnew.symm.trans hx)
      exact ⟨kind, name, [], hk, rfl⟩
    · rw [hnodes, if_neg hm] at hx
      simp only [Option.some.injEq, hmp.symm, if_false, Option.map_id'] at hx
      exact h.content hx hmr hmp

lemma Installing.setBaseClasses {s : String} (h : Installing s profile g)
    (hn : g.node? n = some { kind := .stereotype, name := some name, owner := some profilePackage })
    (baseClasses : List String) :
    Installing s profile (g.modify n ({ · with baseClasses })) := by
  have hne : n ≠ root ∧ n ≠ profilePackage := by
    constructor
    · rintro rfl
      have := Option.some.inj (hn.symm.trans h.root_node)
      simp at this
    · rintro rfl
      obtain ⟨owned, ho⟩ := h.package_node
      have := Option.some.inj (hn.symm.trans ho)
      simp at this
  refine ⟨h.toLinked.map (F := fun m x => if m = n then { x with baseClasses } else x) ?_ ?_,
    ?_, ?_, ?_⟩
  · intro m
    rw [node?_modify]
    split_ifs <;> simp
  · intro m x hx
    have hfit := h.fit hx
    split_ifs
    · exact ⟨⟨rfl, rfl, fun s => by cases s <;> rfl⟩,
        ⟨hfit.generalization, hfit.residence, hfit.associationEnd⟩,
        fun y (hy : y ∈ x.links) => h.live hx y hy⟩
    · exact ⟨Node.SamePlace.refl x, hfit, h.live hx⟩
  · rw [node?_modify, if_neg hne.1.symm]
    exact h.root_node
  · rw [node?_modify, if_neg hne.2.symm]
    exact h.package_node
  · intro m x hx hmr hmp
    rw [node?_modify] at hx
    split_ifs at hx with hm
    · subst hm
      rw [hn] at hx
      obtain rfl := Option.some.inj hx
      exact ⟨_, _, _, Or.inr rfl, rfl⟩
    · exact h.content hx hmr hmp

/-- The records of a new graph. -/
lemma installing_new (name : String) (profile : Profile) :
    Installing name profile (new name profile) := by
  let bare : Graph := ⟨#[none, some { kind := .model, name := some name }], profile⟩
  have hbare : ∀ {m x}, bare.node? m = some x →
      m = root ∧ x = { kind := .model, name := some name } := by
    intro m x hx
    obtain ⟨i, rfl, hi⟩ := node?_eq_some.mp hx
    rcases i with _ | _ | i
    · simp [bare] at hi
    · exact ⟨rfl, by simpa [bare, eq_comm] using hi⟩
    · simp [bare] at hi
  have hlinked : bare.Linked := by
    refine ⟨?_, ?_, ?_, ?_⟩
    · intro n r hr m hm
      obtain ⟨rfl, rfl⟩ := hbare hr
      simp [Node.links] at hm
    · intro p r hr s c
      obtain ⟨rfl, rfl⟩ := hbare hr
      constructor
      · intro hc
        cases s <;> simp [Node.children] at hc
      · rintro ⟨rc, hrc, ho, _⟩
        obtain ⟨_, rfl⟩ := hbare hrc
        simp at ho
    · intro p r hr s
      obtain ⟨rfl, rfl⟩ := hbare hr
      cases s <;> exact List.nodup_nil
    · intro n r hr
      obtain ⟨rfl, rfl⟩ := hbare hr
      exact ⟨fun _ => ⟨rfl, rfl⟩, fun _ => ⟨rfl, rfl⟩, fun _ => rfl⟩
  let g₀ := (bare.add { kind := .package, name := some profile.name }).2
  have hadd : GraphM.add .package (some profile.name) bare = .ok profilePackage g₀ := rfl
  have hg₀ : Installing name profile g₀ := by
    obtain ⟨g', hrun, hc⟩ := GraphM.create_ok bare .package (some profile.name) none (by simp)
    have hgg : g' = g₀ := by
      have : GraphM.create .package (some profile.name) none bare = .ok profilePackage g₀ := rfl
      rw [this] at hrun
      exact (EStateM.Result.ok.inj hrun).2.symm
    subst hgg
    have hlinked' : g₀.Linked := by
      refine hlinked.built hc ?_ ?_ ?_
      · intro s
        cases s <;> rfl
      · exact ⟨fun _ => ⟨rfl, rfl⟩, fun _ => ⟨rfl, rfl⟩, fun _ => rfl⟩
      · simp [Node.links]
    refine ⟨hlinked', rfl, ⟨[], rfl⟩, ?_⟩
    intro m x hx hmr hmp
    have hm : m ≠ bare.next := hmp
    rw [hc.node, if_neg hm] at hx
    obtain ⟨y, hy, _⟩ := Option.map_eq_some_iff.mp hx
    exact absurd (hbare hy).1 hmr
  have hends : Ends (GraphM.installProfile profile bare) (fun _ => Installing name profile)
      (Installing name profile) := by
    unfold GraphM.installProfile
    refine Ends.bind_ok hadd (Ends.bind (Q := fun _ => Installing name profile) ?_ ?_)
    · refine Ends.loop ?_ hg₀
      intro dt _ g hg
      obtain ⟨g', hrun, hg', _⟩ := hg.create (Or.inl rfl) dt
      exact Ends.bind_ok hrun (Ends.answer ⟨rfl, hg'⟩)
    · intro _ g₁ hg₁
      refine Ends.bind (Ends.loop ?_ hg₁) fun _ _ h => Ends.answer h
      intro st _ g hg
      obtain ⟨g', hrun, hg', hnew⟩ := hg.create (Or.inr rfl) st.name
      refine Ends.bind_ok hrun
        (Ends.bind (Ends.modified (Q := fun _ => Installing name profile) ?_) ?_)
      · exact hg'.setBaseClasses hnew st.baseClasses
      · exact fun _ g'' hg'' => Ends.answer ⟨rfl, hg''⟩
  have hnew : new name profile = finalState (GraphM.installProfile profile bare) := by
    unfold new
    dsimp only
    split <;> rename_i h <;> exact (congrArg finalState h).symm
  exact hnew ▸ hends.final

/-- A new graph holds neither ends of associations nor anything marked by a stereotype. -/
lemma plain_new {name : String} {profile : Profile} {n : NodeId} {r : Node}
    (hr : (new name profile).node? n = some r) : r.association = none ∧ r.stereotypes = [] := by
  have h := installing_new name profile
  by_cases hroot : n = root
  · subst hroot
    obtain rfl := Option.some.inj (h.root_node.symm.trans hr)
    exact ⟨rfl, rfl⟩
  · by_cases hpack : n = profilePackage
    · subst hpack
      obtain ⟨owned, ho⟩ := h.package_node
      obtain rfl := Option.some.inj (ho.symm.trans hr)
      exact ⟨rfl, rfl⟩
    · obtain ⟨_, _, _, _, rfl⟩ := h.content hr hroot hpack
      exact ⟨rfl, rfl⟩

/-- A new graph is coherent. -/
lemma coherent_new (name : String) (profile : Profile) : (new name profile).Coherent := by
  refine ⟨(installing_new name profile).toLinked, fun hr ha => ?_⟩
  simp [(plain_new hr).1] at ha

lemma stocked_new (name : String) (profile : Profile) : (new name profile).Stocked := by
  have h := (installing_new name profile).toLinked
  refine ⟨fun hr s c hc => h.children_live hr hc, fun hr st hst => ?_⟩
  simp [(plain_new hr).2] at hst

end DeclGraph.Graph
