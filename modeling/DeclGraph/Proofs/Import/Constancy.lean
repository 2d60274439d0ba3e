import DeclGraph.Proofs.Import.Duplicates
import DeclGraph.Proofs.Import.Seclusion

/-! Profiles are constant: whatever is imported into a new graph, what lies in its profile package
stays there as it is, and nothing else gets there. -/

namespace DeclGraph

open DeclGraph.Graph

namespace Graph

variable {g g' : Graph} {n : NodeId} {name : String} {profile : Profile} {steps steps' : ℕ}

/-- `g'` has the profile of `g`: the same elements lie in the profile package, with the same
records. -/
structure SameProfile (g g' : Graph) : Prop where
  inProfile : ∀ n, g'.inProfile n = .ok true ↔ g.inProfile n = .ok true
  node : ∀ n, g.inProfile n = .ok true → g'.node? n = g.node? n

lemma inProfileWithin_succ (hn : n ≠ profilePackage) : g.inProfileWithin (steps + 1) n = .ok true ↔
    ∃ r o, g.node? n = some r ∧ r.owner = some o ∧ g.inProfileWithin steps o = .ok true := by
  rw [inProfileWithin, if_neg hn, except_bind_eq_ok]
  constructor
  · rintro ⟨r, hr, hup⟩
    cases ho : r.owner with
    | none =>
      rw [ho] at hup
      cases hup
    | some o =>
      rw [ho] at hup
      exact ⟨r, o, get_eq_ok.mp hr, ho, hup⟩
  · rintro ⟨r, o, hr, ho, hup⟩
    refine ⟨r, get_eq_ok.mpr hr, ?_⟩
    rw [ho]
    exact hup

lemma inProfile_profilePackage (g : Graph) : g.inProfile profilePackage = .ok true := by
  rw [inProfile, inProfileWithin, if_pos rfl]

/-- The elements of a new graph apart from its root lie in the profile package. -/
lemma inProfile_new :
    (new name profile).inProfile n = .ok true ↔ (new name profile).isLive n = true ∧ n ≠ root := by
  have hnew := installing_new name profile
  by_cases hn : n = profilePackage
  · subst hn
    exact iff_of_true (inProfile_profilePackage _) ⟨hnew.package_live, by decide⟩
  rw [inProfile, inProfileWithin_succ hn]
  constructor
  · rintro ⟨r, o, hr, ho, -⟩
    refine ⟨isLive_of_node? hr, ?_⟩
    rintro rfl
    obtain rfl := Option.some.inj (hnew.root_node.symm.trans hr)
    cases ho
  · rintro ⟨hlive, hroot⟩
    obtain ⟨r, hr⟩ := isLive_iff.mp hlive
    obtain ⟨_, _, _, -, rfl⟩ := hnew.content hr hroot hn
    -- the package is one step up, so the walk needs a bound that is not zero
    have hsize : (new name profile).slots.size ≠ 0 := by
      intro hzero
      have := lt_next hnew.package_live
      simp [next, hzero, profilePackage] at this
    obtain ⟨k, hk⟩ := Nat.exists_eq_succ_of_ne_zero hsize
    refine ⟨_, profilePackage, hr, rfl, ?_⟩
    rw [hk]
    exact if_pos rfl

instance closed_new : (new name profile).Closed where
  root := ⟨fun h => (inProfile_new.mp h).2 rfl⟩
  isLive h := (inProfile_new.mp h).1
  plain := by
    intro n r _ hr
    obtain ⟨hendpoints, hstereotypes, -⟩ := node?_new hr
    exact ⟨hendpoints, hstereotypes⟩
  kin := by
    intro n r hn hr m hm
    have hlinked := (coherent_new name profile).toLinked
    have hfit := hlinked.fit hr
    obtain ⟨-, -, hplace⟩ := node?_new hr
    rcases Node.mem_kin.mp hm with ho | ha | ⟨s, hs⟩
    · rcases hplace with ⟨-, hnone⟩ | ⟨-, howner, -⟩
      · exact absurd (hnone.symm.trans ho) nofun
      · obtain rfl := Option.some.inj (howner.symm.trans ho)
        exact inProfile_profilePackage _
    · have hk : r.kind ≠ .associationEnd := by
        intro hk
        have := kind_of_node?_new hr
        simp [hk, NodeKind.isPackage] at this
      exact absurd ((hfit.associationEnd hk).symm.trans ha) nofun
    · obtain ⟨x, hx, ho, -⟩ := (hlinked.mem_children hr s m).mp hs
      apply inProfile_new.mpr
      refine ⟨isLive_of_node? hx, ?_⟩
      rintro rfl
      obtain rfl := Option.some.inj ((installing_new name profile).root_node.symm.trans hx)
      cases ho

lemma secludes_new : (new name profile).Secludes (new name profile) := by
  apply Secludes.refl
  intro n r hn hr m hm
  by_cases hroot : n = root
  · subst hroot
    obtain rfl := Option.some.inj ((installing_new name profile).root_node.symm.trans hr)
    cases hm
  · exact absurd (inProfile_new.mpr ⟨isLive_of_node? hr, hroot⟩) hn.not_inProfile

namespace Secludes

/-- Nobody outside has an owner inside, so the way up from there does not lead in. -/
lemma inProfileWithin_outside (h : g.Secludes g') (hn : g.Outside n) :
    g'.inProfileWithin steps n ≠ .ok true := by
  induction steps generalizing n with
  | zero => nofun
  | succ steps ih =>
    intro hup
    have hne : n ≠ profilePackage := by
      rintro rfl
      exact hn.not_inProfile (inProfile_profilePackage g)
    obtain ⟨r, o, hr, ho, hup⟩ := (inProfileWithin_succ hne).mp hup
    exact ih (h.apart hn hr o (Node.mem_kin_of_owner ho)) hup

/-- The way up inside is what it was. -/
lemma inProfileWithin_inside [Closed g] (h : g.Secludes g') (hn : g.inProfile n = .ok true)
    (hup : g.inProfileWithin steps n = .ok true) (hle : steps ≤ steps') :
    g'.inProfileWithin steps' n = .ok true := by
  induction steps generalizing n steps' with
  | zero => cases hup
  | succ steps ih =>
    obtain ⟨k, rfl⟩ := Nat.exists_eq_add_of_lt hle
    by_cases hne : n = profilePackage
    · subst hne
      exact if_pos rfl
    · obtain ⟨r, o, hr, ho, hup⟩ := (inProfileWithin_succ hne).mp hup
      have hin : g.inProfile o = .ok true := Closed.kin hn hr o (Node.mem_kin_of_owner ho)
      exact (inProfileWithin_succ hne).mpr
        ⟨r, o, (h.node hn).trans hr, ho, ih hin hup (Nat.le_add_right ..)⟩

theorem sameProfile [Closed g] (h : g.Secludes g') : g.SameProfile g' := by
  refine ⟨fun n => ⟨fun hn => ?_, fun hn => ?_⟩, fun n => h.node⟩
  · rcases g.inProfile_or_outside n with hin | hout
    · exact hin
    · exact absurd hn (h.inProfileWithin_outside hout)
  · apply h.inProfileWithin_inside hn hn
    exact Nat.succ_le_succ (Int.ofNat_le.mp h.next)

end Secludes

end Graph

/-- An import run, the graph apart: of a source text or of a batch of files. -/
inductive ImportRun where
  | source (c : SourceCall)
  | files (c : BatchContext) (session : Session)

/-- The graph that a run leaves, whether it fails or not. -/
def ImportRun.run (g : Graph) : ImportRun → Graph
  | source c => c.run g
  | files c session => (importFiles c { graph := g, session }).2.graph

lemma KeptByPasses.runs {P : Graph → Prop} (hP : KeptByPasses (fun _ => True) P) {g : Graph}
    (h : P g) (runs : List ImportRun) : P (runs.foldl ImportRun.run g) := by
  apply List.foldlRecOn runs ImportRun.run (b := g) (motive := P) h
  intro g hg run _
  cases run with
  | source c =>
    have hstore : P ({ graph := g, session := c.session } : Store).graph := hg
    exact hP.importSource hstore trivial c.source c.name c.passes
  | files c session =>
    have hstore : P ({ graph := g, session } : Store).graph := hg
    exact hP.importFiles hstore trivial

lemma kept_secludes (g : Graph) [Closed g] : KeptByPasses (fun _ => True) g.Secludes := by
  constructor
  intro store settings hstore _ name unit p
  rw [StoreM.graph_runPass]
  have hstart : (UnitState.start ⟨name, p, settings⟩ store).Secluded g := by
    refine ⟨hstore, Closed.root, nofun, ?_, nofun⟩
    intro scope hscope
    cases hscope
  exact ((ImportM.secluded_importUnit ⟨name, p, settings⟩ unit).final _ hstart).graph

/-- Whatever is imported into a new graph, from texts or from files and whether the runs fail or
not, its profile stays as it is. -/
theorem sameProfile_of_runs (name : String) (profile : Profile) (runs : List ImportRun) :
    (new name profile).SameProfile (runs.foldl ImportRun.run (new name profile)) :=
  ((kept_secludes _).runs secludes_new runs).sameProfile

end DeclGraph
