import DeclGraph.Import.Batch
import DeclGraph.Proofs.Graph.Fresh
import DeclGraph.Proofs.Graph.Uniqueness
import DeclGraph.Proofs.Import.Units

/-! Imports in a row: graphs that start from a new one and go through passes over units. -/

namespace DeclGraph

open DeclGraph.Graph

namespace Graph

variable {name : String} {profile : Profile} {n : NodeId} {r : Node}

/-- The elements of a new graph are the root, the profile package and what lies in it. -/
lemma node?_new (h : (new name profile).node? n = some r) :
    r.endpoints = [] ∧ r.stereotypes = [] ∧ (r.kind.isPackage = true ∧ r.owner = none ∨
      (r.kind = .dataType ∨ r.kind = .stereotype) ∧ r.owner = some profilePackage ∧
        ∃ title, r.name = some title) := by
  have hnew := installing_new name profile
  by_cases hroot : n = root
  · subst hroot
    obtain rfl := Option.some.inj (hnew.root_node.symm.trans h)
    exact ⟨rfl, rfl, Or.inl ⟨rfl, rfl⟩⟩
  by_cases hpack : n = profilePackage
  · subst hpack
    obtain ⟨owned, hpackage⟩ := hnew.package_node
    obtain rfl := Option.some.inj (hpackage.symm.trans h)
    exact ⟨rfl, rfl, Or.inl ⟨rfl, rfl⟩⟩
  · obtain ⟨kind, title, _, hkind, rfl⟩ := hnew.content h hroot hpack
    exact ⟨rfl, rfl, Or.inr ⟨hkind, rfl, title, rfl⟩⟩

lemma kind?_profilePackage_new : (new name profile).kind? profilePackage = some .package := by
  obtain ⟨owned, hpackage⟩ := (installing_new name profile).package_node
  rw [kind?_eq hpackage]

/-- A new graph holds no edges, features, components or associations. -/
lemma kind_of_node?_new (h : (new name profile).node? n = some r) :
    r.kind.isPackage = true ∨ r.kind = .dataType ∨ r.kind = .stereotype := by
  obtain ⟨-, -, ⟨hpack, -⟩ | ⟨hkind, -⟩⟩ := node?_new h
  exacts [Or.inl hpack, Or.inr hkind]

lemma proper_new (h : (new name profile).node? n = some r) :
    r.Proper (new name profile).kind? := by
  obtain ⟨hend, hst, hplace⟩ := node?_new h
  have hcls : r.classifiers = [] := List.eq_nil_of_subset_nil (hend ▸ r.classifiers_subset_endpoints)
  refine ⟨?_, by simp [hst], by simp [hend], by simp [hcls], fun hc => ?_, fun howned => ?_,
    fun hrole => ?_, ?_⟩
  · intro p k hp hk
    rcases hplace with ⟨-, ho⟩ | ⟨hkind, ho, -⟩
    · exact absurd (ho.symm.trans hp) (by simp)
    · obtain rfl := Option.some.inj (ho.symm.trans hp)
      rw [kind?_profilePackage_new] at hk
      rw [← Option.some.inj hk]
      rcases hkind with hkind | hkind <;> rw [hkind] <;> rfl
  · have hmem := Node.container_mem_endpoints hc
    rw [hend] at hmem
    exact absurd hmem (by simp)
  · rcases hplace with ⟨hpack, -⟩ | ⟨-, ho, -⟩
    · rw [NodeKind.isOwned, hpack] at howned
      exact Bool.noConfusion howned
    · exact ⟨_, ho⟩
  · rcases hplace with ⟨hpack, -⟩ | ⟨-, -, hname⟩
    · exfalso
      revert hpack hrole
      cases r.kind <;> decide
    · exact hname
  · have hk := kind_of_node?_new h
    unfold Node.isComplete
    revert hk
    cases r.kind <;> simp [NodeKind.isPackage]

/-- A new graph is sound. -/
lemma sound_new (name : String) (profile : Profile) : (new name profile).Sound where
  toCoherent := coherent_new name profile
  root_kind := by rw [kind?_eq (installing_new name profile).root_node]
  proper := proper_new
  distinct := by
    rintro n k hk hc role title m m' ⟨x, hx, ho, -⟩ -
    obtain ⟨-, -, hplace⟩ := node?_new hx
    rcases hplace with ⟨-, ho'⟩ | ⟨-, ho', -⟩
    · exact absurd (ho'.symm.trans ho) (by simp)
    · obtain rfl := Option.some.inj (ho'.symm.trans ho)
      rw [kind?_profilePackage_new] at hk
      rw [← Option.some.inj hk] at hc
      exact Bool.noConfusion hc
  spanned := by
    intro a ha
    obtain ⟨r, hr, hk⟩ := kind?_eq_some.mp ha
    have := kind_of_node?_new hr
    rw [hk] at this
    simp [NodeKind.isPackage] at this

/-- The profile package is all that is told apart by a key in a new graph. -/
lemma keyed_new (name : String) (profile : Profile) : (new name profile).Keyed := by
  have package : ∀ {m key}, (new name profile).Bears m key → m = profilePackage := by
    intro m key h
    cases h with
    | @record r _ hr hf =>
      by_contra hpack
      by_cases hroot : m = root
      · subst hroot
        obtain rfl := Option.some.inj ((installing_new name profile).root_node.symm.trans hr)
        exact not_fits_of_isKeyless rfl hf
      · obtain ⟨kind, title, _, hkind, rfl⟩ := (installing_new name profile).content hr hroot hpack
        rcases hkind with rfl | rfl
        · exact ((fits_of_isClassifier rfl).mp hf).2 rfl
        · exact not_fits_of_isKeyless rfl hf
    | association hs =>
      obtain ⟨r, hr, hk, -⟩ := hs.association
      have := kind_of_node?_new hr
      rw [hk] at this
      simp [NodeKind.isPackage] at this
  exact ⟨fun h h' => (package h).trans (package h').symm, kind?_profilePackage_new⟩

end Graph

/-- The graphs that passes over units lead to from a new one, with settings that are allowed. What
a pass did before it failed counts as well. -/
inductive Imported (allowed : Settings → Prop) : Graph → Prop
  | fresh (name : String) (profile : Profile) : Imported allowed (.new name profile)
  | pass {store : Store} {settings : Settings} : Imported allowed store.graph →
      allowed settings → ∀ (name : String) (unit : CompilationUnit) (p : Pass),
      Imported allowed (finalState (StoreM.runPass name settings unit p store)).graph

namespace UnitState

variable {u : UnitContext} {store : Store}

/-- A unit starts in the root. -/
lemma sound_start (h : store.graph.Sound) : (start u store).Sound :=
  ⟨h, ⟨_, h.root_kind, rfl⟩, by simp [start]⟩

end UnitState

namespace StoreM

variable {store : Store} {settings : Settings} {p : Pass} {name : String} {unit : CompilationUnit}

/-- What a pass over a unit leaves is what the unit leaves. -/
lemma graph_runPass : (finalState (runPass name settings unit p store)).graph =
    (finalState (ImportM.importUnit ⟨name, p, settings⟩ unit
      (.start ⟨name, p, settings⟩ store))).graph := by
  unfold runPass
  dsimp only
  split <;> rename_i h <;> rw [h] <;> rfl

/-- A pass over a unit is a run of changes that are free to it. -/
lemma steps_runPass (h : store.graph.Sound) : Steps (Permit.free ⟨name, p, settings⟩) store.graph
    (finalState (runPass name settings unit p store)).graph := by
  rw [graph_runPass]
  exact (ImportM.performs_importUnit (UnitState.sound_start h) rfl rfl unit).final

end StoreM

namespace Imported

variable {allowed : Settings → Prop} {g : Graph} {store : Store} {settings : Settings}

/-- Imports lead to sound graphs. -/
theorem sound (h : Imported allowed g) : g.Sound := by
  induction h with
  | fresh name profile => exact sound_new name profile
  | pass _ _ name unit p ih => exact ih.steps (StoreM.steps_runPass ih)

/-- Imports keep elements apart as long as none makes placeholders. -/
theorem keyed (h : Imported (·.unresolvedPolicy ≠ .force) g) : g.Keyed := by
  induction h with
  | fresh name profile => exact keyed_new name profile
  | pass h hs name unit p ih => exact ih.steps h.sound (StoreM.steps_runPass h.sound) fun _ _ => hs

end Imported

/-- No pass over a unit takes the property of a graph away, with settings that are allowed. -/
structure KeptByPasses (allowed : Settings → Prop) (P : Graph → Prop) : Prop where
  pass : ∀ {store : Store} {settings : Settings}, P store.graph → allowed settings →
    ∀ (name : String) (unit : CompilationUnit) (p : Pass),
      P (finalState (StoreM.runPass name settings unit p store)).graph

namespace KeptByPasses

variable {allowed : Settings → Prop} {P : Graph → Prop} {store : Store} {settings : Settings}
  {c : BatchContext} {b : Batch} {pass : Pass}

/-- The import of a source text, pass by pass. -/
lemma importSource (hP : KeptByPasses allowed P) (h : P store.graph) (hs : allowed settings)
    (source name : String) (passes : List Pass) :
    P (finalState (StoreM.importSource source name settings passes store)).graph := by
  unfold StoreM.importSource
  cases parseSource source (some name) with
  | error e => exact h
  | ok unit =>
    let I (store : Store) : Prop := P store.graph
    have hpasses : Ends ((passes.forM (StoreM.runPass name settings unit) : StoreM PUnit) store)
        (fun _ => I) I :=
      Ends.forM (fun p _ store h => Ends.of_final (E := I) (hP.pass h hs name unit p)) h
    exact hpasses.final

lemma importFile (hP : KeptByPasses allowed P) (h : P b.store.graph) (hs : allowed c.settings)
    (path : PathName) : P (b.importFile c pass path).2.store.graph := by
  have hunit : (b.unitOf c path).2.store = b.store := by
    unfold Batch.unitOf
    split
    · rfl
    · split <;> rfl
  unfold Batch.importFile
  rcases hu : b.unitOf c path with ⟨_ | unit, b'⟩
  · rw [hu] at hunit
    dsimp only at hunit ⊢
    rw [hunit]
    exact h
  · rw [hu] at hunit
    change b'.store = b.store at hunit
    rw [← hunit] at h
    have hstart : P (b'.emit (.fileStarted path.spelling pass.number)).store.graph := h
    have hpass := hP.pass hstart hs path.baseName unit pass
    dsimp only
    split <;> rename_i hrun <;> rw [hrun] at hpass <;> exact hpass

lemma visit (hP : KeptByPasses allowed P) (h : P b.store.graph) (hs : allowed c.settings)
    (path : PathName) : P (b.visit c pass path).store.graph := by
  have hfile : P (b.importFile c pass path).2.store.graph := hP.importFile h hs path
  unfold Batch.visit
  split_ifs
  · exact h
  · exact h
  · exact h
  · split <;> rename_i hrun <;> rw [hrun] at hfile
    · exact hfile
    · split_ifs <;> exact hfile

lemma runPass (hP : KeptByPasses allowed P) (h : P b.store.graph) (hs : allowed c.settings) :
    P (b.runPass c pass).store.graph := by
  unfold Batch.runPass
  split_ifs
  · exact h
  · exact List.foldlRecOn c.files (Batch.visit c pass) (b := b.beginPass pass)
      (motive := fun b => P b.store.graph) h fun b hb path _ => hP.visit hb hs path

/-- The import of a batch of files. -/
lemma importFiles (hP : KeptByPasses allowed P) (h : P store.graph) (hs : allowed c.settings) :
    P (DeclGraph.importFiles c store).2.graph := by
  change P (Pass.all.foldl (Batch.runPass c) { store, progress := _ }).store.graph
  apply List.foldlRecOn Pass.all (Batch.runPass c) (motive := fun b => P b.store.graph)
  · exact h
  · exact fun b hb pass _ => hP.runPass hb hs

end KeptByPasses

namespace Imported

variable {allowed : Settings → Prop} {store : Store} {settings : Settings}

lemma kept : KeptByPasses allowed (Imported allowed) := ⟨Imported.pass⟩

theorem importSource (h : Imported allowed store.graph) (hs : allowed settings)
    (source name : String) (passes : List Pass) :
    Imported allowed (finalState (StoreM.importSource source name settings passes store)).graph :=
  kept.importSource h hs source name passes

theorem importFiles {c : BatchContext} (h : Imported allowed store.graph) (hs : allowed c.settings) :
    Imported allowed (DeclGraph.importFiles c store).2.graph :=
  kept.importFiles h hs

end Imported

end DeclGraph
