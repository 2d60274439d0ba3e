import DeclGraph.Proofs.Import.Batches
import DeclGraph.Proofs.Import.Traversal

/-! Files that cannot be read or parsed leave no trace in a batch: what is told about them is not
looked at by the import of the others. -/

namespace DeclGraph

open DeclGraph.Graph

namespace ImportM

/-- Programs that look at nothing that happened before. -/
abbrev Oblivious {α : Type} (x : ImportM α) : Prop := Composed .free x

variable {α : Type} {u : UnitContext}

-- the instance for a program is as long as the program
set_option synthInstance.maxSize 4096

instance allows_free {m : GraphM α} [hm : GraphM.Sure m] : Manner.free.Allows m where
  raises := hm.imp fun _ _ => trivial
  alters := ⟨fun _ => trivial⟩

instance oblivious_throw (e : ImportError) : Oblivious (throw e : ImportM α) := .refuse trivial

instance oblivious_query (f : Graph → Except GraphFault α) : Oblivious (query f) :=
  .query fun _ _ => trivial

instance oblivious_upsertFieldEnd (classifier target : NodeId) (name : String) :
    Oblivious (upsertFieldEnd u classifier target name) := by
  unfold upsertFieldEnd
  refine .found inferInstance (.bind inferInstance fun edge => .bind inferInstance fun n => ?_)
    inferInstance
  refine .bind inferInstance fun _ => .bind inferInstance fun _ => ?_
  exact .found inferInstance inferInstance inferInstance

instance oblivious_addAssociatedField (modifiers : ModifierSet) (classifier type : NodeId)
    (multiplicity name : String) (doc : Option String) :
    Oblivious (addAssociatedField u modifiers classifier type multiplicity name doc) := by
  unfold addAssociatedField
  dsimp only
  infer_instance

instance oblivious_addAttribute (modifiers : ModifierSet) (type : Option String) (name : String)
    (initializer doc : Option String) :
    Oblivious (addAttribute u modifiers type name initializer doc) := by
  have field (classifier : NodeId) (target : Option NodeId) (multiplicity : String) :
      Oblivious (do
        match ← associatedType? u target with
        | none => some <$>
          addPlainField modifiers classifier target multiplicity name initializer doc
        | some n => some <$>
          addAssociatedField u modifiers classifier n multiplicity name doc) :=
    .found inferInstance inferInstance inferInstance
  unfold addAttribute
  refine .bind inferInstance fun classifier => ?_
  refine .ite inferInstance ?_
  cases type with
  | none => exact field classifier none single
  | some type => exact .bind inferInstance fun target => field classifier target _

/-- No declaration is imported differently for what happened before it. -/
instance declaring_free : Manner.Declaring .free u where
  misplaced _ := trivial
  inconsistent := trivial
  addImport _ := inferInstance
  addInheritance _ _ _ _ := inferInstance
  addAttribute _ _ _ _ _ := inferInstance
  addOperation _ _ _ _ _ := inferInstance

end ImportM

/-- The model and the session, which what happened is told apart from. -/
def Store.content (s : Store) : Graph × Session := (s.graph, s.session)

/-- What a pass over a unit does to the model and the session does not depend on what happened
before. -/
theorem StoreM.content_runPass (name : String) (settings : Settings) (unit : CompilationUnit)
    (pass : Pass) {s t : Store} (h : s.content = t.content) :
    mapFinal Store.content (runPass name settings unit pass s) =
      mapFinal Store.content (runPass name settings unit pass t) := by
  have forget (s : Store) : mapFinal Store.content (runPass name settings unit pass s) =
      mapFinal Store.content (runPass name settings unit pass { s with log := [] }) := by
    let u : UnitContext := ⟨name, pass, settings⟩
    have hpast := (ImportM.composed_importUnit (M := .free) (u := u) unit).withPast s.log
      (.start u { s with log := [] })
    have hstart : (UnitState.start u { s with log := [] }).withPast s.log = .start u s := by
      simp [UnitState.withPast, UnitState.start]
    rw [hstart] at hpast
    unfold runPass
    dsimp only
    rw [hpast]
    cases ImportM.importUnit u unit (.start u { s with log := [] }) <;> rfl
  obtain ⟨hgraph, hsession⟩ := Prod.mk.inj h
  rw [forget s, forget t, hgraph, hsession]

/-- The batch without the files that cannot be read or parsed. -/
def BatchContext.loadable (c : BatchContext) : BatchContext :=
  { c with files := c.files.filter fun p => (c.load p).isOk }

namespace Batch

/-- What a batch has done to the model is what the batch of the loadable files has done. Files that
cannot be read or parsed are among those that failed once they were seen. -/
structure Shadowed (c : BatchContext) (seen : List PathName) (b b' : Batch) : Prop where
  content : b.store.content = b'.store.content
  units : b.units = b'.units
  halt : b.halt = b'.halt
  running : b.halt ≠ some .cancelled
  failed : ∀ p, (c.load p).isOk = true → (p ∈ b.failed ↔ p ∈ b'.failed)
  failures : b'.failures =
    b.failures.filter fun f => f.file ∈ c.loadable.files.map (·.spelling)
  known : ∀ p unit, b.units.lookup p = some unit → (c.load p).isOk = true
  gone : b.halt = none → ∀ p ∈ seen, (c.load p).isOk = false → p ∈ b.failed

variable {c : BatchContext} {b b' : Batch} {seen : List PathName} {path : PathName} {pass : Pass}
  {paths : List PathName} {passes : List Pass} {store : Store}

namespace Shadowed

lemma count (h : Shadowed c seen b b') : Shadowed c seen b.count b'.count :=
  ⟨h.content, h.units, h.halt, h.running, h.failed, h.failures, h.known, h.gone⟩

lemma beginPass (h : Shadowed c seen b b') (pass : Pass) :
    Shadowed c seen (b.beginPass pass) (b'.beginPass pass) := by
  obtain ⟨hgraph, hsession⟩ := Prod.mk.inj h.content
  refine ⟨?_, h.units, h.halt, h.running, h.failed, h.failures, h.known, h.gone⟩
  simp only [Batch.beginPass, Store.content, hgraph, hsession]

/-- A loadable file is gone from neither batch for having been seen. -/
lemma see (h : Shadowed c seen b b') (hgood : (c.load path).isOk = true) :
    Shadowed c (path :: seen) b b' := by
  refine ⟨h.content, h.units, h.halt, h.running, h.failed, h.failures, h.known, ?_⟩
  intro hhalt p hp hbad
  rcases List.mem_cons.mp hp with rfl | hp
  · rw [hgood] at hbad
    exact Bool.noConfusion hbad
  · exact h.gone hhalt p hp hbad

lemma broken (h : Shadowed c seen b b') (e : FileError) :
    Shadowed c seen { b with halt := some (.broken e) } { b' with halt := some (.broken e) } :=
  ⟨h.content, h.units, rfl, by simp, h.failed, h.failures, h.known, by simp⟩

/-- A loadable file fails in both batches. -/
lemma fail (h : Shadowed c seen b b') (hpath : path ∈ c.loadable.files) (e : FileError)
    (pass : Pass) : Shadowed c seen (b.fail path (e.failure path pass))
      (b'.fail path (e.failure path pass)) := by
  refine ⟨h.content, h.units, h.halt, h.running, fun p hp => ?_, ?_, h.known, ?_⟩
  · simp [Batch.fail, emit, h.failed p hp]
  · have hfile : (e.failure path pass).file ∈ c.loadable.files.map (·.spelling) :=
      List.mem_map_of_mem hpath
    rw [Batch.fail, Batch.fail]
    simp only [emit, List.filter_append, h.failures]
    rw [List.filter_cons_of_pos (by simpa using hfile), List.filter_nil]
  · exact fun hhalt p hp hbad => List.mem_cons_of_mem _ (h.gone hhalt p hp hbad)

/-- The same is done to the models of both. -/
lemma updated {store store' : Store} (h : Shadowed c seen b b')
    (hcontent : store.content = store'.content) {units : List (PathName × CompilationUnit)}
    (hunits : ∀ p unit, units.lookup p = some unit → (c.load p).isOk = true) :
    Shadowed c seen { b with store, units } { b' with store := store', units } :=
  ⟨hcontent, rfl, h.halt, h.running, h.failed, h.failures, hunits, h.gone⟩

end Shadowed

/-- A unit does the same to both models, and fails in both for the same reason or in neither. -/
lemma importUnit_content (c : BatchContext) (pass : Pass) (path : PathName)
    (unit : CompilationUnit) (h : b.store.content = b'.store.content) :
    ∃ r store store', store.content = store'.content ∧
      b.importUnit c pass path unit = (r, { b with store }) ∧
      b'.importUnit c.loadable pass path unit = (r, { b' with store := store' }) := by
  have hrun := StoreM.content_runPass path.baseName c.settings unit pass
    (s := (b.emit (.fileStarted path.spelling pass.number)).store)
    (t := (b'.emit (.fileStarted path.spelling pass.number)).store) h
  unfold importUnit
  rw [show c.loadable.settings = c.settings from rfl]
  revert hrun
  cases StoreM.runPass path.baseName c.settings unit pass
      (b.emit (.fileStarted path.spelling pass.number)).store <;>
    cases StoreM.runPass path.baseName c.settings unit pass
      (b'.emit (.fileStarted path.spelling pass.number)).store <;>
    intro hrun
  · have hcontent := (EStateM.Result.ok.inj hrun).2
    exact ⟨_, _, _, hcontent, rfl, rfl⟩
  · exact nomatch hrun
  · exact nomatch hrun
  · obtain ⟨rfl, hcontent⟩ := EStateM.Result.error.inj hrun
    exact ⟨_, _, _, hcontent, rfl, rfl⟩

/-- A file that can be read and parsed is visited in both batches. -/
lemma shadowed_visit (h : Shadowed c seen b b') (hpath : path ∈ c.loadable.files)
    (hquiet : ∀ i, c.isCancelled i = false) :
    Shadowed c (path :: seen) (b.visit c pass path) (b'.visit c.loadable pass path) := by
  have hgood : (c.load path).isOk = true := by simpa using (List.mem_filter.mp hpath).2
  have hsee := h.see hgood
  unfold visit
  simp only [show c.loadable.isCancelled = c.isCancelled from rfl, hquiet, Bool.false_eq_true,
    if_false, ← h.halt, ← h.failed path hgood]
  split_ifs with hhalt hfailed
  · exact hsee
  · exact hsee.count
  · have imported : ∃ r store store' units, store.content = store'.content ∧
        (∀ p unit, units.lookup p = some unit → (c.load p).isOk = true) ∧
        b.importFile c pass path = (r, { b with store, units }) ∧
        b'.importFile c.loadable pass path = (r, { b' with store := store', units }) := by
      cases hu : b.units.lookup path with
      | some unit =>
        obtain ⟨r, store, store', hcontent, hrun, hrun'⟩ :=
          importUnit_content c pass path unit h.content
        refine ⟨r, store, store', b.units, hcontent, h.known, ?_, ?_⟩
        · rw [importFile_known hu, hrun]
        · rw [importFile_known (h.units ▸ hu), hrun', h.units]
      | none =>
        obtain ⟨unit, hload⟩ : ∃ unit, c.load path = .ok unit := by
          cases hload : c.load path with
          | error e => simp [hload, Except.isOk, Except.toBool] at hgood
          | ok unit => exact ⟨unit, rfl⟩
        let b₁ : Batch := { b with units := (path, unit) :: b.units }
        let b₁' : Batch := { b' with units := (path, unit) :: b'.units }
        obtain ⟨r, store, store', hcontent, hrun, hrun'⟩ :=
          importUnit_content c pass path unit
            (show b₁.store.content = b₁'.store.content from h.content)
        refine ⟨r, store, store', (path, unit) :: b.units, hcontent, ?_, ?_, ?_⟩
        · intro p unit' hp
          rw [List.lookup_cons] at hp
          split at hp
          · next heq => rwa [eq_of_beq heq]
          · exact h.known p unit' hp
        · rw [importFile_loaded hu hload, hrun]
        · have hload' : c.loadable.load path = .ok unit := hload
          rw [importFile_loaded (h.units ▸ hu) hload', hrun', h.units]
    obtain ⟨r, store, store', units, hcontent, hunits, hrun, hrun'⟩ := imported
    rw [hrun, hrun']
    have hupdated := hsee.updated hcontent hunits
    cases r with
    | ok => exact hupdated.count
    | error e =>
      dsimp only
      split_ifs with he
      · exact (hupdated.fail hpath e pass).count
      · exact hupdated.broken e

/-- A file that cannot be read or parsed is told about, and that is all. -/
lemma shadowed_skip (h : Shadowed c seen b b') (hload : (c.load path).isOk = false)
    (hnul : path.hasNul = false) (hname : path.spelling ∉ c.loadable.files.map (·.spelling))
    (hquiet : ∀ i, c.isCancelled i = false) :
    Shadowed c (path :: seen) (b.visit c pass path) b' := by
  have hknown : b.units.lookup path = none := by
    cases hu : b.units.lookup path with
    | none => rfl
    | some unit => exact absurd (h.known path unit hu) (by simp [hload])
  obtain ⟨e, he⟩ : ∃ e, c.load path = .error e := by
    cases he : c.load path with
    | error e => exact ⟨e, rfl⟩
    | ok unit => simp [he, Except.isOk, Except.toBool] at hload
  unfold visit
  simp only [hquiet, Bool.false_eq_true, if_false]
  split_ifs with hhalt hfailed
  · refine ⟨h.content, h.units, h.halt, h.running, h.failed, h.failures, h.known, fun hnone => ?_⟩
    simp [hnone] at hhalt
  · refine ⟨h.content, h.units, h.halt, h.running, h.failed, h.failures, h.known, ?_⟩
    intro hnone p hp hbad
    rcases List.mem_cons.mp hp with rfl | hp
    exacts [hfailed, h.gone hnone p hp hbad]
  · rw [importFile_unloaded hknown he]
    dsimp only
    rw [if_pos (isContained_of_load hnul he)]
    refine ⟨h.content, h.units, h.halt, h.running, fun p hp => ?_, ?_, h.known, ?_⟩
    · have hne : p ≠ path := by
        rintro rfl
        rw [hload] at hp
        exact Bool.noConfusion hp
      simp [Batch.count, Batch.fail, emit, hne, h.failed p hp]
    · have hfile : (e.failure path pass).file ∉ c.loadable.files.map (·.spelling) := hname
      simp only [Batch.count, Batch.fail, emit, List.filter_append, h.failures]
      rw [List.filter_cons_of_neg (by simpa using hfile), List.filter_nil, List.append_nil]
    · intro hnone p hp hbad
      rcases List.mem_cons.mp hp with rfl | hp
      exacts [List.mem_cons_self .., List.mem_cons_of_mem _ (h.gone hnone p hp hbad)]

lemma shadowed_foldl (pass : Pass) (h : Shadowed c seen b b')
    (hfiles : (c.files.map (·.spelling)).Nodup)
    (hnul : ∀ p ∈ c.files, p.hasNul = false) (hquiet : ∀ i, c.isCancelled i = false)
    (hpaths : paths ⊆ c.files) :
    Shadowed c (paths.reverse ++ seen) (paths.foldl (visit c pass) b)
      ((paths.filter fun p => (c.load p).isOk).foldl (visit c.loadable pass) b') := by
  induction paths generalizing seen b b' with
  | nil => exact h
  | cons path paths ih =>
    obtain ⟨hpath, hrest⟩ := List.cons_subset.mp hpaths
    rw [List.reverse_cons, List.append_assoc, List.singleton_append]
    cases hload : (c.load path).isOk with
    | true =>
      rw [List.filter_cons_of_pos (by simpa using hload)]
      exact ih (shadowed_visit h (List.mem_filter.mpr ⟨hpath, by simpa using hload⟩) hquiet) hrest
    | false =>
      rw [List.filter_cons_of_neg (by simp [hload])]
      refine ih (shadowed_skip h hload (hnul path hpath) (fun hname => ?_) hquiet) hrest
      obtain ⟨q, hq, hspell⟩ := List.mem_map.mp hname
      obtain ⟨hq, hgood⟩ := List.mem_filter.mp hq
      obtain rfl := List.inj_on_of_nodup_map hfiles hq hpath hspell
      simp [hload] at hgood

/-- After a pass all files are seen. -/
lemma shadowed_runPass (pass : Pass) (h : Shadowed c seen b b')
    (hfiles : (c.files.map (·.spelling)).Nodup)
    (hnul : ∀ p ∈ c.files, p.hasNul = false) (hquiet : ∀ i, c.isCancelled i = false) :
    Shadowed c c.files (b.runPass c pass) (b'.runPass c.loadable pass) := by
  unfold runPass
  rw [← h.halt]
  split_ifs with hhalt
  · refine ⟨h.content, h.units, h.halt, h.running, h.failed, h.failures, h.known, fun hnone => ?_⟩
    simp [hnone] at hhalt
  · have hrun := shadowed_foldl pass (h.beginPass pass) hfiles hnul hquiet
      (List.Subset.refl c.files)
    refine ⟨hrun.content, hrun.units, hrun.halt, hrun.running, hrun.failed, hrun.failures,
      hrun.known, fun hnone p hp => hrun.gone hnone p (by simp [hp])⟩

lemma shadowed_start (c : BatchContext) (store : Store) :
    Shadowed c [] (start c store) (start c.loadable store) :=
  ⟨rfl, rfl, rfl, by simp [start], fun _ _ => Iff.rfl, rfl, by simp [start], by simp⟩

/-- The files that came through are those of the other batch. -/
lemma Shadowed.imported (h : Shadowed c c.files b b') (hhalt : b.halt = none) :
    b'.imported c.loadable = b.imported c := by
  have hhalt' : b'.halt = none := h.halt ▸ hhalt
  simp only [Batch.imported, cancelled, hhalt, hhalt', BatchContext.loadable, List.filter_filter]
  refine List.filter_congr fun p hp => ?_
  cases hload : (c.load p).isOk with
  | true => simp [h.failed p hload]
  | false => simp [h.gone hhalt p hp hload]

end Batch

open Batch

/-- Leaving out the files that cannot be read or parsed changes neither the model nor the session,
nor what is told about the other files. -/
theorem importFiles_loadable {c : BatchContext} (store : Store)
    (hfiles : (c.files.map (·.spelling)).Nodup) (hnul : ∀ p ∈ c.files, p.hasNul = false)
    (hquiet : ∀ i, c.isCancelled i = false) :
    (importFiles c.loadable store).2.graph = (importFiles c store).2.graph ∧
      (importFiles c.loadable store).2.session = (importFiles c store).2.session ∧
      (importFiles c.loadable store).1.map (·.imported) =
        (importFiles c store).1.map (·.imported) ∧
      (importFiles c.loadable store).1.map (·.failures) = (importFiles c store).1.map fun r =>
        r.failures.filter fun f => f.file ∈ c.loadable.files.map (·.spelling) := by
  have hend := shadowed_runPass .references (shadowed_runPass .skeleton
    (shadowed_start c store) hfiles hnul hquiet) hfiles hnul hquiet
  have hrun (c : BatchContext) : importFiles c store =
    ((runPass c (runPass c (start c store) .skeleton) .references).report c,
      (runPass c (runPass c (start c store) .skeleton) .references).store) := rfl
  rw [hrun, hrun]
  generalize runPass c (runPass c (start c store) .skeleton) .references = b at hend ⊢
  generalize runPass c.loadable (runPass c.loadable (start c.loadable store) .skeleton)
    .references = b' at hend ⊢
  obtain ⟨hgraph, hsession⟩ := Prod.mk.inj hend.content
  refine ⟨hgraph.symm, hsession.symm, ?_⟩
  unfold report
  rw [← hend.halt]
  cases hhalt : b.halt with
  | none => simp [Except.map, hend.imported hhalt, hend.failures]
  | some halt =>
    cases halt with
    | cancelled => exact absurd hhalt hend.running
    | broken e => exact ⟨rfl, rfl⟩

theorem importFiles_loadable_twoFiles :
    let c := twoFiles fun _ => false
    let store : Store := { graph := .new "m" ⟨"p", [], []⟩ }
    c.loadable.files.length < c.files.length ∧
      (importFiles c.loadable store).2.graph = (importFiles c store).2.graph ∧
      (importFiles c.loadable store).1.map (·.imported) =
        (importFiles c store).1.map (·.imported) := by
  intro c store
  obtain ⟨hgraph, -, himported, -⟩ := importFiles_loadable (c := c) store
    (by simp [c, twoFiles, PathName.spelling, PathRoot.spelling])
    (by simp [c, twoFiles, PathName.hasNul]) fun _ => rfl
  have hmissing : (c.load ⟨.relative, ["b.idl"]⟩).isOk = false := by decide
  have hin : (⟨.relative, ["b.idl"]⟩ : PathName) ∈ c.files := by simp [c, twoFiles]
  exact ⟨List.length_filter_lt_length_iff_exists.mpr ⟨_, hin, by simp [hmissing]⟩, hgraph,
    himported⟩

/-- A file name that the system refuses, before a file with a class in it. -/
def nulFirst : BatchContext :=
  { (twoFiles fun _ => false) with files := [⟨.relative, ["b\x00.idl"]⟩, ⟨.relative, ["a.idl"]⟩] }

/-- A name that no file can have breaks a batch off, although the other file can be imported. -/
theorem importFiles_nulFirst :
    let store : Store := { graph := .new "m" ⟨"p", [], []⟩ }
    (nulFirst.files.map (·.spelling)).Nodup ∧ (importFiles nulFirst store).1.isOk = false ∧
      (importFiles nulFirst.loadable store).1.isOk = true := by
  decide +kernel

end DeclGraph
