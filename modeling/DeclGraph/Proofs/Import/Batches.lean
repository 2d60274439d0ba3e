import DeclGraph.Proofs.Import.Failures

/-! Batches of files: a file that fails is accounted for and left out from then on, and nothing but
the name of a file that no file can have breaks a batch off. A batch that is cancelled leaves what
its visits so far have done. -/

namespace DeclGraph

namespace Batch

/-- A batch before its first visit. -/
def start (c : BatchContext) (store : Store) : Batch :=
  { store, progress := [.planned c.planned] }

/-- A batch after the first `k` visits of some passes. The pass is begun in which the next visit is
due. -/
def afterVisits (c : BatchContext) : List Pass → Nat → Batch → Batch
  | [], _, b => b
  | pass :: rest, k, b =>
    let b := (c.files.take k).foldl (visit c pass) (b.beginPass pass)
    if k < c.files.length then b else afterVisits c rest (k - c.files.length) b

/-- What a batch has told after a number of visits. -/
def progressAfter (c : BatchContext) (k : Nat) : List Progress :=
  .planned c.planned :: (List.range k).map (.visited <| · + 1)

/-- A batch is under way: so many visits are made, and the files that failed are accounted for. -/
structure Underway (c : BatchContext) (k : Nat) (b : Batch) : Prop where
  graph : Imported (fun _ => True) b.store.graph
  halt : b.halt = none
  visits : b.visits = k
  progress : b.progress = progressAfter c k
  failures : b.failures.map (·.file) = (b.failed.map (·.spelling)).reverse
  nodup : b.failed.Nodup
  failed : b.failed ⊆ c.files

/-- What failed in a batch has failed for good, and more failures come from one pass. -/
structure Follows (pass : Pass) (b b' : Batch) : Prop where
  failed : b.failed ⊆ b'.failed
  failures : ∃ more, b'.failures = b.failures ++ more ∧ ∀ f ∈ more, f.pass = some pass.number

variable {c : BatchContext} {b b' : Batch} {k : Nat} {pass : Pass} {path : PathName}
  {paths : List PathName} {passes : List Pass} {store : Store}

lemma contained_of_mapError {ε α : Type} {x : Except ε α} {f : ε → FileError} {e : FileError}
    (hf : ∀ e, (f e).isContained = true) (h : x.mapError f = .error e) : e.isContained = true := by
  cases x with
  | ok a => exact nomatch h
  | error e' =>
    cases h
    exact hf e'

/-- A file that can be named fails for a reason that is put down to it. -/
lemma isContained_of_load {e : FileError} (hnul : path.hasNul = false)
    (h : c.load path = .error e) : e.isContained = true := by
  unfold BatchContext.load at h
  simp only [hnul, Bool.false_eq_true, if_false] at h
  rcases except_bind_eq_error.mp h with h | ⟨bytes, -, h⟩
  · exact contained_of_mapError (fun _ => rfl) h
  rcases except_bind_eq_error.mp h with h | ⟨source, -, h⟩
  · exact contained_of_mapError (fun _ => rfl) h
  · exact contained_of_mapError (fun _ => rfl) h

/-- The import of a unit in a batch. -/
def importUnit (c : BatchContext) (b : Batch) (pass : Pass) (path : PathName)
    (unit : CompilationUnit) : Except FileError Unit × Batch :=
  match StoreM.runPass path.baseName c.settings unit pass
      (b.emit (.fileStarted path.spelling pass.number)).store with
  | .ok _ store => (.ok (), { b with store })
  | .error e store => (.error (.refused e), { b with store })

lemma importFile_known {unit : CompilationUnit} (h : b.units.lookup path = some unit) :
    b.importFile c pass path = b.importUnit c pass path unit := by
  unfold importFile unitOf
  rw [h]
  rfl

lemma importFile_loaded {unit : CompilationUnit} (h : b.units.lookup path = none)
    (hload : c.load path = .ok unit) : b.importFile c pass path =
      importUnit c { b with units := (path, unit) :: b.units } pass path unit := by
  unfold importFile unitOf
  rw [h]
  dsimp only
  rw [hload]
  rfl

lemma importFile_unloaded {e : FileError} (h : b.units.lookup path = none)
    (hload : c.load path = .error e) : b.importFile c pass path = (.error e, b) := by
  unfold importFile unitOf
  rw [h]
  dsimp only
  rw [hload]

/-- The import of a unit changes the model alone. -/
lemma importUnit_eq (c : BatchContext) (b : Batch) (pass : Pass) (path : PathName)
    (unit : CompilationUnit) : ∃ store, (b.importUnit c pass path unit).2 = { b with store } := by
  unfold importUnit
  split <;> exact ⟨_, rfl⟩

/-- The import of a file changes the model, and the unit of the file is remembered. -/
lemma importFile_eq (c : BatchContext) (b : Batch) (pass : Pass) (path : PathName) :
    ∃ store units, (b.importFile c pass path).2 = { b with store, units } := by
  cases hu : b.units.lookup path with
  | some unit =>
    rw [importFile_known hu]
    obtain ⟨store, h⟩ := importUnit_eq c b pass path unit
    exact ⟨store, _, h⟩
  | none =>
    cases hload : c.load path with
    | error e =>
      rw [importFile_unloaded hu hload]
      exact ⟨_, _, rfl⟩
    | ok unit =>
      rw [importFile_loaded hu hload]
      let b₁ : Batch := { b with units := (path, unit) :: b.units }
      obtain ⟨store, h⟩ := importUnit_eq c b₁ pass path unit
      exact ⟨store, _, h⟩

lemma isContained_of_importUnit {e : FileError} {unit : CompilationUnit}
    (h : Imported (fun _ => True) b.store.graph)
    (hrun : b.importUnit c pass path unit = (.error e, b')) : e.isContained = true := by
  unfold importUnit at hrun
  split at hrun
  · exact nomatch hrun
  · next f store hpass =>
    cases hrun
    have hsound : (b.emit (.fileStarted path.spelling pass.number)).store.graph.Sound := h.sound
    exact decide_eq_true (StoreM.due_of_runPass hsound hpass).contained

/-- Whatever fails in the import of a file is put down to the file. -/
lemma isContained_of_importFile {e : FileError} (h : Imported (fun _ => True) b.store.graph)
    (hnul : path.hasNul = false) (hrun : b.importFile c pass path = (.error e, b')) :
    e.isContained = true := by
  cases hu : b.units.lookup path with
  | some unit =>
    rw [importFile_known hu] at hrun
    exact isContained_of_importUnit h hrun
  | none =>
    cases hload : c.load path with
    | error f =>
      rw [importFile_unloaded hu hload] at hrun
      cases hrun
      exact isContained_of_load hnul hload
    | ok unit =>
      rw [importFile_loaded hu hload] at hrun
      exact isContained_of_importUnit (b := { b with units := (path, unit) :: b.units }) h hrun

namespace Follows

lemma refl (pass : Pass) (b : Batch) : Follows pass b b :=
  ⟨List.Subset.refl _, [], by simp, by simp⟩

lemma trans {b₁ b₂ b₃ : Batch} (h : Follows pass b₁ b₂) (h' : Follows pass b₂ b₃) :
    Follows pass b₁ b₃ := by
  obtain ⟨more, heq, hpass⟩ := h.failures
  obtain ⟨more', heq', hpass'⟩ := h'.failures
  refine ⟨fun _ hp => h'.failed (h.failed hp), more ++ more', ?_, fun f hf => ?_⟩
  · rw [heq', heq, List.append_assoc]
  · exact (List.mem_append.mp hf).elim (hpass f) (hpass' f)

end Follows

/-- A visit that is made. -/
lemma underway_visit (pass : Pass) (h : Underway c k b) (hquiet : c.isCancelled k = false)
    (hpath : path ∈ c.files) (hnul : path.hasNul = false) :
    Underway c (k + 1) (b.visit c pass path) ∧ Follows pass b (b.visit c pass path) := by
  have counted : ∀ {b' : Batch}, Underway c k b' → Underway c (k + 1) b'.count := by
    intro b' h
    refine ⟨h.graph, h.halt, by simp [count, h.visits], ?_, h.failures, h.nodup, h.failed⟩
    simp [count, h.progress, h.visits, progressAfter, List.range_succ]
  have hgraph : Imported (fun _ => True) (b.visit c pass path).store.graph :=
    Imported.kept.visit h.graph trivial path
  unfold visit at hgraph ⊢
  simp only [h.halt, h.visits, hquiet, Option.isSome_none, Bool.false_eq_true, if_false] at hgraph ⊢
  by_cases hfailed : path ∈ b.failed
  · simp only [hfailed, if_true]
    exact ⟨counted h, (Follows.refl pass b).failed, [], by simp [count], by simp⟩
  · simp only [hfailed, if_false] at hgraph ⊢
    obtain ⟨store, units, heq⟩ := importFile_eq c b pass path
    rcases hrun : b.importFile c pass path with ⟨r, b'⟩
    rw [hrun] at hgraph heq
    obtain rfl : b' = { b with store, units } := heq
    cases r with
    | ok =>
      refine ⟨counted ⟨hgraph, h.halt, h.visits, h.progress, h.failures, h.nodup, h.failed⟩, ?_⟩
      exact ⟨List.Subset.refl _, [], by simp [count], by simp⟩
    | error e =>
      have he := isContained_of_importFile h.graph hnul hrun
      simp only [he, if_true] at hgraph ⊢
      refine ⟨counted ⟨hgraph, h.halt, h.visits, h.progress, ?_, ?_, ?_⟩, ?_⟩
      · simp [fail, emit, h.failures, FileError.failure, FileFailure.of]
      · exact List.nodup_cons.mpr ⟨hfailed, h.nodup⟩
      · exact List.cons_subset.mpr ⟨hpath, h.failed⟩
      · refine ⟨List.subset_cons_self _ _, [e.failure path pass], by simp [fail, count, emit], ?_⟩
        simp [FileError.failure, FileFailure.of]

/-- A number of visits in one pass. -/
lemma underway_foldl (pass : Pass) (h : Underway c k b)
    (hquiet : ∀ j < k + paths.length, c.isCancelled j = false)
    (hpaths : paths ⊆ c.files) (hnul : ∀ p ∈ c.files, p.hasNul = false) :
    Underway c (k + paths.length) (paths.foldl (visit c pass) b) ∧
      Follows pass b (paths.foldl (visit c pass) b) := by
  induction paths generalizing k b with
  | nil => exact ⟨h, .refl pass b⟩
  | cons path paths ih =>
    obtain ⟨hpath, hrest⟩ := List.cons_subset.mp hpaths
    have hlast : k + 1 + paths.length = k + (path :: paths).length := by
      rw [List.length_cons]
      omega
    obtain ⟨h₁, hf₁⟩ := underway_visit pass h (hquiet k (by simp)) hpath (hnul path hpath)
    obtain ⟨h₂, hf₂⟩ := ih h₁ (by rwa [hlast]) hrest
    exact ⟨hlast ▸ h₂, hf₁.trans hf₂⟩

lemma underway_beginPass (h : Underway c k b) (pass : Pass) : Underway c k (b.beginPass pass) :=
  ⟨h.graph, h.halt, h.visits, h.progress, h.failures, h.nodup, h.failed⟩

/-- A pass that is begun and has visited some files. -/
lemma underway_begun (pass : Pass) (h : Underway c k b) {m : Nat} (hm : m ≤ c.files.length)
    (hquiet : ∀ i < k + m, c.isCancelled i = false) (hnul : ∀ p ∈ c.files, p.hasNul = false) :
    Underway c (k + m) ((c.files.take m).foldl (visit c pass) (b.beginPass pass)) ∧
      Follows pass b ((c.files.take m).foldl (visit c pass) (b.beginPass pass)) := by
  have hlen : (c.files.take m).length = m := by rw [List.length_take, Nat.min_eq_left hm]
  obtain ⟨hunder, hfollows⟩ := underway_foldl pass (underway_beginPass h pass)
    (by rwa [hlen]) (List.take_subset m c.files) hnul
  rw [hlen] at hunder
  exact ⟨hunder, hfollows.failed, hfollows.failures⟩

lemma underway_pass (pass : Pass) (h : Underway c k b)
    (hquiet : ∀ i < k + c.files.length, c.isCancelled i = false)
    (hnul : ∀ p ∈ c.files, p.hasNul = false) :
    Underway c (k + c.files.length) (c.files.foldl (visit c pass) (b.beginPass pass)) := by
  simpa only [List.take_length] using (underway_begun pass h le_rfl hquiet hnul).1

lemma afterVisits_cons_of_le (hk : c.files.length ≤ k) :
    afterVisits c (pass :: passes) k b = afterVisits c passes (k - c.files.length)
      (c.files.foldl (visit c pass) (b.beginPass pass)) := by
  rw [afterVisits, if_neg (not_lt.mpr hk), List.take_of_length_le hk]

lemma afterVisits_one (hk : k ≤ c.files.length) : afterVisits c [pass] k b =
    (c.files.take k).foldl (visit c pass) (b.beginPass pass) := by
  rw [afterVisits]
  split_ifs with hlt
  · rfl
  · obtain rfl : k = c.files.length := le_antisymm hk (not_lt.mp hlt)
    rw [Nat.sub_self, afterVisits]

lemma underway_start (h : Imported (fun _ => True) store.graph) : Underway c 0 (start c store) :=
  ⟨h, rfl, rfl, rfl, rfl, List.nodup_nil, by simp [start]⟩

/-- Every file came through or failed, if no file was left out. -/
lemma Underway.accounts (h : Underway c k b) (hfiles : c.files.Nodup) :
    b.imported c = c.files.filter (· ∉ b.failed) ∧
      ((b.imported c).map (·.spelling) ++ b.failures.map (·.file)).Perm
        (c.files.map (·.spelling)) := by
  have himported : b.imported c = c.files.filter (· ∉ b.failed) := by
    simp [imported, cancelled, h.halt]
  refine ⟨himported, ?_⟩
  have hfailed : b.failed.Perm (c.files.filter (· ∈ b.failed)) := by
    refine (List.perm_ext_iff_of_nodup h.nodup (hfiles.filter _)).mpr fun p => ?_
    simp only [List.mem_filter, decide_eq_true_eq]
    exact ⟨fun hp => ⟨h.failed hp, hp⟩, And.right⟩
  have hsplit := List.filter_append_perm (· ∉ b.failed) c.files
  rw [himported, h.failures]
  refine ((List.reverse_perm _).append_left _).trans ?_
  rw [← List.map_append]
  refine (((hfailed.append_left _).trans ?_).map _)
  simpa using hsplit

/-- A file that failed in the first pass is passed over in the second. -/
lemma passed_over (h : Imported (fun _ => True) store.graph)
    (hfiles : (c.files.map (·.spelling)).Nodup) (hnul : ∀ p ∈ c.files, p.hasNul = false)
    (hquiet : ∀ i < c.planned, c.isCancelled i = false) {f : FileFailure}
    (hf : f ∈ (afterVisits c Pass.all c.planned (start c store)).failures)
    (hpass : f.pass = some Pass.skeleton.number) {before after : List PathName}
    (hsplit : c.files = before ++ path :: after) (hpath : path.spelling = f.file) :
    afterVisits c Pass.all (c.files.length + (before.length + 1)) (start c store) =
      (afterVisits c Pass.all (c.files.length + before.length) (start c store)).count := by
  have hplanned : c.planned = c.files.length + c.files.length := by
    simp [BatchContext.planned, Pass.all, Nat.mul_two]
  have hlen : before.length + 1 ≤ c.files.length := by simp [hsplit]
  have hin : path ∈ c.files := by simp [hsplit]
  rw [hplanned] at hf hquiet
  obtain ⟨b₁, hb₁⟩ : ∃ b₁, b₁ = c.files.foldl (visit c .skeleton)
      ((start c store).beginPass .skeleton) := ⟨_, rfl⟩
  have h₁ : Underway c c.files.length b₁ := by
    have hfirst := underway_pass .skeleton (underway_start h) (fun i hi => hquiet i (by omega)) hnul
    rwa [Nat.zero_add, ← hb₁] at hfirst
  have hsecond (m : Nat) (hm : m ≤ c.files.length) :
      afterVisits c Pass.all (c.files.length + m) (start c store) =
        (c.files.take m).foldl (visit c .references) (b₁.beginPass .references) := by
    rw [Pass.all, afterVisits_cons_of_le (Nat.le_add_right _ _), Nat.add_sub_cancel_left, ← hb₁,
      afterVisits_one hm]
  have hfollows (m : Nat) (hm : m ≤ c.files.length) :=
    underway_begun .references h₁ hm (fun i hi => hquiet i (by omega)) hnul
  have hfailed : path ∈ b₁.failed := by
    rw [hsecond _ le_rfl] at hf
    obtain ⟨more, heq, hmore⟩ := (hfollows _ le_rfl).2.failures
    rw [heq] at hf
    rcases List.mem_append.mp hf with hf | hf
    · have hmem : f.file ∈ b₁.failures.map (·.file) := List.mem_map_of_mem hf
      rw [h₁.failures, List.mem_reverse] at hmem
      obtain ⟨q, hq, hspell⟩ := List.mem_map.mp hmem
      rwa [List.inj_on_of_nodup_map hfiles hin (h₁.failed hq) (hpath.trans hspell.symm)]
    · have := hmore f hf
      rw [hpass] at this
      exact absurd this (by decide)
  obtain ⟨hdue, hkeeps⟩ := hfollows before.length (by omega)
  rw [hsecond _ hlen, hsecond _ (by omega)]
  have htake : c.files.take (before.length + 1) = c.files.take before.length ++ [path] := by
    simp [hsplit, List.take_append]
  rw [htake, List.foldl_append, List.foldl_cons, List.foldl_nil]
  generalize (c.files.take before.length).foldl (visit c .references)
    (b₁.beginPass .references) = due at hdue hkeeps ⊢
  rw [visit, hdue.halt, Option.isSome_none, if_neg Bool.false_ne_true, hdue.visits,
    hquiet _ (by omega), if_neg Bool.false_ne_true, if_pos (hkeeps.failed hfailed)]

end Batch

open Batch

/-- A file with a class in it, and one that is missing. -/
def twoFiles (isCancelled : Nat → Bool) : BatchContext where
  read p := if p.spelling = "a.idl" then .ok "class A { }".toUTF8.toList else .error ⟨.missing, p⟩
  files := [⟨.relative, ["a.idl"]⟩, ⟨.relative, ["b.idl"]⟩]
  isCancelled

end DeclGraph
