import DeclGraph.Proofs.Import.Spelling

/-! The segments of a name. A separator cuts a name in two, and in a name without blanks each segment
is a name of its own. -/

namespace DeclGraph

/-- What separators stand between is part of the text, without separators of its own. The first
such part is where the text begins, which is what the induction needs. -/
lemma splitOn_eq_cons {α : Type} [DecidableEq α] (a : α) (l : List α) :
    ∃ w ws, l.splitOn a = w :: ws ∧ (w <+: l ∧ a ∉ w) ∧ ∀ v ∈ ws, v <:+: l ∧ a ∉ v := by
  induction l with
  | nil => exact ⟨[], [], List.splitOn_nil a, ⟨List.prefix_rfl, by simp⟩, by simp⟩
  | cons c l ih =>
    obtain ⟨w, ws, hw, ⟨hpre, hnot⟩, hws⟩ := ih
    have later : ∀ v ∈ ws, v <:+: c :: l ∧ a ∉ v := fun v hv =>
      (hws v hv).imp_left (·.trans (List.suffix_cons c l).isInfix)
    rw [List.splitOn_cons_eq_if_modifyHead, hw]
    by_cases hc : c = a
    · refine ⟨[], w :: ws, by simp [hc], ⟨List.nil_prefix, by simp⟩, ?_⟩
      rintro v (_ | ⟨_, hv⟩)
      exacts [⟨hpre.isInfix.trans (List.suffix_cons c l).isInfix, hnot⟩, later v hv]
    · refine ⟨c :: w, ws, by simp [hc], ⟨List.cons_prefix_cons.mpr ⟨rfl, hpre⟩, ?_⟩, later⟩
      simp [hnot, Ne.symm hc]

lemma of_mem_splitOn {α : Type} [DecidableEq α] {a : α} {v l : List α} (h : v ∈ l.splitOn a) :
    v <:+: l ∧ a ∉ v := by
  obtain ⟨w, ws, hw, hfirst, hws⟩ := splitOn_eq_cons a l
  rw [hw] at h
  rcases List.mem_cons.mp h with rfl | h
  exacts [hfirst.imp_left List.IsPrefix.isInfix, hws v h]

namespace QualifiedName

/-- The nonempty parts of a text between its separators. -/
def pathOf (s : List Char) : List String :=
  (((dotted s).splitOn '.').filter (· ≠ [])).map String.ofList

lemma segments_eq (name : String) :
    segments name = pathOf (Text.trim Text.isBlank name.toList) := by
  rw [segments, normalize, String.toList_ofList]
  rfl

lemma pathOf_dot (s t : List Char) : pathOf (s ++ '.' :: t) = pathOf s ++ pathOf t := by
  have hdot : dotted ('.' :: t) = '.' :: dotted t := dotted_cons (by decide) t
  simp only [pathOf]
  rw [dotted_append s (by simp), hdot, List.splitOn_append_cons_self, List.filter_append,
    List.map_append]

/-- Blanks are not cut off where a separator follows. -/
lemma trim_dot {s : List Char} (hs : ∀ c ∈ s, Text.isBlank c = false) (t : List Char) :
    Text.trim Text.isBlank (s ++ '.' :: t) = s ++ '.' :: Text.trimRight Text.isBlank t := by
  have hfirst : (s ++ '.' :: t).dropWhile Text.isBlank = s ++ '.' :: t := by
    cases s with
    | nil => exact List.dropWhile_cons_of_neg (by decide)
    | cons c s => exact List.dropWhile_cons_of_neg (by simp [hs c (by simp)])
  have hdot : ('.' :: s.reverse).dropWhile Text.isBlank = '.' :: s.reverse :=
    List.dropWhile_cons_of_neg (by decide)
  have hrev : (s ++ '.' :: t).reverse = t.reverse ++ '.' :: s.reverse := by simp
  rw [Text.trim, hfirst, hrev, List.dropWhile_append, hdot]
  split_ifs with hnil
  · simp [Text.trimRight, List.isEmpty_iff.mp hnil]
  · simp [Text.trimRight]

lemma trimRight_cons (p : Char → Bool) (c : Char) (s : List Char) : Text.trimRight p (c :: s) =
    if Text.trimRight p s = [] then Text.trimRight p [c] else c :: Text.trimRight p s := by
  simp only [Text.trimRight, List.reverse_cons, List.dropWhile_append, List.isEmpty_iff,
    List.reverse_eq_nil_iff, List.reverse_nil, List.nil_append]
  split_ifs <;> simp

lemma pathOf_eq_nil {s : List Char} : pathOf s = [] ↔ ∀ c ∈ dotted s, c = '.' := by
  have aux : ∀ l : List Char, (∀ w ∈ l.splitOn '.', w = []) ↔ ∀ c ∈ l, c = '.' := by
    intro l
    induction l with
    | nil => simp
    | cons c l ih =>
      rw [List.splitOn_cons_eq_if_modifyHead, List.forall_mem_cons, ← ih]
      by_cases hc : c = '.'
      · simp [hc]
      · obtain ⟨w, ws, hw⟩ := List.exists_cons_of_ne_nil (List.splitOn_ne_nil '.' l)
        simp [hc, hw]
  rw [pathOf, List.map_eq_nil_iff, List.filter_eq_nil_iff, ← aux]
  simp

/-- Blanks that are left before a text take no segments from it. -/
lemma pathOf_trim_eq_nil {s : List Char} (h : pathOf (Text.trimRight Text.isBlank s) = []) :
    pathOf (Text.trim Text.isBlank s) = [] := by
  induction s with
  | nil => exact h
  | cons c s ih =>
    cases hc : Text.isBlank c with
    | false =>
      have hfirst : (c :: s).dropWhile Text.isBlank = c :: s :=
        List.dropWhile_cons_of_neg (by simp [hc])
      rwa [Text.trim, hfirst]
    | true =>
      have hcolon : c ≠ ':' := by
        rintro rfl
        exact Bool.noConfusion hc
      have hfirst : (c :: s).dropWhile Text.isBlank = s.dropWhile Text.isBlank :=
        List.dropWhile_cons_of_pos hc
      rw [Text.trim, hfirst]
      refine ih ?_
      rw [trimRight_cons] at h
      split_ifs at h with hnil
      · rw [hnil]
        rfl
      · rw [pathOf_eq_nil, dotted_cons hcolon] at h
        exact pathOf_eq_nil.mpr fun d hd => h d (List.mem_cons_of_mem _ hd)

/-- What stands after a separator adds segments to a name. -/
lemma segments_extended {name : String} (hname : ∀ c ∈ name.toList, Text.isBlank c = false)
    (more : String) : ∃ rest, segments (name ++ "." ++ more) = segments name ++ rest ∧
      (segments more ≠ [] → rest ≠ []) := by
  refine ⟨pathOf (Text.trimRight Text.isBlank more.toList), ?_, fun hmore hnil => ?_⟩
  · have hlist : (name ++ "." ++ more).toList = name.toList ++ '.' :: more.toList := by simp
    rw [segments_eq, segments_eq, hlist, trim_dot hname, trim_of_all hname, pathOf_dot]
  · rw [segments_eq] at hmore
    exact hmore (pathOf_trim_eq_nil hnil)

/-- No two colons are left side by side. -/
lemma isChain_dotted (s : List Char) :
    (dotted s).IsChain fun c d => ¬(c = ':' ∧ d = ':') := by
  have head : ∀ s : List Char, (dotted s).head? = some ':' → s.head? = some ':' := by
    intro s hs
    cases s using dotted.induct with
    | case1 => exact hs
    | case2 rest => simp [dotted] at hs
    | case3 c rest hpair => rwa [dotted.eq_3 _ _ hpair] at hs
  induction s using dotted.induct with
  | case1 => exact .nil
  | case2 rest ih =>
    rw [dotted, List.isChain_cons]
    exact ⟨by simp, ih⟩
  | case3 c rest hpair ih =>
    rw [dotted.eq_3 _ _ hpair, List.isChain_cons]
    refine ⟨?_, ih⟩
    rintro d hd ⟨rfl, rfl⟩
    obtain ⟨rest', rfl⟩ := List.head?_eq_some_iff.mp (head rest hd)
    exact hpair rest' rfl rfl

lemma dotted_of_isChain {s : List Char} (h : s.IsChain fun c d => ¬(c = ':' ∧ d = ':')) :
    dotted s = s := by
  induction s using dotted.induct with
  | case1 => rfl
  | case2 rest => exact absurd ⟨rfl, rfl⟩ ((List.isChain_cons.mp h).1 ':' rfl)
  | case3 c rest hpair ih => rw [dotted.eq_3 _ _ hpair, ih (List.isChain_cons.mp h).2]

lemma mem_dotted {s : List Char} {c : Char} (h : c ∈ dotted s) : c = '.' ∨ c ∈ s := by
  induction s using dotted.induct with
  | case1 => simp [dotted] at h
  | case2 rest ih =>
    rw [dotted, List.mem_cons] at h
    exact h.elim Or.inl fun h => (ih h).imp_right fun h => by simp [h]
  | case3 d rest hpair ih =>
    rw [dotted.eq_3 _ _ hpair, List.mem_cons] at h
    rcases h with rfl | h
    · simp
    · exact (ih h).imp_right (List.mem_cons_of_mem _)

/-- A segment of a name without blanks is a name of one segment. -/
lemma segments_segment {name x : String} (hname : ∀ c ∈ name.toList, Text.isBlank c = false)
    (hx : x ∈ segments name) : segments x = [x] := by
  rw [segments_eq, trim_of_all hname] at hx
  obtain ⟨w, hw, rfl⟩ := List.mem_map.mp hx
  obtain ⟨hw, hne⟩ := List.mem_filter.mp hw
  obtain ⟨hin, hdot⟩ := of_mem_splitOn hw
  replace hne : w ≠ [] := by simpa using hne
  have hblank : ∀ c ∈ w, Text.isBlank c = false := by
    intro c hc
    rcases mem_dotted (hin.subset hc) with rfl | hc
    exacts [rfl, hname c hc]
  have hdotted : dotted w = w := by
    obtain ⟨front, back, hwhole⟩ := hin
    have hchain := isChain_dotted name.toList
    rw [← hwhole] at hchain
    exact dotted_of_isChain hchain.left_of_append.right_of_append
  rw [segments_eq, String.toList_ofList, trim_of_all hblank, pathOf, hdotted,
    List.splitOn_eq_singleton hdot]
  simp [hne]

end QualifiedName

end DeclGraph
