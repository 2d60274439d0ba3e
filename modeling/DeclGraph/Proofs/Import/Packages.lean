import DeclGraph.Proofs.Graph.Takeover
import DeclGraph.Proofs.Import.Segments

/-! Packages by their names. What is looked for and what is made go down the same path from the
root, and the way up from its end comes to its first package. -/

namespace DeclGraph

open DeclGraph.Graph

namespace Graph

variable {g g₁ g' : Graph} {n m p q home : NodeId} {r : Node} {x : String} {xs ys : List String}
  {chain chain' : List NodeId} {steps : Nat}

/-- The packages from an element up to the root, which is left out. -/
inductive Mounts (g : Graph) : NodeId → List NodeId → Prop
  | base : Mounts g root []
  | up {p q : NodeId} {x : String} {chain : List NodeId} : g.HasPackage q x p → Mounts g q chain →
      Mounts g p (p :: chain)

lemma Linked.below_of_packageFrom? (h : g.Linked) (hp : g.packageFrom? n xs = .ok (some p)) :
    g.Below n p := by
  induction xs generalizing n with
  | nil =>
    obtain rfl : n = p := Option.some.inj (Except.ok.inj hp)
    exact .self
  | cons x xs ih =>
    obtain ⟨q, hq, hp⟩ := packageFrom?_cons.mp hp
    obtain ⟨r, hr, -, ho, -⟩ := h.of_childOfKind? hq
    exact (Below.self.part hr ho).trans (ih hp)

/-- A path down is a way up of as many steps. -/
lemma Linked.mounts (h : g.Linked) (hn : g.Mounts n chain)
    (hp : g.packageFrom? n xs = .ok (some p)) :
    ∃ way, way.length = xs.length ∧ g.Mounts p (way ++ chain) := by
  induction xs generalizing n chain with
  | nil =>
    obtain rfl : n = p := Option.some.inj (Except.ok.inj hp)
    exact ⟨[], rfl, hn⟩
  | cons x xs ih =>
    obtain ⟨q, hq, hp⟩ := packageFrom?_cons.mp hp
    obtain ⟨way, hlen, hway⟩ := ih (.up (h.of_childOfKind? hq) hn) hp
    exact ⟨way ++ [q], by simp [hlen], by simpa using hway⟩

section modelled

variable (hroot : g.kind? root ≠ some .package)
include hroot

lemma not_hasPackage_root : ¬g.HasPackage q x root := by
  rintro ⟨r, hr, hk, -⟩
  exact hroot ((kind?_eq hr).trans (congrArg some hk))

namespace Mounts

/-- Were the root without owner, the packages up to it would be all that lies around an element. -/
lemma ascends (h : g.Mounts n chain) (hr : g.node? root = some r) :
    (g.modify root ({ · with owner := none })).Ascends n (chain ++ [root]) := by
  induction h with
  | base =>
    refine .top (r := { r with owner := none }) ?_ rfl
    rw [node?_modify, if_pos rfl, hr, Option.map_some]
  | @up p q x chain hp _ ih =>
    have hne : p ≠ root := by
      rintro rfl
      exact not_hasPackage_root hroot hp
    obtain ⟨rp, hrp, -, ho, -⟩ := hp
    refine .up (r := rp) ?_ ho ih
    rw [node?_modify, if_neg hne, hrp]

lemma unique (h : g.Mounts n chain) (h' : g.Mounts n chain') (hr : g.node? root = some r) :
    chain = chain' :=
  List.append_cancel_right ((h.ascends hroot hr).unique (h'.ascends hroot hr))

lemma length_le (h : g.Mounts n chain) (hr : g.node? root = some r) :
    chain.length ≤ g.slots.size := by
  have hlen := (h.ascends hroot hr).length_le
  simp only [List.length_append, modify, Array.size_modify] at hlen
  omega

/-- The last package before the root is the outermost one. -/
lemma outermostWithin (h : g.Mounts n chain) (hlast : chain.getLast? = some m)
    (hsteps : chain.length ≤ steps) : g.outermostWithin steps n = .ok m := by
  induction h generalizing steps with
  | base => simp at hlast
  | @up p q x chain hp h ih =>
    obtain ⟨r, hr, -, ho, -⟩ := hp
    obtain _ | steps := steps
    · simp at hsteps
    rw [Graph.outermostWithin, GraphM.namespaceOf_ok hr, except_ok_bind, ho]
    cases h with
    | base =>
      obtain rfl : p = m := by simpa using hlast
      simp [pure, Except.pure]
    | up hq h =>
      have hne : q ≠ root := by
        rintro rfl
        exact not_hasPackage_root hroot hq
      rw [List.getLast?_cons_cons] at hlast
      simp only [if_neg hne]
      exact ih hlast (Nat.le_of_succ_le_succ hsteps)

end Mounts

/-- What lies further down a path is another package. -/
lemma Linked.ne_of_packageFrom? (h : g.Linked) (hp : g.packageFrom? root xs = .ok (some p))
    (hq : g.packageFrom? p ys = .ok (some q)) (hys : ys ≠ []) : p ≠ q := by
  rintro rfl
  obtain ⟨up, -, hup⟩ := h.mounts .base hp
  obtain ⟨way, hlen, hway⟩ := h.mounts hup hq
  obtain ⟨z, zs, hz⟩ := List.exists_cons_of_ne_nil (List.append_ne_nil_of_right_ne_nil xs hys)
  obtain ⟨_, hchild, -⟩ := packageFrom?_cons.mp (hz ▸ packageFrom?_append.mpr ⟨p, hp, hq⟩)
  obtain ⟨r, hr, -⟩ := childOfKind?_eq_ok hchild
  have heq := congrArg List.length (hway.unique hroot hup hr)
  rw [List.length_append, hlen] at heq
  exact hys (List.length_eq_zero_iff.mp (by omega))

/-- On the way up from the end of a path, its first package is the last one before the root. -/
lemma Linked.outermost (h : g.Linked) (hm : g.childOfKind? root (some x) .package = .ok (some m))
    (hp : g.packageFrom? m xs = .ok (some p)) : g.outermost p = .ok m := by
  obtain ⟨r, hr, -⟩ := childOfKind?_eq_ok hm
  obtain ⟨way, -, hway⟩ := h.mounts (.up (h.of_childOfKind? hm) .base) hp
  exact hway.outermostWithin hroot (by simp) ((hway.length_le hroot hr).trans (Nat.le_succ _))

end modelled

/-- The record of the link at `i` in a chain of `count` new packages that begins with `first` under
`home`. -/
def packageLink (home first : NodeId) (count i : Nat) (x : String) : Node where
  kind := .package
  name := some x
  owner := some (if i = 0 then home else first + (i : NodeId) - 1)
  owned := if i + 1 < count then [first + (i : NodeId) + 1] else []

/-- `g'` is `g` with a chain of new packages of the names `xs`: the first one is owned by `home`,
and each of the others by the one before it. -/
structure Chained (g : Graph) (home : NodeId) (xs : List String) (g' : Graph) : Prop where
  next : g'.next = g.next + xs.length
  link : ∀ (i : Nat) x, xs[i]? = some x →
    g'.node? (g.next + (i : NodeId)) = some (packageLink home g.next xs.length i x)
  foot : ∀ r, g.node? home = some r →
    g'.node? home = some { r with owned := r.owned ++ [g.next] }
  other : ∀ m, m ≠ home → (∀ i : Nat, i < xs.length → m ≠ g.next + (i : NodeId)) →
    g'.node? m = g.node? m

namespace Built

/-- One new package is a chain. -/
lemma chained (hb : g.Built { kind := .package, name := some x, owner := some home } g')
    (hr : g.node? home = some r) (hfresh : g.next ∉ r.owned) : g.Chained home [x] g' where
  next := hb.next
  link i y hy := by
    obtain ⟨rfl, rfl⟩ : i = 0 ∧ x = y := by
      cases i with
      | zero => simpa using hy
      | succ i => simp at hy
    simpa [packageLink] using hb.new_node
  foot y hy := by
    obtain rfl := Option.some.inj (hr.symm.trans hy)
    have hattach : r.attach .owned g.next = { r with owned := r.owned ++ [g.next] } := if_neg hfresh
    rw [hb.old_node hr, if_pos rfl, ← hattach]
    rfl
  other m hm hnew := by
    have hne : m ≠ g.next := by simpa using hnew 0 (by simp)
    rw [hb.node, if_neg hne]
    simp [Ne.symm hm]

/-- A chain grows at its upper end. -/
lemma chained_cons (hb : g.Built { kind := .package, name := some x, owner := some home } g₁)
    (hr : g.node? home = some r) (hfresh : g.next ∉ r.owned) (hxs : xs ≠ [])
    (h : g₁.Chained g.next xs g') : g.Chained home (x :: xs) g' := by
  have hone := hb.chained hr hfresh
  have hlt := lt_next (isLive_of_node? hr)
  have hpos := List.length_pos_iff.mpr hxs
  have hnext := hb.next
  have later : ∀ i : Nat, g₁.next + (i : NodeId) = g.next + ((i + 1 : Nat) : NodeId) := by
    intro i
    rw [hnext, Nat.cast_succ, add_assoc, add_comm 1]
  constructor
  · rw [h.next, later, List.length_cons]
  · intro i y hy
    cases i with
    | zero =>
      obtain rfl : x = y := by simpa using hy
      have hfirst := h.foot _ hb.new_node
      simpa [packageLink, hnext, hpos] using hfirst
    | succ i =>
      have hlink := h.link i y (by simpa using hy)
      have howner : (if i = 0 then g.next else g₁.next + (i : NodeId) - 1) =
          g.next + ((i + 1 : Nat) : NodeId) - 1 := by
        rw [later]
        split_ifs with hi
        · simp [hi]
        · rfl
      rw [packageLink, howner, later] at hlink
      rw [hlink, packageLink, if_neg (Nat.succ_ne_zero i)]
      simp only [List.length_cons, Nat.add_lt_add_iff_right]
  · intro y hy
    have hne : ∀ i : Nat, i < xs.length → home ≠ g₁.next + (i : NodeId) := fun i _ => by
      rw [later]
      exact (hlt.trans_le (le_add_of_nonneg_right (Nat.cast_nonneg _))).ne
    rw [h.other home hlt.ne hne]
    exact hone.foot y hy
  · intro m hm hnew
    have hm₀ : m ≠ g.next := by simpa using hnew 0 (by simp)
    rw [h.other m hm₀ fun i hi => later i ▸ hnew (i + 1) (by simpa using hi)]
    refine hone.other m hm fun i hi => ?_
    obtain rfl : i = 0 := by simpa using hi
    simpa using hm₀

end Built

end Graph

namespace Graph

/-- The handles that are given out next. -/
def upcoming (g : Graph) (count : Nat) : List NodeId :=
  (List.range count).map fun i : Nat => g.next + (i : NodeId)

lemma Built.upcoming {g g' : Graph} {r : Node} (hb : g.Built r g') (count : Nat) :
    g.upcoming (count + 1) = g.next :: g'.upcoming count := by
  unfold Graph.upcoming
  rw [List.range_succ_eq_map, List.map_cons, List.map_map, hb.next]
  refine congrArg₂ List.cons (by simp) (List.map_congr_left fun i _ => ?_)
  rw [Function.comp_apply, Nat.cast_succ, add_assoc, add_comm 1]

end Graph

namespace UnitState

variable {s t : UnitState} {n p : NodeId} {r : Node} {path : List String}

/-- `t` is `s` with a chain of new packages under `n`, the last of which is `p`. Each of them is
registered, and nothing else has changed. -/
structure Lengthened (s : UnitState) (n : NodeId) (path : List String) (p : NodeId)
    (t : UnitState) : Prop where
  chained : s.graph.Chained n path t.graph
  profile : t.graph.profile = s.graph.profile
  last : (s.graph.upcoming path.length).getLast? = some p
  rest : t = { s with
    graph := t.graph
    session := (s.graph.upcoming path.length).foldl Session.register s.session
    log := (path.map Event.packageCreated).reverse ++ s.log }

lemma Nests.lengthened (h : s.Nests n path p t) (hr : s.graph.node? n = some r)
    (hfresh : s.graph.next ∉ r.owned) (hpath : path ≠ []) : s.graph.Chained n path t.graph ∧
      (s.graph.upcoming path.length).getLast? = some p ∧ t = { s with
        graph := t.graph
        session := (s.graph.upcoming path.length).foldl Session.register s.session
        log := (path.map Event.packageCreated).reverse ++ s.log } := by
  induction h generalizing r with
  | nil => exact absurd rfl hpath
  | @cons s t n p x xs g hb h ih =>
    rw [List.length_cons, hb.upcoming]
    cases xs with
    | nil =>
      cases h
      exact ⟨hb.chained hr hfresh, rfl, rfl⟩
    | cons y ys =>
      obtain ⟨hchain, hlast, hrest⟩ := ih hb.new_node (by simp) (by simp)
      refine ⟨hb.chained_cons hr hfresh (by simp) hchain, ?_, ?_⟩
      · rw [List.getLast?_cons, hlast]
        rfl
      · rw [hrest]
        simp

end UnitState

namespace ImportM

variable {s t : UnitState} {n p q : NodeId} {path xs ys : List String} {f : GraphFault}
  {name : String}

lemma packageBelow_append (n : NodeId) (xs ys : List String) :
    packageBelow n (xs ++ ys) = packageBelow n xs >>= fun q => packageBelow q ys := by
  induction xs generalizing n with
  | nil => rfl
  | cons x xs ih =>
    simp only [List.cons_append, packageBelow, bind_assoc]
    congr 1
    funext found
    cases found with
    | some q => exact ih q
    | none => simp only [bind_assoc, ih]

/-- The package at the end of a path lies on the way to that of a longer one. -/
lemma packageBelow_appended (hs : s.graph.OwnsLive) (h : packageBelow n (xs ++ ys) s = .ok p t) :
    ∃ q s₁, packageBelow n xs s = .ok q s₁ ∧ t.graph.packageFrom? n xs = .ok (some q) ∧
      t.graph.packageFrom? q ys = .ok (some p) := by
  rw [packageBelow_append] at h
  obtain ⟨q, s₁, hq, hp⟩ := bind_eq_ok.mp h
  have hs₁ : s₁.graph.OwnsLive := (extends_of_ok hq).ownsLive hs
  exact ⟨q, s₁, hq, (extends_of_ok hp).packageFrom? hs₁ (packageFrom?_of_packageBelow hs hq),
    packageFrom?_of_packageBelow hs₁ hp⟩

/-- A search that fails does so where a package would have been made. -/
lemma packageBelow_error (h : s.graph.packageFrom? n path = .error f) :
    packageBelow n path s = .error (.graph f) s := by
  induction path generalizing n with
  | nil => cases h
  | cons x xs ih =>
    rw [packageFrom?] at h
    unfold packageBelow
    cases hchild : s.graph.childOfKind? n (some x) .package with
    | error e =>
      rw [hchild] at h
      obtain rfl : e = f := Except.error.inj h
      exact bind_failed (by simp [query, hchild])
    | ok found =>
      rw [hchild, except_ok_bind] at h
      rw [bind_run (query_ok hchild)]
      cases found with
      | none => cases h
      | some q => exact ih h

/-- Where a path comes to an end, all that is missing is made. -/
lemma packageBelow_missing (hs : s.graph.Linked) (h : s.graph.packageFrom? n path = .ok none) :
    ∃ found missing home p t, path = found ++ missing ∧
      s.graph.packageFrom? n found = .ok (some home) ∧
      (∀ xs m, xs <+: path → s.graph.packageFrom? n xs = .ok (some m) → xs <+: found) ∧
      packageBelow n path s = .ok p t ∧ s.Lengthened home missing p t := by
  have hn : s.graph.isLive n = true := by
    cases path with
    | nil => cases h
    | cons x xs =>
      rw [packageFrom?, except_bind_eq_ok] at h
      obtain ⟨found, hfound, -⟩ := h
      obtain ⟨r, hr, -⟩ := childOfKind?_eq_ok hfound
      exact isLive_of_node? hr
  obtain ⟨p, t, hrun, found, missing, home, rfl, hfound, hnone, hnests⟩ := packageBelow_ok hn path
  obtain ⟨x, xs, rfl⟩ : ∃ x xs, missing = x :: xs := by
    cases missing with
    | nil =>
      rw [List.append_nil, hfound] at h
      cases h
    | cons x xs => exact ⟨x, xs, rfl⟩
  have hchild := hnone x (by simp)
  obtain ⟨r, hr, -⟩ := childOfKind?_eq_ok hchild
  obtain ⟨hchain, hlast, hrest⟩ :=
    hnests.lengthened hr (hs.next_not_mem hr .owned) (by simp)
  have hkeeps : Obeys (UnitState.Relates KeepsProfile) (packageBelow n (found ++ x :: xs)) :=
    inferInstance
  refine ⟨found, x :: xs, home, p, t, rfl, hfound, ?_, hrun, hchain, (hkeeps.ends s).ok hrun, hlast,
    hrest⟩
  intro ys m hys hm
  rcases List.prefix_or_prefix_of_prefix hys (List.prefix_append found (x :: xs)) with hpre | hpre
  · exact hpre
  · obtain ⟨_ | ⟨z, zs⟩, rfl⟩ := hpre
    · simp
    · obtain ⟨rfl, -⟩ : z = x ∧ zs <+: xs := by simpa using hys
      obtain ⟨home', hfound', hm⟩ := packageFrom?_append.mp hm
      obtain rfl : home = home' := Option.some.inj (Except.ok.inj (hfound.symm.trans hfound'))
      obtain ⟨q, hq, -⟩ := packageFrom?_cons.mp hm
      cases hchild.symm.trans hq

/-- What making a path leaves is linked, and the root is what it was. -/
lemma linked_of_packageBelow (hs : s.graph.Linked) (hroot : s.graph.kind? root ≠ some .package)
    (h : packageBelow root path s = .ok p t) :
    t.graph.Linked ∧ t.graph.kind? root ≠ some .package := by
  by_cases hlive : s.graph.isLive root = true
  · obtain ⟨p', t', hrun, hcompletes⟩ := packageBelow_ok hlive path
    cases h.symm.trans hrun
    obtain ⟨r, hr⟩ := isLive_iff.mp hlive
    obtain ⟨r', hr', hk, -⟩ := (extends_of_ok h).node hr
    refine ⟨(hcompletes.sound hs hlive).1, ?_⟩
    rwa [kind?_eq hr', hk, ← kind?_eq hr]
  · cases path with
    | nil =>
      cases h
      exact ⟨hs, hroot⟩
    | cons x xs =>
      obtain ⟨found, _, hfound, -⟩ := bind_eq_ok.mp h
      obtain ⟨r, hr, -⟩ := childOfKind?_eq_ok (query_eq_ok.mp hfound).1
      exact absurd (isLive_of_node? hr) hlive

end ImportM

/-- Looking for a package changes nothing. Making one gives what is found; where a path comes to an
end, a chain of packages is made for what is missing, nothing else changes, and what has been made
is found from then on. The root is the model, which is no package: no call makes it one
(`Mutation.kind?_root_applyAll`). -/
theorem packages_agree {s : UnitState} (hs : s.graph.Coherent)
    (hroot : s.graph.kind? root ≠ some .package) (name : String) :
    finalState (ImportM.query (·.package? name) s) = s ∧
      (∀ p, s.graph.package? name = .ok (some p) → ImportM.getPackage name s = .ok p s) ∧
      (s.graph.package? name = .ok none → ∃ found missing home p t,
        QualifiedName.segments name = found ++ missing ∧
        s.graph.packageFrom? root found = .ok (some home) ∧
        (∀ xs m, xs <+: QualifiedName.segments name →
          s.graph.packageFrom? root xs = .ok (some m) → xs <+: found) ∧
        ImportM.getPackage name s = .ok p t ∧ s.Lengthened home missing p t) ∧
      (∀ f, s.graph.package? name = .error f → s.graph.isLive root = false ∧
        ImportM.getPackage name s = .error (.graph f) s) ∧
      (∀ p t, ImportM.getPackage name s = .ok p t →
        t.graph.package? name = .ok (some p) ∧ ImportM.getPackage name t = .ok p t) ∧
      (':' ∉ name.toList →
        s.graph.package? (QualifiedName.colons name) = s.graph.package? name ∧
        ImportM.getPackage (QualifiedName.colons name) s = ImportM.getPackage name s) ∧
      ((∀ c ∈ name.toList, Text.isBlank c = false) →
        (∀ more p t, ImportM.getPackage (name ++ "." ++ more) s = .ok p t → ∃ q s₁,
          ImportM.getPackage name s = .ok q s₁ ∧ ImportM.getPackage name t = .ok q t ∧
          t.graph.Below q p ∧ (QualifiedName.segments more ≠ [] → q ≠ p)) ∧
        ∀ x xs p t, QualifiedName.segments name = x :: xs →
          ImportM.getPackage name s = .ok p t → ∃ m s₁,
            ImportM.getPackage x s = .ok m s₁ ∧ ImportM.getPackage x t = .ok m t ∧
            t.graph.outermost p = .ok m) := by
  have hlinked := hs.toLinked
  have howns : s.graph.OwnsLive := Intact.ownsLive hlinked.intact
  refine ⟨?_, fun p hp => ImportM.packageBelow_found hp,
    fun hnone => ImportM.packageBelow_missing hlinked hnone, ?_, ?_, ?_, ?_⟩
  · cases hfound : s.graph.package? name <;> simp [ImportM.query, hfound, finalState]
  · intro f hf
    refine ⟨?_, ImportM.packageBelow_error hf⟩
    by_contra hlive
    obtain ⟨p, t, hrun, -⟩ := ImportM.packageBelow_ok (by simpa using hlive) _
    cases hrun.symm.trans (ImportM.packageBelow_error hf)
  · intro p t h
    have hfound := ImportM.packageFrom?_of_packageBelow howns h
    exact ⟨hfound, ImportM.packageBelow_found hfound⟩
  · intro hcolon
    have hsame := QualifiedName.segments_colons hcolon
    simp only [Graph.package?, ImportM.getPackage, hsame, and_self]
  · intro hblank
    constructor
    · intro more p t h
      obtain ⟨rest, hsegments, hmore⟩ := QualifiedName.segments_extended hblank more
      obtain ⟨hlinked', hroot'⟩ := ImportM.linked_of_packageBelow hlinked hroot h
      rw [ImportM.getPackage, hsegments] at h
      obtain ⟨q, s₁, hq, hq', hp⟩ := ImportM.packageBelow_appended howns h
      exact ⟨q, s₁, hq, ImportM.packageBelow_found hq', hlinked'.below_of_packageFrom? hp,
        fun hne => hlinked'.ne_of_packageFrom? hroot' hq' hp (hmore hne)⟩
    · intro x xs p t hsegments h
      have hx := QualifiedName.segments_segment hblank (hsegments ▸ List.mem_cons_self)
      obtain ⟨hlinked', hroot'⟩ := ImportM.linked_of_packageBelow hlinked hroot h
      rw [ImportM.getPackage, hsegments, ← List.singleton_append] at h
      obtain ⟨m, s₁, hm, hm', hp⟩ := ImportM.packageBelow_appended howns h
      obtain ⟨m', hchild, hlast⟩ := packageFrom?_cons.mp hm'
      obtain rfl : m' = m := Option.some.inj (Except.ok.inj hlast)
      refine ⟨m', s₁, ?_, ?_, hlinked'.outermost hroot' hchild hp⟩
      · rwa [ImportM.getPackage, hx]
      · rw [ImportM.getPackage, hx]
        exact ImportM.packageBelow_found hm'

/-- In the root, a class and two packages have the first name, and in the first of these packages a
class has the second. -/
theorem packages_agree_of_namesakes :
    let calls : List Mutation := [.create .classType (some "a") (some root),
      .create .package (some "a") (some root), .create .package (some "a") (some root),
      .create .classType (some "b") (some 5)]
    let s := UnitState.start referringUnit
      { graph := Mutation.applyAll calls (.new "m" ⟨"p", ["long"], []⟩) }
    s.graph.Coherent ∧ s.graph.kind? root = some .model ∧
      s.graph.package? "a.b.c" = .ok none ∧
      ∃ t, ImportM.getPackage "a.b.c" s = .ok 9 t ∧ s.Lengthened 5 ["b", "c"] 9 t ∧
        t.graph.package? "a.b.c" = .ok (some 9) ∧ ImportM.getPackage "a.b.c" t = .ok 9 t ∧
        ImportM.getPackage (QualifiedName.colons "a.b.c") s = .ok 9 t ∧
        ImportM.getPackage "a" t = .ok 5 t ∧ t.graph.Below 5 9 ∧ t.graph.outermost 9 = .ok 5 := by
  intro calls s
  have ha : Mutation.Admissible (.new "m" ⟨"p", ["long"], []⟩) calls := by decide +kernel
  have hs : s.graph.Coherent := (Mutation.grown_applyAll (coherent_new _ _) calls ha).coherent
  have hroot : s.graph.kind? root = some .model := by decide +kernel
  have hnone : s.graph.package? "a.b.c" = .ok none := by decide +kernel
  have hsegments : QualifiedName.segments "a.b.c" = ["a", "b", "c"] := by decide +kernel
  have hone : s.graph.packageFrom? root ["a"] = .ok (some 5) := by decide +kernel
  have htwo : s.graph.packageFrom? root (["a"] ++ ["b"]) = .ok none := by decide +kernel
  have hnext : s.graph.next = 8 := by decide +kernel
  have ha₁ : s.graph.package? "a" = .ok (some 5) := by decide +kernel
  have hmodel : s.graph.kind? root ≠ some .package := by
    intro hk
    have hkind := Mutation.kind?_root_applyAll "m" ⟨"p", ["long"], []⟩ calls hk
    cases hkind
  clear_value s
  obtain ⟨-, -, hmissing, -, hafter, hcolons, hplain⟩ := packages_agree hs hmodel "a.b.c"
  obtain ⟨found, missing, home, p, t, hsplit, hfound, hlongest, hrun, hlength⟩ := hmissing hnone
  rw [hsegments] at hsplit hlongest
  obtain ⟨rest, rfl⟩ := hlongest ["a"] 5 (List.prefix_append ["a"] _) hone
  obtain ⟨rfl, rfl⟩ : rest = [] ∧ missing = ["b", "c"] := by
    cases rest with
    | nil => exact ⟨rfl, by simpa using hsplit.symm⟩
    | cons y ys =>
      obtain ⟨rfl, -⟩ : "b" = y ∧ ["c"] = ys ++ missing := by simpa using hsplit
      rw [← List.singleton_append (l := ys), ← List.append_assoc] at hfound
      obtain ⟨q, hq, -⟩ := packageFrom?_append.mp hfound
      cases htwo.symm.trans hq
  obtain rfl : home = 5 := by
    cases hfound.symm.trans hone
    rfl
  obtain rfl : p = 9 := by
    have hlast := hlength.last
    rw [upcoming, hnext] at hlast
    exact (Option.some.inj hlast).symm
  obtain ⟨hagain, hstays⟩ := hafter 9 t hrun
  obtain ⟨m, s₁, hm, hm', hout⟩ := (hplain (by simp [Text.isBlank])).2 "a" ["b", "c"] 9 t hsegments hrun
  obtain ⟨-, hfind, -, -, -, -, hshort⟩ := packages_agree hs hmodel "a"
  have hfive := hfind 5 ha₁
  obtain ⟨rfl, rfl⟩ : m = 5 ∧ s₁ = s := by
    cases hm.symm.trans hfive
    exact ⟨rfl, rfl⟩
  obtain ⟨q, s₂, hq, -, hbelow, -⟩ := (hshort (by simp [Text.isBlank])).1 "b.c" 9 t hrun
  obtain rfl : q = 5 := by
    cases hq.symm.trans hfive
    rfl
  exact ⟨hs, hroot, hnone, t, hrun, hlength, hagain, hstays, (hcolons (by decide)).2.trans hrun, hm',
    hbelow, hout⟩

end DeclGraph
