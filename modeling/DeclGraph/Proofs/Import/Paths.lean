import DeclGraph.Proofs.Graph.Growth
import DeclGraph.Proofs.Graph.Tidiness
import DeclGraph.Proofs.Import.Naming

/-! Packages by their paths. A path leads to one package, and no change that leaves packages where
they are makes it lead elsewhere. -/

namespace DeclGraph

namespace Graph

variable {g g' : Graph} {n m p q : NodeId} {r : Node} {k : NodeKind} {x : String}
  {xs ys : List String} {Δ : Growth}

/-- The package of a name in another one. -/
def HasPackage (g : Graph) (q : NodeId) (x : String) (p : NodeId) : Prop :=
  ∃ r, g.node? p = some r ∧ r.kind = .package ∧ r.owner = some q ∧ r.name = some x

lemma childOfKind?_live (hr : g.node? n = some r) (x : String) (k : NodeKind) :
    g.childOfKind? n (some x) k =
      .ok (g.findIn r.owned fun y => y.kind = k && y.name = some x) := by
  unfold childOfKind? ownedElements
  rw [get_of_node? hr]
  rfl

/-- What a search by kind and name finds is that and there. -/
lemma Linked.of_childOfKind? (h : g.Linked) (hp : g.childOfKind? q (some x) k = .ok (some p)) :
    ∃ r, g.node? p = some r ∧ r.kind = k ∧ r.owner = some q ∧ r.name = some x := by
  obtain ⟨rq, hrq, hfind⟩ := childOfKind?_eq_ok hp
  obtain ⟨hin, r, hr, hq⟩ := findIn_eq_some hfind.symm
  obtain ⟨r', hr', ho, -⟩ := (h.mem_children hrq .owned p).mp hin
  obtain rfl := Option.some.inj (hr.symm.trans hr')
  simp only [Bool.and_eq_true, decide_eq_true_eq] at hq
  exact ⟨r, hr, hq.1, ho, hq.2⟩

/-- What is looked for under its owner by a kind whose elements are told apart by their names. -/
lemma Tidy.childOfKind?_eq (h : g.Tidy) (hk : k.family? = some k)
    (hs : k.slot = .owned) (hc : k ≠ .classType) : g.childOfKind? q (some x) k = .ok (some p) ↔
      ∃ r, g.node? p = some r ∧ r.kind = k ∧ r.owner = some q ∧ r.name = some x := by
  have bears : ∀ {p r}, g.node? p = some r → r.kind = k → r.owner = some q → r.name = some x →
      g.Bears p (.place k (some q) (some x)) := fun hr hrk ho hname =>
    .record hr ⟨hrk ▸ hk, ho, hname, fun h => absurd h hc⟩
  refine ⟨h.of_childOfKind?, ?_⟩
  rintro ⟨r, hr, hrk, ho, hname⟩
  obtain ⟨rq, hrq⟩ := isLive_iff.mp (h.owner_live hr ho)
  have hlive := childOfKind?_live hrq x k
  cases hf : g.findIn rq.owned fun y => y.kind = k && y.name = some x with
  | none =>
    have hin := (h.mem_children hrq .owned p).mpr ⟨r, hr, ho, by rw [hrk, hs]⟩
    have := List.find?_eq_none.mp hf p hin
    simp [hr, hrk, hname] at this
  | some p' =>
    rw [hf] at hlive
    obtain ⟨r', hr', hrk', ho', hname'⟩ := h.of_childOfKind? hlive
    rw [hlive, h.keyed.unique (bears hr hrk ho hname) (bears hr' hrk' ho' hname')]

lemma Tidy.childOfKind?_package (h : g.Tidy) :
    g.childOfKind? q (some x) .package = .ok (some p) ↔ g.HasPackage q x p :=
  h.childOfKind?_eq rfl rfl (by decide)

lemma packageFrom?_cons : g.packageFrom? n (x :: xs) = .ok (some p) ↔
    ∃ q, g.childOfKind? n (some x) .package = .ok (some q) ∧
      g.packageFrom? q xs = .ok (some p) := by
  rw [packageFrom?, except_bind_eq_ok]
  constructor
  · rintro ⟨found, hf, h⟩
    cases found with
    | none => exact absurd (Except.ok.inj h) (by simp)
    | some q => exact ⟨q, hf, h⟩
  · rintro ⟨q, hf, h⟩
    exact ⟨some q, hf, h⟩

lemma packageFrom?_append : g.packageFrom? n (xs ++ ys) = .ok (some p) ↔
    ∃ q, g.packageFrom? n xs = .ok (some q) ∧ g.packageFrom? q ys = .ok (some p) := by
  induction xs generalizing n with
  | nil =>
    constructor
    · exact fun h => ⟨n, rfl, h⟩
    · rintro ⟨q, hq, h⟩
      obtain rfl : n = q := Option.some.inj (Except.ok.inj hq)
      exact h
  | cons x xs ih =>
    rw [List.cons_append, packageFrom?_cons]
    simp only [ih, packageFrom?_cons]
    constructor
    · rintro ⟨m, hm, q, hq, h⟩
      exact ⟨q, ⟨m, hm, hq⟩, h⟩
    · rintro ⟨q, ⟨m, hm, hq⟩, h⟩
      exact ⟨m, hm, q, hq, h⟩

lemma Tidy.packageFrom?_snoc (h : g.Tidy) :
    g.packageFrom? n (xs ++ [x]) = .ok (some p) ↔
      ∃ q, g.packageFrom? n xs = .ok (some q) ∧ g.HasPackage q x p := by
  rw [packageFrom?_append]
  refine exists_congr fun q => and_congr_right fun _ => ?_
  rw [packageFrom?_cons]
  constructor
  · rintro ⟨q', hq, hp⟩
    obtain rfl : q' = p := Option.some.inj (Except.ok.inj hp)
    exact h.childOfKind?_package.mp hq
  · exact fun hp => ⟨p, h.childOfKind?_package.mpr hp, rfl⟩

/-- A package lies at the end of one path only. -/
lemma Tidy.packageFrom?_inj (h : g.Tidy)
    (hx : g.packageFrom? root xs = .ok (some p)) (hy : g.packageFrom? root ys = .ok (some p)) :
    xs = ys := by
  have not_root : ∀ {q x}, ¬g.HasPackage q x root := by
    rintro q x ⟨r, hr, -, ho, -⟩
    rw [h.root_owner hr] at ho
    exact absurd ho (by simp)
  induction xs using List.reverseRecOn generalizing ys p with
  | nil =>
    obtain rfl : root = p := Option.some.inj (Except.ok.inj hx)
    cases ys using List.reverseRecOn with
    | nil => rfl
    | append_singleton ys y =>
      obtain ⟨q, -, hq⟩ := h.packageFrom?_snoc.mp hy
      exact absurd hq not_root
  | append_singleton xs x ih =>
    obtain ⟨q, hq, r, hr, -, ho, hname⟩ := h.packageFrom?_snoc.mp hx
    cases ys using List.reverseRecOn with
    | nil =>
      obtain rfl : root = p := Option.some.inj (Except.ok.inj hy)
      rw [h.root_owner hr] at ho
      exact absurd ho (by simp)
    | append_singleton ys y =>
      obtain ⟨q', hq', r', hr', -, ho', hname'⟩ := h.packageFrom?_snoc.mp hy
      obtain rfl := Option.some.inj (hr.symm.trans hr')
      obtain rfl := Option.some.inj (ho.symm.trans ho')
      obtain rfl := Option.some.inj (hname.symm.trans hname')
      rw [ih hq hq']

/-- What a path leads to from the root is a package, or the root. -/
lemma Tidy.isPackage_of_packageFrom? (h : g.Tidy)
    (hp : g.packageFrom? root xs = .ok (some p)) : ∃ k, g.kind? p = some k ∧ k.isPackage = true := by
  cases xs using List.reverseRecOn with
  | nil =>
    obtain rfl : root = p := Option.some.inj (Except.ok.inj hp)
    exact ⟨_, h.root_kind, rfl⟩
  | append_singleton xs x =>
    obtain ⟨q, -, r, hr, hk, -⟩ := h.packageFrom?_snoc.mp hp
    exact ⟨_, kind?_eq hr, by rw [hk]; rfl⟩

namespace Gains

lemma hasPackage (h : g.Gains Δ g') (hp : g.HasPackage q x p) : g'.HasPackage q x p := by
  obtain ⟨r, hr, hk, ho, hname⟩ := hp
  obtain ⟨r', hr', hk', ho', hname'⟩ :=
    (h.stays (kind?_eq hr) (by rw [hk]; rfl)).node hr
  exact ⟨r', hr', hk'.trans hk, ho'.trans ho, hname'.trans hname⟩

lemma hasPackage_back (h : g.Gains Δ g') (hp : g'.HasPackage q x p) (hl : g.isLive p = true) :
    g.HasPackage q x p := by
  obtain ⟨r', hr', hk', ho', hname'⟩ := hp
  obtain ⟨r, hr⟩ := isLive_iff.mp hl
  have hk : r.kind = .package := by rw [← h.kind (kind?_eq hr) (kind?_eq hr'), hk']
  obtain ⟨r'', hr'', -, ho, hname⟩ := (h.stays (kind?_eq hr) (by rw [hk]; rfl)).node hr
  obtain rfl := Option.some.inj (hr'.symm.trans hr'')
  exact ⟨r, hr, hk, ho ▸ ho', hname ▸ hname'⟩

variable (h : g.Gains Δ g') (hg : g.Tidy) (hg' : g'.Tidy)
include h hg hg'

lemma packageFrom? (hp : g.packageFrom? root xs = .ok (some p)) :
    g'.packageFrom? root xs = .ok (some p) := by
  induction xs using List.reverseRecOn generalizing p with
  | nil => exact hp
  | append_singleton xs x ih =>
    obtain ⟨q, hq, hx⟩ := hg.packageFrom?_snoc.mp hp
    exact hg'.packageFrom?_snoc.mpr ⟨q, ih hq, h.hasPackage hx⟩

/-- A package that was there lies where it lay. -/
lemma packageFrom?_back (hp : g'.packageFrom? root xs = .ok (some p)) (hl : g.isLive p = true) :
    g.packageFrom? root xs = .ok (some p) := by
  induction xs using List.reverseRecOn generalizing p with
  | nil => exact hp
  | append_singleton xs x ih =>
    obtain ⟨q, hq, hx⟩ := hg'.packageFrom?_snoc.mp hp
    have hx := h.hasPackage_back hx hl
    obtain ⟨r, hr, -, ho, -⟩ := id hx
    exact hg.packageFrom?_snoc.mpr ⟨q, ih hq (hg.owner_live hr ho), hx⟩

end Gains

end Graph

end DeclGraph
