import DeclGraph.Proofs.Graph.Ascent
import DeclGraph.Proofs.Import.Paths
import DeclGraph.Proofs.Import.Scoping

/-! What names mean in a graph. Resolving a name gives its meaning, and a meaning does not change
as long as no classifier comes, goes or moves. -/

namespace DeclGraph

open DeclGraph.Graph

/-- What a scope consists of is there. -/
structure ScopeStack.Anchored (σ : ScopeStack) (g : Graph) : Prop where
  package : ∃ k, g.kind? σ.package = some k ∧ k.isPackage = true
  spaces : ∀ n, n ∈ σ.enclosing ∨ n ∈ σ.importedPackages →
    ∃ k, g.kind? n = some k ∧ k.isSpace = true
  classifiers : ∀ n ∈ σ.importedClassifiers, ∃ k, g.kind? n = some k ∧ k.isClassifier = true

namespace Graph

variable {g g' : Graph} {n p q : NodeId} {r : Node} {k : NodeKind} {x : String}
  {xs ys : List String} {Δ : Growth}

/-! Classifiers in scopes -/

variable {simple : String} {mode : ResolveMode} {ns : List NodeId} {σ : ScopeStack} {name : String}

/-- The first fitting classifier that one of the namespaces owns. -/
def firstIn (g : Graph) (simple : String) (mode : ResolveMode) (ns : List NodeId) :
    Option NodeId :=
  ns.findSome? fun n => g.findIn (g.classifiersIn n) (fits simple mode)

/-- The package of a qualified name, if there is one. -/
def packageNamed? (g : Graph) (qualifier : String) : Option NodeId :=
  (g.package? qualifier).toOption.join

lemma packageNamed?_eq_some : g.packageNamed? x = some p ↔
    g.packageFrom? root (QualifiedName.segments x) = .ok (some p) := by
  unfold packageNamed? package?
  cases g.packageFrom? root (QualifiedName.segments x) <;> simp [Except.toOption]

/-- The classifier that a name means in a scope. -/
def meaning? (g : Graph) (σ : ScopeStack) (name : String) (mode : ResolveMode) : Option NodeId :=
  match QualifiedName.split name with
  | ("", simple) =>
    let spaces := (g.scopeNamespaces σ).toOption.getD [] ++ σ.importedPackages ++ [profilePackage]
    (g.firstIn simple mode spaces.eraseDups).or
      (g.findIn σ.importedClassifiers (fits simple mode))
  | (qualifier, simple) => (g.packageNamed? qualifier).bind fun p => g.firstIn simple mode [p]

lemma findIn_congr {q : Node → Bool} (h : ∀ m ∈ ns, (g'.node? m).any q = (g.node? m).any q) :
    g'.findIn ns q = g.findIn ns q := by
  unfold findIn
  induction ns with
  | nil => rfl
  | cons n ns ih => simp only [List.find?_cons, h n (by simp), ih fun m hm => h m (by simp [hm])]

/-- What fits is a classifier. -/
lemma findIn_owned (hr : g.node? n = some r) (simple : String) (mode : ResolveMode) :
    g.findIn r.owned (fits simple mode) = g.findIn (g.classifiersIn n) (fits simple mode) := by
  rw [classifiersIn_eq hr, findIn, findIn, List.find?_filter]
  congr 1
  funext m
  cases hm : g.node? m with
  | none => simp
  | some x =>
    rw [kind?_eq hm]
    cases hx : fits simple mode x with
    | false => simp [hx]
    | true =>
      have : x.kind.isClassifier = true := by
        simp only [fits, Bool.and_eq_true] at hx
        exact ResolveMode.isClassifier_of_accepts hx.2
      simp [hx, this]

lemma searchNamespaces_eq (hns : ∀ n ∈ ns, g.isLive n = true) :
    g.searchNamespaces simple mode ns = .ok (g.firstIn simple mode ns) := by
  induction ns with
  | nil => rfl
  | cons n ns ih =>
    obtain ⟨r, hr⟩ := isLive_iff.mp (hns n (by simp))
    have howned : g.ownedElements n = .ok r.owned := by
      unfold ownedElements
      rw [get_of_node? hr]
      rfl
    rw [searchNamespaces, howned, except_ok_bind, findIn_owned hr, firstIn, List.findSome?_cons]
    cases g.findIn (g.classifiersIn n) (fits simple mode) with
    | some m => rfl
    | none => exact ih fun m hm => hns m (by simp [hm])

lemma searchClassifiers_eq (hns : ∀ n ∈ ns, g.isLive n = true) :
    g.searchClassifiers simple mode ns = .ok (g.findIn ns (fits simple mode)) := by
  induction ns with
  | nil => rfl
  | cons n ns ih =>
    obtain ⟨r, hr⟩ := isLive_iff.mp (hns n (by simp))
    rw [searchClassifiers, get_of_node? hr, except_ok_bind, findIn, List.find?_cons, hr]
    cases hx : fits simple mode r with
    | true =>
      simp only [Option.any_some, hx, if_true]
      rfl
    | false =>
      simp only [Bool.false_eq_true, if_false, Option.any_some, hx]
      exact ih fun m hm => hns m (by simp [hm])

lemma lookup_eq {chain : ContextChain} (hns : ∀ n ∈ chain.namespaces, g.isLive n = true)
    (hcs : ∀ n ∈ chain.classifiers, g.isLive n = true) : g.lookup chain simple mode =
      .ok ((g.firstIn simple mode chain.namespaces.eraseDups).or
        (g.findIn chain.classifiers (fits simple mode))) := by
  unfold lookup
  rw [searchNamespaces_eq fun n hn => hns n (List.mem_eraseDups.mp hn), except_ok_bind]
  cases g.firstIn simple mode chain.namespaces.eraseDups with
  | some n => rfl
  | none => exact searchClassifiers_eq hcs

/-! Ways up from packages -/

variable {chain : List NodeId}

lemma Sound.isPackage_of_owner (h : g.Sound) (hr : g.node? n = some r)
    (hk : r.kind.isPackage = true) (ho : r.owner = some p) :
    ∃ k, g.kind? p = some k ∧ k.isPackage = true := by
  obtain ⟨rp, hrp, hmay⟩ := h.mayOwn hr ho
  refine ⟨_, kind?_eq hrp, ?_⟩
  revert hk hmay
  cases r.kind <;> simp [NodeKind.isPackage, NodeKind.mayOwn]

lemma Ascends.isPackage (h : g.Ascends n chain) (hg : g.Sound) (hk : g.kind? n = some k)
    (hp : k.isPackage = true) : ∀ m ∈ chain, ∃ k, g.kind? m = some k ∧ k.isPackage = true := by
  induction h generalizing k with
  | top =>
    intro m hm
    obtain rfl := List.mem_singleton.mp hm
    exact ⟨k, hk, hp⟩
  | up hr ho _ ih =>
    intro m hm
    rcases List.mem_cons.mp hm with rfl | hm
    · exact ⟨k, hk, hp⟩
    · rw [kind?_eq hr] at hk
      obtain ⟨k', hk', hp'⟩ := hg.isPackage_of_owner hr (Option.some.inj hk ▸ hp) ho
      exact ih hk' hp' m hm

lemma Gains.ascends (h : g.Gains Δ g') (hg : g.Sound) (hk : g.kind? n = some k)
    (hp : k.isPackage = true) (ha : g.Ascends n chain) : g'.Ascends n chain := by
  induction ha generalizing k with
  | top hr ho =>
    obtain ⟨r', hr', -, ho', -⟩ := (h.stays hk (by simp [NodeKind.isSpace, hp])).node hr
    exact .top hr' (ho'.trans ho)
  | up hr ho _ ih =>
    obtain ⟨r', hr', -, ho', -⟩ := (h.stays hk (by simp [NodeKind.isSpace, hp])).node hr
    rw [kind?_eq hr] at hk
    obtain ⟨k', hk', hp'⟩ := hg.isPackage_of_owner hr (Option.some.inj hk ▸ hp) ho
    exact .up hr' (ho'.trans ho) (ih hk' hp')

lemma scopeNamespaces_of_ascends (hg : g.Sound) (ha : g.Ascends σ.package chain) :
    g.scopeNamespaces σ = .ok (if root ∈ σ.enclosing ++ chain then σ.enclosing ++ chain
      else σ.enclosing ++ chain ++ [root]) := by
  unfold Graph.scopeNamespaces
  rw [ha.namespacesWithin hg.root_owner (ha.length_le.trans (Nat.le_succ _))]
  rfl

/-- The spaces of a scope, which are the same in all graphs that packages and classifiers stay in. -/
lemma Rooted.scopeNamespaces (h : g.Rooted) (hg : g.Sound) (hσ : σ.Anchored g) :
    ∃ ns, (∀ {Δ g'}, g.Gains Δ g' → g'.Sound → g'.scopeNamespaces σ = .ok ns) ∧
      ∀ n ∈ ns, ∃ k, g.kind? n = some k ∧ k.isSpace = true := by
  obtain ⟨k, hk, hp⟩ := hσ.package
  obtain ⟨r, hr, rfl⟩ := kind?_eq_some.mp hk
  obtain ⟨chain, ha, -⟩ := h.ascends hg.toRegular hr (by rintro hc; rw [hc] at hp; cases hp)
  refine ⟨_, fun hgains hg' => scopeNamespaces_of_ascends hg' (hgains.ascends hg hk hp ha),
    fun n hn => ?_⟩
  have hroot : ∃ k, g.kind? root = some k ∧ k.isSpace = true := ⟨_, hg.root_kind, rfl⟩
  have hchain : n ∈ chain → ∃ k, g.kind? n = some k ∧ k.isSpace = true := fun hn =>
    (ha.isPackage hg hk hp n hn).imp fun k h => ⟨h.1, by simp [NodeKind.isSpace, h.2]⟩
  split_ifs at hn <;> simp only [List.mem_append, List.mem_singleton] at hn
  · exact hn.elim (fun hn => hσ.spaces n (Or.inl hn)) hchain
  · rcases hn with (hn | hn) | rfl
    exacts [hσ.spaces n (Or.inl hn), hchain hn, hroot]

/-! Meanings stay -/

lemma Gains.fits_eq (h : g.Gains Δ g') (hk : g.kind? n = some k) (hc : k.isClassifier = true) :
    (g'.node? n).any (fits simple mode) = (g.node? n).any (fits simple mode) := by
  obtain ⟨r, hr, rfl⟩ := kind?_eq_some.mp hk
  obtain ⟨r', hr', hk', -, hname⟩ :=
    (h.stays (kind?_eq hr) (by simp [NodeKind.isSpace, hc])).node hr
  simp [hr, hr', fits, hk', hname]

lemma Gains.firstIn (h : g.Gains Δ g') (hg : g.Linked) (hΔ : Δ.classifiers = []) :
    g'.firstIn simple mode ns = g.firstIn simple mode ns := by
  unfold Graph.firstIn
  congr 1
  funext n
  rw [h.classifiers, Growth.under_nil hΔ, List.append_nil]
  refine findIn_congr fun m hm => ?_
  obtain ⟨x, hx, -, hc⟩ := hg.mem_classifiersIn.mp hm
  exact h.fits_eq (kind?_eq hx) hc

/-- A name keeps its meaning as long as no classifier comes. -/
lemma Gains.meaning? (h : g.Gains Δ g') (hg : g.Tidy) (hg' : g'.Tidy) (hΔ : Δ.classifiers = []) (hσ : σ.Anchored g) :
    g'.meaning? σ name mode = g.meaning? σ name mode := by
  have hfirst : ∀ {simple ns}, g'.firstIn simple mode ns = g.firstIn simple mode ns :=
    h.firstIn hg.toLinked hΔ
  unfold Graph.meaning?
  rcases QualifiedName.split name with ⟨q, simple⟩
  by_cases hq : q = ""
  · subst hq
    obtain ⟨ns, hns, -⟩ := hg.rooted.scopeNamespaces hg.toSound hσ
    have hcs : g'.findIn σ.importedClassifiers (fits simple mode) =
        g.findIn σ.importedClassifiers (fits simple mode) := by
      refine findIn_congr fun m hm => ?_
      obtain ⟨k, hkm, hc⟩ := hσ.classifiers m hm
      exact h.fits_eq hkm hc
    simp only [hns h hg'.toSound, hns (.refl g) hg.toSound, hfirst, hcs]
  simp only [hfirst]
  cases hp : g.packageNamed? q with
  | some p =>
    rw [packageNamed?_eq_some] at hp
    rw [packageNamed?_eq_some.mpr (h.packageFrom? hg hg' hp)]
  | none =>
    -- a package that is new has no classifiers, since all others lie where they lay
    cases hp' : g'.packageNamed? q with
    | none => rfl
    | some p =>
      have hdead : ¬g.isLive p = true := fun hl => by
        have := h.packageFrom?_back hg hg' (packageNamed?_eq_some.mp hp') hl
        exact absurd (hp.symm.trans (packageNamed?_eq_some.mpr this)) (by simp)
      simp [Graph.firstIn, classifiersIn_of_not_isLive hdead, findIn]

end Graph

end DeclGraph
