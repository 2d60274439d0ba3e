import DeclGraph.Proofs.Graph.Construction
import DeclGraph.Proofs.Graph.Persistence
import DeclGraph.Proofs.Import.Performance

/-! What looking up and resolving names does: packages are made on the way, and classifiers where
the policy says so. -/

namespace DeclGraph

open DeclGraph.Graph

namespace Graph

variable {g : Graph} {n : NodeId} {k : NodeKind}

lemma findIn_eq_some {ns : List NodeId} {q : Node → Bool} (h : g.findIn ns q = some n) :
    n ∈ ns ∧ ∃ r, g.node? n = some r ∧ q r = true := by
  refine ⟨List.mem_of_find?_eq_some h, ?_⟩
  simpa [Option.any_eq_true] using List.find?_some h

/-- What is owned by an element and kept in its general list. -/
lemma ownedElements_eq_ok {ns : List NodeId} (h : g.ownedElements n = .ok ns) :
    ∃ r, g.node? n = some r ∧ r.owned = ns := by
  unfold ownedElements get at h
  cases hr : g.node? n with
  | none => simp [hr] at h
  | some r =>
    simp only [hr] at h
    exact ⟨r, rfl, by simpa using h⟩

lemma childOfKind?_eq_ok {name : Option String} {found : Option NodeId}
    (h : g.childOfKind? n name k = .ok found) : ∃ r, g.node? n = some r ∧
      found = g.findIn r.owned fun x => x.kind = k && x.name = name := by
  unfold childOfKind? at h
  cases ho : g.ownedElements n with
  | error e => simp [ho] at h
  | ok ns =>
    obtain ⟨r, hr, rfl⟩ := ownedElements_eq_ok ho
    simp only [ho] at h
    exact ⟨r, hr, by simpa using h.symm⟩

lemma lookup_namespaces {simple : String} {mode : ResolveMode} {ns : List NodeId}
    (h : g.searchNamespaces simple mode ns = .ok (some n)) :
    ∃ r, g.node? n = some r ∧ fits simple mode r = true := by
  induction ns with
  | nil => simp [searchNamespaces] at h
  | cons m ns ih =>
    obtain ⟨owned, _, h⟩ := except_bind_eq_ok.mp h
    split at h
    · rename_i found hf
      obtain rfl := Option.some.inj (Except.ok.inj h)
      exact (findIn_eq_some hf).2
    · exact ih h

lemma lookup_classifiers {simple : String} {mode : ResolveMode} {ns : List NodeId}
    (h : g.searchClassifiers simple mode ns = .ok (some n)) :
    ∃ r, g.node? n = some r ∧ fits simple mode r = true := by
  induction ns with
  | nil => simp [searchClassifiers] at h
  | cons m ns ih =>
    obtain ⟨r, hr, h⟩ := except_bind_eq_ok.mp h
    split_ifs at h with hf
    · obtain rfl := Option.some.inj (Except.ok.inj h)
      exact ⟨r, get_eq_ok.mp hr, hf⟩
    · exact ih h

/-- What a scope stack opens goes up to the root. -/
lemma root_mem_scopeNamespaces {scopes : ScopeStack} {ns : List NodeId}
    (h : g.scopeNamespaces scopes = .ok ns) : root ∈ ns := by
  obtain ⟨above, _, h⟩ := except_bind_eq_ok.mp h
  obtain rfl := Except.ok.inj h
  split_ifs with hroot
  · exact hroot
  · simp

/-- What a look-up finds is a classifier of the name that the mode accepts. -/
lemma lookup_eq_ok {simple : String} {mode : ResolveMode} {chain : ContextChain}
    (h : g.lookup chain simple mode = .ok (some n)) :
    ∃ r, g.node? n = some r ∧ r.name = some simple ∧ mode.accepts r.kind = true := by
  have hfits : ∃ r, g.node? n = some r ∧ fits simple mode r = true := by
    obtain ⟨found, hs, h⟩ := except_bind_eq_ok.mp h
    cases found with
    | some m =>
      obtain rfl := Option.some.inj (Except.ok.inj h)
      exact lookup_namespaces hs
    | none => exact lookup_classifiers h
  simpa [fits] using hfits

/-- A namespace that was searched in vain owns nothing that fits. -/
lemma searchNamespaces_eq_none {simple : String} {mode : ResolveMode} {ns : List NodeId}
    (h : g.searchNamespaces simple mode ns = .ok none) (hn : n ∈ ns) :
    ∃ r, g.node? n = some r ∧ g.findIn r.owned (fits simple mode) = none := by
  induction ns with
  | nil => cases hn
  | cons m ns ih =>
    obtain ⟨owned, hm, h⟩ := except_bind_eq_ok.mp h
    split at h
    · cases h
    · rename_i hnone
      rcases List.mem_cons.mp hn with rfl | hn
      · obtain ⟨r, hr, rfl⟩ := ownedElements_eq_ok hm
        exact ⟨r, hr, hnone⟩
      · exact ih h hn

/-- After a look-up in vain there is nothing of the name that the mode accepts in the namespaces
that it went through. -/
lemma Sound.unmet_of_lookup (hg : g.Sound) {simple : String} {mode : ResolveMode}
    {chain : ContextChain} (h : g.lookup chain simple mode = .ok none) (hn : n ∈ chain.namespaces)
    (hacc : mode.accepts k = true) (hslot : k.slot = .owned) :
    g.Unmet { kind := k, name := some simple, owner := some n } := by
  obtain ⟨found, hs, hfound⟩ := except_bind_eq_ok.mp h
  cases found with
  | some m => cases hfound
  | none =>
    obtain ⟨r, hr, hnone⟩ := searchNamespaces_eq_none hs (List.mem_eraseDups.mpr hn)
    rintro m x hx ho hname rfl
    have hmem : m ∈ r.owned := (hg.mem_children hr .owned m).mpr ⟨x, hx, ho, hslot⟩
    have hfits : fits simple mode x = true := by
      rw [fits, hname, hacc, decide_eq_true rfl]
      rfl
    exact List.find?_eq_none.mp hnone m hmem (by rw [hx]; exact hfits)

end Graph

lemma ResolveMode.isClassifier_of_accepts {mode : ResolveMode} {k : NodeKind}
    (h : mode.accepts k = true) : k.isClassifier = true := by
  revert h
  cases mode <;> cases k <;> decide

namespace ImportM

variable {s : UnitState} {u : UnitContext} {n : NodeId} {k : NodeKind}

lemma performs_packageBelow (segments : List String) (h : s.graph.Sound)
    (hn : s.graph.kind? n = some k) (hk : k.isPackage = true) :
    Performs (.within u [.package] []) s (packageBelow n segments s) fun p s' =>
      s.SameUnit s' ∧ ∃ k, s'.graph.kind? p = some k ∧ k.isPackage = true := by
  induction segments generalizing n k s with
  | nil => exact Performs.answer ⟨.refl s, k, hn, hk⟩
  | cons segment rest ih =>
    have next : ∀ p t, t.graph.Sound → s.SameUnit t → (∃ k, t.graph.kind? p = some k ∧ k.isPackage = true) →
        Performs (.within u [.package] []) t (packageBelow p rest t) fun p s' =>
          s.SameUnit s' ∧ ∃ k, s'.graph.kind? p = some k ∧ k.isPackage = true :=
      fun p t ht hu ⟨k, hp, hk⟩ => (ih ht hp hk).imp fun q t' ⟨hu', hq⟩ => ⟨hu.trans hu', hq⟩
    unfold packageBelow
    refine bind_query fun found hf => ?_
    obtain ⟨r, hr, rfl⟩ := childOfKind?_eq_ok hf
    cases hfind : s.graph.findIn r.owned fun x => x.kind = .package && x.name = some segment with
    | some p =>
      obtain ⟨_, rp, hrp, hq⟩ := findIn_eq_some hfind
      have hkp : rp.kind = .package := by
        simp only [Bool.and_eq_true, decide_eq_true_eq] at hq
        exact hq.1
      exact next p s h (.refl s) ⟨_, kind?_eq hrp, by rw [hkp]; rfl⟩
    | none =>
      obtain ⟨g', hrun, hb⟩ := GraphM.create_under s.graph .package (some segment)
        (isLive_of_kind? hn)
      have hadd : s.graph.Addable { kind := .package, name := some segment, owner := some n } := by
        refine addable_of_role (fun s => by cases s <;> rfl)
          ⟨fun _ => ⟨rfl, rfl⟩, fun _ => ⟨rfl, rfl⟩, fun _ => rfl⟩ ?_ (fun _ => ⟨n, rfl⟩)
          (joins_of_endpoints rfl) rfl (by simp) rfl rfl
        rintro p hp
        exact ⟨k, Option.some.inj hp ▸ hn, hk⟩
      have hfree : s.graph.Free (.place .package (some n) (some segment)) := by
        apply h.free_place hr (k := .package) hfind
        intro x hx hname
        simp [NodeKind.eq_of_family? hx (by decide), hname]
      have hstep := h.build hadd rfl hb fun key hf => eq_place_of_fits rfl hf ▸ hfree
      refine bind_change hrun (hstep.permitted (by simp [Permit.within])) (bind_register (bind_emit ?_))
      exact next _ _ (h.step hstep) ⟨rfl, rfl⟩ ⟨_, hb.kind?_new, rfl⟩

lemma performs_getPackage (name : String) (h : s.graph.Sound) :
    Performs (.within u [.package] []) s (getPackage name s) fun p s' =>
      s.SameUnit s' ∧ ∃ k, s'.graph.kind? p = some k ∧ k.isPackage = true := by
  unfold getPackage
  exact performs_packageBelow _ h h.root_kind rfl

lemma contextFor_unqualified {name simple : String} (h : QualifiedName.split name = ("", simple)) :
    contextFor name = (do
      let namespaces ← scopeNamespaces
      let scopes := (← get).scopes
      return ({ namespaces := namespaces ++ scopes.importedPackages ++ [profilePackage]
                classifiers := scopes.importedClassifiers }, simple, none)) := by
  unfold contextFor
  rw [h]
  rfl

lemma contextFor_qualified {name q simple : String} (h : QualifiedName.split name = (q, simple))
    (hq : q ≠ "") : contextFor name = (do
      let package ← getPackage q
      return ({ namespaces := [package] }, simple, some package)) := by
  unfold contextFor
  rw [h]
  split
  · rename_i heq
    exact absurd (congrArg Prod.fst heq) hq
  · rename_i heq
    obtain ⟨rfl, rfl⟩ := Prod.mk.inj heq
    rfl

/-- The package that a name belongs to is among the namespaces where it is looked for, as is the
root if there is none. -/
lemma performs_contextFor (name : String) (h : s.graph.Sound) :
    Performs (.within u [.package] []) s (contextFor name s) fun c s' => s.SameUnit s' ∧
      (∀ p, c.2.2 = some p → ∃ k, s'.graph.kind? p = some k ∧ k.isPackage = true) ∧
      c.2.2.getD root ∈ c.1.namespaces := by
  rcases hsplit : QualifiedName.split name with ⟨q, simple⟩
  by_cases hq : q = ""
  · subst hq
    rw [contextFor_unqualified hsplit]
    unfold scopeNamespaces
    refine Performs.bind (Q := fun ns s' => s.SameUnit s' ∧ root ∈ ns) ?_ fun namespaces s' _ hu => ?_
    · refine Performs.bind_same (t := s) (a := s) rfl rfl ?_
      exact performs_query fun _ hns => ⟨.refl s, root_mem_scopeNamespaces hns⟩
    · refine Performs.bind_same (t := s') (a := s') rfl rfl ?_
      exact Performs.answer ⟨hu.1, by simp, by simp [hu.2]⟩
  · rw [contextFor_qualified hsplit hq]
    refine Performs.bind (performs_getPackage _ h) fun p s' _ hp => ?_
    exact Performs.answer ⟨hp.1, fun r hr => Option.some.inj hr ▸ hp.2, by simp⟩

/-- Making a placeholder. -/
lemma performs_forceCreate (simple : String) (mode : ResolveMode) {package : Option NodeId}
    (context : String) (h : s.graph.Sound) (hu : u.settings.unresolvedPolicy = .force)
    (hp : ∀ p, package = some p → ∃ k, s.graph.kind? p = some k ∧ k.isPackage = true)
    (hnone : ∀ {k}, mode.accepts k = true →
      s.graph.Unmet { kind := k, name := some simple, owner := some (package.getD root) }) :
    Performs (.within u [] []) s (forceCreate simple mode package context s) fun n s' =>
      s.SameUnit s' ∧ ∃ k, s'.graph.kind? n = some k ∧ mode.accepts k = true := by
  obtain ⟨kp, hk, hkp⟩ : ∃ k, s.graph.kind? (package.getD root) = some k ∧ k.isPackage = true := by
    cases package with
    | none => exact ⟨_, h.root_kind, rfl⟩
    | some p => exact hp p rfl
  obtain ⟨kind, hkind, hacc⟩ : ∃ kind : NodeKind,
      kind = (if mode = .interfaceOnly then .interfaceType else .classType) ∧
        mode.accepts kind = true := by
    refine ⟨_, rfl, ?_⟩
    cases mode <;> decide
  have hc := ResolveMode.isClassifier_of_accepts hacc
  have hrole : kind.role? = some .inner := NodeKind.role?_eq_inner.mpr hc
  have hmay : kp.mayOwn kind = true := by
    refine NodeKind.mayOwn_classifier (k := .classType) ?_ rfl hc
    revert hkp
    cases kp <;> decide
  obtain ⟨g₁, hrun₁, hb⟩ := GraphM.create_under s.graph kind (some simple) (isLive_of_kind? hk)
  have hadd : s.graph.Addable { kind, name := some simple, owner := some (package.getD root) } := by
    refine addable_member hk hmay hrole (by simp) fun hcp => absurd hcp ?_
    revert hkp
    cases kp <;> decide
  have htags : g₁.findIn ([] : List NodeId) (·.name = some generatedTag) = none := rfl
  obtain ⟨tv, hfind, _⟩ | ⟨_, g₂, hrun₂, hb₂⟩ :=
    GraphM.setTaggedValue_ok (h.toRegular.built hadd hb).toLinked hb.new_node generatedTag "true"
  · exact absurd (htags.symm.trans hfind) (by simp)
  · have hstep := Step.force hadd hc ⟨_, _, rfl, hk, hkp⟩ hb hb₂ (hnone hacc)
    have hkg : g₂.kind? s.graph.next = some kind := by
      rw [hb₂.kind?_old (isLive_of_node? hb.new_node), hb.kind?_new]
    unfold forceCreate
    rw [← hkind, bind_run (change_ok hrun₁), bind_run (change_ok hrun₂)]
    refine Performs.after_change ?_ (hstep.permitted hu)
    exact bind_register (bind_emit (Performs.answer ⟨⟨rfl, rfl⟩, kind, hkg, hacc⟩))

/-- Looking up the classifier that a name means. -/
lemma performs_resolve (name : String) (mode : ResolveMode) (context : String)
    (h : s.graph.Sound) : Performs (.within u [.package] []) s (resolve u name mode context s)
      fun found s' => s.SameUnit s' ∧
        ∀ n, found = some n → ∃ k, s'.graph.kind? n = some k ∧ mode.accepts k = true := by
  unfold resolve resolveWith
  refine Performs.bind (performs_contextFor name h) ?_
  rintro ⟨chain, simple, package⟩ t hs ⟨hu, hp, hmem⟩
  refine bind_query fun found hf => ?_
  cases found with
  | some n =>
    refine Performs.answer ⟨hu, fun m hm => ?_⟩
    obtain rfl := Option.some.inj hm
    obtain ⟨r, hr, _, hacc⟩ := lookup_eq_ok hf
    exact ⟨_, kind?_eq hr, hacc⟩
  | none =>
    cases hpol : u.settings.unresolvedPolicy with
    | fail => exact Performs.failure
    | warn =>
      exact Performs.bind (performs_warn u _ _) fun _ t' _ hu' =>
        Performs.answer ⟨hu.trans hu', by simp⟩
    | force =>
      have ht := h.steps hs
      refine Performs.bind ((performs_forceCreate simple mode context ht hpol hp fun hacc =>
        ht.unmet_of_lookup hf hmem hacc ?_).weaken
        (Permit.within_mono (by simp) (List.Subset.refl _))) fun n t' _ hn => ?_
      · have hc := ResolveMode.isClassifier_of_accepts hacc
        exact NodeKind.slot_of_family? (NodeKind.family?_eq_classType.mpr hc)
      exact Performs.answer ⟨hu.trans hn.1, fun m hm => Option.some.inj hm ▸ hn.2⟩

end ImportM

end DeclGraph
