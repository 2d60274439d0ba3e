import DeclGraph.Proofs.Import.Resolution

/-! When names mean built-in types. The open classifiers, the packages around and the imported
packages come before the profile. The classifiers that are imported by name do not. -/

namespace DeclGraph

open DeclGraph.Graph

variable {g g₀ : Graph} {m n : NodeId} {r : Node} {simple name title : String} {profile : Profile}
  {mode : ResolveMode} {policy : UnresolvedPolicy} {context : String} {chain : ContextChain}
  {package : Option NodeId} {spaces way : List NodeId} {u : UnitContext} {s t : UnitState}

namespace Graph

/-- A match is among the classifiers that `n` owns. -/
def Offers (g : Graph) (n : NodeId) (simple : String) (mode : ResolveMode) : Prop :=
  ∃ m ∈ g.classifiersIn n, ∃ r, g.node? m = some r ∧ fits simple mode r = true

lemma firstIn_eq_some (h : g.firstIn simple mode spaces = some m) :
    ∃ n ∈ spaces, m ∈ g.classifiersIn n ∧ ∃ r, g.node? m = some r ∧ fits simple mode r = true := by
  obtain ⟨n, hn, hfind⟩ := List.exists_of_findSome?_eq_some h
  exact ⟨n, hn, findIn_eq_some hfind⟩

lemma firstIn_eq_none :
    g.firstIn simple mode spaces = none ↔ ∀ n ∈ spaces, ¬g.Offers n simple mode := by
  constructor
  · rintro h n hn ⟨m, hm, r, hr, hfits⟩
    have hnone := List.findSome?_eq_none_iff.mp h n hn
    have := List.find?_eq_none.mp hnone m hm
    simp [hr, hfits] at this
  · intro h
    apply Option.eq_none_iff_forall_ne_some.mpr
    intro m hm
    obtain ⟨n, hn, hin, hfits⟩ := firstIn_eq_some hm
    exact h n hn ⟨m, hin, hfits⟩

lemma firstIn_append {more : List NodeId} : g.firstIn simple mode (spaces ++ more) =
    (g.firstIn simple mode spaces).or (g.firstIn simple mode more) :=
  List.findSome?_append

/-- A search that comes to an end has seen what is before the match, and need not have seen more. -/
lemma searchNamespaces_ok {found : Option NodeId}
    (h : g.searchNamespaces simple mode spaces = .ok found) :
    g.firstIn simple mode spaces = found := by
  induction spaces with
  | nil => exact Except.ok.inj h
  | cons n rest ih =>
    rw [searchNamespaces] at h
    obtain ⟨_, howned, h⟩ := except_bind_eq_ok.mp h
    obtain ⟨r, hr, rfl⟩ := ownedElements_eq_ok howned
    rw [findIn_owned hr] at h
    rw [firstIn, List.findSome?_cons]
    cases hfind : g.findIn (g.classifiersIn n) (fits simple mode) with
    | some m =>
      rw [hfind] at h
      exact Except.ok.inj h
    | none =>
      rw [hfind] at h
      exact ih h

lemma searchClassifiers_ok (h : g.searchClassifiers simple mode spaces = .ok (some n)) :
    ∃ r, g.node? n = some r ∧ fits simple mode r = true := by
  induction spaces with
  | nil => exact absurd (Except.ok.inj h) (by simp)
  | cons m rest ih =>
    rw [searchClassifiers] at h
    obtain ⟨r, hr, h⟩ := except_bind_eq_ok.mp h
    split_ifs at h with hfits
    · obtain rfl := Option.some.inj (Except.ok.inj h)
      exact ⟨r, get_eq_ok.mp hr, hfits⟩
    · exact ih h

/-- What a look-up finds is the first match in the namespaces, or they have none. -/
lemma lookup_ok (h : g.lookup chain simple mode = .ok (some n)) :
    (∃ r, g.node? n = some r ∧ fits simple mode r = true) ∧
      (g.firstIn simple mode chain.namespaces = some n ∨
        g.firstIn simple mode chain.namespaces = none) := by
  unfold lookup at h
  obtain ⟨found, hsearch, h⟩ := except_bind_eq_ok.mp h
  have hfirst : g.firstIn simple mode chain.namespaces = found := by
    rw [← searchNamespaces_ok hsearch, firstIn, firstIn, findSome?_eraseDups]
  rw [hfirst]
  cases found with
  | some m =>
    obtain rfl := Option.some.inj (Except.ok.inj h)
    obtain ⟨-, -, -, hfits⟩ := firstIn_eq_some hfirst
    exact ⟨hfits, Or.inl rfl⟩
  | none => exact ⟨searchClassifiers_ok h, Or.inr rfl⟩

/-- A match in the namespaces is found, whatever the classifiers are. -/
lemma lookup_of_firstIn (hns : ∀ n ∈ chain.namespaces, g.isLive n = true)
    (h : g.firstIn simple mode chain.namespaces = some n) :
    g.lookup chain simple mode = .ok (some n) := by
  have hsearch : g.searchNamespaces simple mode chain.namespaces.eraseDups = .ok (some n) := by
    rw [searchNamespaces_eq fun m hm => hns m (List.mem_eraseDups.mp hm), firstIn,
      findSome?_eraseDups]
    exact congrArg _ h
  rw [lookup, hsearch]
  rfl

namespace Secludes

lemma outside_of_mem_classifiersIn (h : g₀.Secludes g) (hn : g₀.Outside n)
    (hm : m ∈ g.classifiersIn n) : g₀.Outside m := by
  obtain ⟨r, hr⟩ : ∃ r, g.node? n = some r := by
    apply isLive_iff.mp
    by_contra hdead
    simp [classifiersIn_of_not_isLive hdead] at hm
  rw [classifiersIn_eq hr] at hm
  exact h.apart hn hr m (Node.mem_kin_of_child (s := .owned) (List.mem_filter.mp hm).1)

/-- The classifiers in the profile are its data types. -/
lemma builtIn (h : (new title profile).Secludes g) (hg : g.Linked)
    (hn : (new title profile).inProfile n = .ok true) (hr : g.node? n = some r)
    (hk : r.kind.isClassifier = true) :
    r.kind = .dataType ∧ n ∈ g.classifiersIn profilePackage := by
  have hnew := installing_new title profile
  have hr₀ := (h.node hn).symm.trans hr
  have hroot : n ≠ root := (inProfile_new.mp hn).2
  have hpackage : n ≠ profilePackage := by
    rintro rfl
    obtain ⟨_, hp⟩ := hnew.package_node
    obtain rfl := Option.some.inj (hp.symm.trans hr₀)
    cases hk
  obtain ⟨kind, x, baseClasses, hkind, rfl⟩ := hnew.content hr₀ hroot hpackage
  refine ⟨?_, hg.mem_classifiersIn.mpr ⟨_, hr, rfl, hk⟩⟩
  rcases hkind with rfl | rfl
  · rfl
  · cases hk

/-- A built-in type is found only if none of the spaces outside has a match. -/
lemma lookup_builtIn (h : (new title profile).Secludes g) (hg : g.Linked)
    (hspaces : ∀ space ∈ spaces, (new title profile).Outside space) {classifiers : List NodeId}
    (hlookup : g.lookup { namespaces := spaces ++ [profilePackage], classifiers } simple mode =
      .ok (some n)) (hn : (new title profile).inProfile n = .ok true) :
    g.kind? n = some .dataType ∧ (∀ space ∈ spaces, ¬g.Offers space simple mode) ∧
      g.firstIn simple mode [profilePackage] = some n := by
  obtain ⟨⟨r, hr, hfits⟩, hfirst⟩ := lookup_ok hlookup
  have hk : r.kind.isClassifier = true := by
    simp only [fits, Bool.and_eq_true] at hfits
    exact ResolveMode.isClassifier_of_accepts hfits.2
  obtain ⟨hdata, hin⟩ := h.builtIn hg hn hr hk
  -- the profile has a match, so the search does not go on to the classifiers
  have hprofile : g.firstIn simple mode [profilePackage] ≠ none := fun hnone =>
    firstIn_eq_none.mp hnone profilePackage (List.mem_singleton_self _) ⟨n, hin, r, hr, hfits⟩
  rw [firstIn_append] at hfirst
  have hnone : g.firstIn simple mode spaces = none := by
    apply Option.eq_none_iff_forall_ne_some.mpr
    intro m hm
    rw [hm, Option.some_or] at hfirst
    obtain rfl : m = n := by simpa using hfirst
    obtain ⟨space, hspace, hin, -⟩ := firstIn_eq_some hm
    have hout := h.outside_of_mem_classifiersIn (hspaces space hspace) hin
    exact hout.not_inProfile hn
  rw [hnone, Option.none_or] at hfirst
  exact ⟨(kind?_eq hr).trans (congrArg _ hdata), firstIn_eq_none.mp hnone,
    hfirst.resolve_right hprofile⟩

end Secludes

end Graph

/-- Units look for names outside the profile first. -/
lemma UnitState.Secluded.outside_spaces (h : s.Secluded g₀)
    (ha : s.graph.Ascends s.scopes.package way) :
    ∀ n ∈ s.scopes.enclosing ++ way ++ s.scopes.importedPackages, g₀.Outside n := by
  simp only [List.mem_append]
  rintro n ((hn | hn) | hn)
  · obtain ⟨scope, hscope, hclassifier⟩ := List.mem_filterMap.mp hn
    exact h.opened hscope n (by simp [ScopeFrame.members, hclassifier])
  · exact h.graph.outside_way h.package ha n hn
  · exact h.imported hn

namespace ImportM

/-- What a name resolves to was found or has just been made. -/
lemma resolveWith_found {s' : UnitState}
    (hcontext : contextFor name s = .ok (chain, simple, package) s')
    (h : resolveWith u policy name mode context s = .ok (some n) t) :
    (t = s' ∧ s'.graph.lookup chain simple mode = .ok (some n)) ∨
      forceCreate simple mode package context s' = .ok n t := by
  unfold resolveWith at h
  rw [bind_run hcontext] at h
  obtain ⟨found, s'', hlookup, h⟩ := bind_eq_ok.mp h
  obtain ⟨hlookup, rfl⟩ := query_eq_ok.mp hlookup
  cases found with
  | some m =>
    obtain ⟨hm, rfl⟩ := EStateM.Result.ok.inj h
    exact Or.inl ⟨rfl, hlookup.trans (congrArg _ hm)⟩
  | none =>
    right
    cases policy with
    | fail => cases h
    | warn =>
      obtain ⟨-, -, -, h⟩ := bind_eq_ok.mp h
      cases h
    | force =>
      obtain ⟨m, t', hforce, h⟩ := bind_eq_ok.mp h
      obtain ⟨hm, rfl⟩ := EStateM.Result.ok.inj h
      obtain rfl := Option.some.inj hm
      exact hforce

lemma resolveWith_lookup {s' : UnitState}
    (hcontext : contextFor name s = .ok (chain, simple, package) s')
    (h : s'.graph.lookup chain simple mode = .ok (some n)) :
    resolveWith u policy name mode context s = .ok (some n) s' := by
  have hlookup : query (·.lookup chain simple mode) s' = .ok (some n) s' := query_ok h
  unfold resolveWith
  rw [bind_run hcontext]
  dsimp only
  rw [bind_run hlookup]
  rfl

end ImportM

/-- An unqualified name means a built-in type only where no open classifier, no package from the
current one up to the root and no imported package has a match. Then it does mean the first match in
the profile, also where the unit has imported a match by its name. -/
theorem builtIn_without_offer (h : s.Reached u)
    (hsplit : QualifiedName.split name = ("", simple)) (mode : ResolveMode)
    (policy : UnresolvedPolicy) (context : String) :
    ∃ way, s.graph.Ascends s.scopes.package way ∧ way.getLast? = some root ∧
      (∀ n t, ImportM.resolveWith u policy name mode context s = .ok (some n) t →
        t.graph.inProfile n = .ok true →
        t = s ∧ s.graph.kind? n = some .dataType ∧
          (∀ space ∈ s.scopes.enclosing ++ way ++ s.scopes.importedPackages,
            ¬s.graph.Offers space simple mode) ∧
          s.graph.firstIn simple mode [profilePackage] = some n) ∧
      ∀ n, (∀ p ∈ s.scopes.importedPackages, s.graph.isLive p = true) →
        (∀ space ∈ s.scopes.enclosing ++ way ++ s.scopes.importedPackages,
          ¬s.graph.Offers space simple mode) →
        s.graph.firstIn simple mode [profilePackage] = some n →
        ImportM.resolveWith u policy name mode context s = .ok (some n) s := by
  have hs := h.framed
  obtain ⟨way, ha, hlast⟩ := h.ascends_package
  have hcontext := h.contextFor_run hsplit ha hlast
  refine ⟨way, ha, hlast, ?_, ?_⟩
  · intro n t hrun hn
    obtain ⟨title, profile, hsec⟩ := h.secluded
    obtain ⟨rfl, hlookup⟩ | hforce := ImportM.resolveWith_found hcontext hrun
    · exact ⟨rfl, hsec.graph.lookup_builtIn hs.graph.toLinked (hsec.outside_spaces ha) hlookup
        ((hsec.graph.sameProfile.inProfile n).mp hn)⟩
    · have hmakes : Yields (UnitState.Secluded (new title profile))
          (ImportM.forceCreate simple mode none context) _ :=
        ImportM.yields_forceCreate simple mode (by simp) context
      have hends := hmakes.ends s hsec
      rw [hforce] at hends
      obtain ⟨hout, ht⟩ := hends
      exact absurd ((ht.graph.sameProfile.inProfile n).mp hn) hout.not_inProfile
  · intro n himported hspaces hn
    have hfirst : s.graph.firstIn simple mode (s.scopes.enclosing ++ way ++
        s.scopes.importedPackages ++ [profilePackage]) = some n := by
      rw [firstIn_append, firstIn_eq_none.mpr hspaces, Option.none_or, hn]
    exact ImportM.resolveWith_lookup hcontext
      (lookup_of_firstIn (h.spaces_live ha himported) hfirst)

/-- A unit in its first pass. -/
def declaringUnit : UnitContext := { name := "p.idl", pass := .skeleton }

/-- A class of the name of a built-in type. -/
def declaredNamesake : UnitState :=
  [.addComponent, .enterPackage "p", .addClass "string" {} none [] none, .popClassifier].foldl
    (UnitCall.after declaringUnit)
    (.start declaringUnit { graph := .new "m" ⟨"idl", ["string"], []⟩ })

/-- Another unit imports the class. -/
def importedNamesake : UnitState :=
  [.addComponent, .addImport "p.string"].foldl (UnitCall.after referringUnit)
    (.start referringUnit declaredNamesake.toStore)

lemma reached_importedNamesake : importedNamesake.Reached referringUnit := by
  have hfresh : Imported (fun _ => True)
      ({ graph := .new "m" ⟨"idl", ["string"], []⟩ } : Store).graph :=
    .fresh "m" ⟨"idl", ["string"], []⟩
  have hdeclared : declaredNamesake.Reached declaringUnit := .calls (.first _ hfresh) _
  exact .calls (.next _ hdeclared rfl) _

lemma scopes_importedNamesake :
    importedNamesake.scopes.enclosing = [] ∧ importedNamesake.scopes.importedPackages = [] ∧
      importedNamesake.graph.Ascends importedNamesake.scopes.package [root] := by
  refine ⟨by decide +kernel, by decide +kernel, ?_⟩
  have hpackage : importedNamesake.scopes.package = root := by decide +kernel
  obtain ⟨hnode, howner⟩ : (importedNamesake.graph.node? root).isSome = true ∧
      (importedNamesake.graph.node? root).bind (·.owner) = none := by
    decide +kernel
  obtain ⟨r, hr⟩ := Option.isSome_iff_exists.mp hnode
  rw [hr] at howner
  rw [hpackage]
  exact .top hr howner

/-- No scope of the unit has a `string`, so the name means the built-in type. -/
theorem builtIn_without_offer_of_namesake :
    importedNamesake.Reached referringUnit ∧ QualifiedName.split "string" = ("", "string") ∧
      importedNamesake.graph.firstIn "string" .any [root] = none ∧
      importedNamesake.graph.firstIn "string" .any [profilePackage] = some 3 ∧
      ImportM.resolveWith referringUnit .force "string" .any "a field" importedNamesake =
        .ok (some 3) importedNamesake := by
  have hs := reached_importedNamesake
  have hsplit : QualifiedName.split "string" = ("", "string") := by decide +kernel
  have hroot : importedNamesake.graph.firstIn "string" .any [root] = none := by decide +kernel
  have hprofile : importedNamesake.graph.firstIn "string" .any [profilePackage] = some 3 := by
    decide +kernel
  obtain ⟨henclosing, hpackages, ha⟩ := scopes_importedNamesake
  obtain ⟨way, hway, -, -, hrun⟩ := builtIn_without_offer hs hsplit .any .force "a field"
  obtain rfl := hway.unique ha
  refine ⟨hs, hsplit, hroot, hprofile, hrun 3 (by simp [hpackages]) ?_ hprofile⟩
  simpa [henclosing, hpackages] using firstIn_eq_none.mp hroot

/-- The class that the unit has imported by its name is not what the name means there. -/
theorem builtIn_hides_import :
    importedNamesake.Reached referringUnit ∧ QualifiedName.split "string" = ("", "string") ∧
      importedNamesake.scopes.importedClassifiers = [6] ∧
      (importedNamesake.graph.node? 6).any (fits "string" .any) = true ∧
      importedNamesake.graph.kind? 3 = some .dataType ∧
      importedNamesake.graph.inProfile 3 = .ok true ∧
      ImportM.resolveWith referringUnit .fail "string" .any "a field" importedNamesake =
        .ok (some 3) importedNamesake := by
  have hs := reached_importedNamesake
  have hsplit : QualifiedName.split "string" = ("", "string") := by decide +kernel
  obtain ⟨henclosing, hpackages, ha⟩ := scopes_importedNamesake
  have hfirst : importedNamesake.graph.firstIn "string" .any [root, profilePackage] = some 3 := by
    decide +kernel
  refine ⟨hs, hsplit, by decide +kernel, by decide +kernel, by decide +kernel, by decide +kernel,
    ?_⟩
  refine ImportM.resolveWith_lookup (hs.contextFor_run hsplit ha rfl)
    (lookup_of_firstIn (hs.spaces_live ha (by simp [hpackages])) ?_)
  simpa [henclosing, hpackages] using hfirst

end DeclGraph
