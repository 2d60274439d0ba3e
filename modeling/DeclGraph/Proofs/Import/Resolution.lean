import DeclGraph.Proofs.Import.Meaning
import DeclGraph.Proofs.Import.Reachability

/-! What names resolve to. The first namespace from the innermost outwards that has a match decides,
whatever lies further out, and where there is none at all, the policy does. -/

namespace DeclGraph

open DeclGraph.Graph

variable {α β : Type} {g g' : Graph} {n m p q home : NodeId} {r : Node} {simple name x : String}
  {mode : ResolveMode} {spaces way : List NodeId} {path : List String} {u : UnitContext}
  {s t : UnitState}

/-- Elements that a search has nothing for can be left out of it. -/
lemma findSome?_filter {f : α → Option β} {keep : α → Bool} {l : List α}
    (h : ∀ a, keep a = false → f a = none) : (l.filter keep).findSome? f = l.findSome? f := by
  induction l with
  | nil => rfl
  | cons a l ih =>
    cases ha : keep a with
    | true => simp only [List.filter_cons, ha, if_true, List.findSome?_cons, ih]
    | false => simp [ha, h a ha, ih]

lemma findSome?_eraseDups [DecidableEq α] (f : α → Option β) :
    ∀ l : List α, l.eraseDups.findSome? f = l.findSome? f
  | [] => rfl
  | a :: l => by
    have hlen : (l.filter fun b => !b == a).length < (a :: l).length :=
      Nat.lt_succ_of_le (List.length_filter_le _ _)
    rw [List.eraseDups_cons, List.findSome?_cons, List.findSome?_cons]
    cases ha : f a with
    | some b => rfl
    | none =>
      have hskip : ∀ b, (!b == a) = false → f b = none := by
        intro b hb
        obtain rfl : b = a := by simpa using hb
        exact ha
      rw [findSome?_eraseDups f, findSome?_filter hskip]
termination_by l => l.length
decreasing_by exact hlen

namespace Graph

/-- The first match that the spaces own, and failing that the first one among the classifiers. -/
def sought? (g : Graph) (simple : String) (mode : ResolveMode) (spaces classifiers : List NodeId) :
    Option NodeId :=
  (g.firstIn simple mode spaces).or (g.findIn classifiers (fits simple mode))

lemma lookup_run {chain : ContextChain} (hns : ∀ n ∈ chain.namespaces, g.isLive n = true)
    (hcs : ∀ n ∈ chain.classifiers, g.isLive n = true) : g.lookup chain simple mode =
      .ok (g.sought? simple mode chain.namespaces chain.classifiers) := by
  rw [lookup_eq hns hcs, sought?, firstIn, firstIn, findSome?_eraseDups]

lemma isLive_of_packageFrom? (hn : g.isLive n = true)
    (h : g.packageFrom? n path = .ok (some p)) : g.isLive p = true := by
  induction path generalizing n with
  | nil =>
    obtain rfl : n = p := Option.some.inj (Except.ok.inj h)
    exact hn
  | cons x xs ih =>
    obtain ⟨q, hq, h⟩ := packageFrom?_cons.mp h
    obtain ⟨r, -, hfind⟩ := childOfKind?_eq_ok hq
    obtain ⟨-, rq, hrq, -⟩ := findIn_eq_some hfind.symm
    exact ih (isLive_of_node? hrq) h

/-- The way up from outside the profile stays outside. -/
lemma Secludes.outside_way {g₀ : Graph} (h : g₀.Secludes g) (hn : g₀.Outside n)
    (ha : g.Ascends n way) : ∀ m ∈ way, g₀.Outside m := by
  induction ha with
  | top =>
    intro m hm
    rwa [List.mem_singleton.mp hm]
  | up hr ho _ ih =>
    intro m hm
    rcases List.mem_cons.mp hm with rfl | hm
    · exact hn
    · exact ih (h.apart hn hr _ (Node.mem_kin_of_owner ho)) m hm

end Graph

namespace UnitState

/-- `t` is `s` with new packages, one in the other below `n` and `p` last. Each is registered. -/
inductive Nests : UnitState → NodeId → List String → NodeId → UnitState → Prop
  | nil (s : UnitState) (n : NodeId) : Nests s n [] n s
  | cons {s t : UnitState} {n p : NodeId} {x : String} {xs : List String} {g : Graph} :
      s.graph.Built { kind := .package, name := some x, owner := some n } g →
      Nests { s with graph := g, session := s.session.register s.graph.next,
                     log := .packageCreated x :: s.log } s.graph.next xs p t →
      Nests s n (x :: xs) p t

/-- `p` is the package at the end of a path from `n`, and `t` is `s` with as much of the path as was
missing. -/
def Completes (s : UnitState) (n : NodeId) (path : List String) (p : NodeId) (t : UnitState) :
    Prop :=
  ∃ found missing q, path = found ++ missing ∧ s.graph.packageFrom? n found = .ok (some q) ∧
    (∀ x ∈ missing.head?, s.graph.childOfKind? q (some x) .package = .ok none) ∧
    s.Nests q missing p t

lemma Nests.isLive (h : s.Nests n path p t) (hn : s.graph.isLive n = true) :
    t.graph.isLive p = true := by
  induction h with
  | nil => exact hn
  | cons hb _ ih => exact ih (isLive_of_node? hb.new_node)

lemma Nests.linked (h : s.Nests n path p t) (hs : s.graph.Linked) (hn : s.graph.isLive n = true) :
    t.graph.Linked := by
  induction h with
  | nil => exact hs
  | cons hb _ ih =>
    refine ih (hs.built hb (fun s => by cases s <;> rfl)
      ⟨fun _ => ⟨rfl, rfl⟩, fun _ => ⟨rfl, rfl⟩, fun _ => rfl⟩ ?_) (isLive_of_node? hb.new_node)
    simpa [Node.links] using hn

lemma Completes.sound (h : s.Completes n path p t) (hs : s.graph.Linked)
    (hn : s.graph.isLive n = true) : t.graph.Linked ∧ t.graph.isLive p = true := by
  obtain ⟨found, missing, q, rfl, hfound, -, hnests⟩ := h
  have hq := isLive_of_packageFrom? hn hfound
  exact ⟨hnests.linked hs hq, hnests.isLive hq⟩

/-- What resolving ends with where there is no match: an error, nothing and one warning more, or a
placeholder that is new, registered and marked. -/
def Unmatched (u : UnitContext) (policy : UnresolvedPolicy) (name simple : String)
    (mode : ResolveMode) (context : String) (home : NodeId) (t : UnitState)
    (result : EStateM.Result ImportError UnitState (Option NodeId)) : Prop :=
  match policy with
  | .fail => result = .error (.classifierNotFound name (some context)) t
  | .warn => ∃ log, result = .ok none { t with
      session := t.session.warn
        { message := "modeler cannot find classifier " ++ name ++ " for " ++ context
          code := some "unresolved", unit := some u.name }
      log }
  | .force => ∃ kind g₁ g₂ log, mode.accepts kind = true ∧
      t.graph.Built { kind, name := some simple, owner := some home } g₁ ∧
      g₁.Built { kind := .taggedValue, name := some generatedTag, owner := some t.graph.next,
                 value := some "true" } g₂ ∧
      result = .ok (some t.graph.next)
        { t with graph := g₂, session := t.session.register t.graph.next, log }

/-- What resolving a simple name in some spaces and among some classifiers ends with: the first
match and no change, if there is one. -/
def Resolves (u : UnitContext) (policy : UnresolvedPolicy) (name simple : String)
    (mode : ResolveMode) (context : String) (spaces classifiers : List NodeId) (home : NodeId)
    (t : UnitState) (result : EStateM.Result ImportError UnitState (Option NodeId)) : Prop :=
  match t.graph.sought? simple mode spaces classifiers with
  | some n => result = .ok (some n) t
  | none => t.Unmatched u policy name simple mode context home result

end UnitState

namespace ImportM

/-- In an element that owns nothing, all packages are missing. -/
lemma packageBelow_new (hr : s.graph.node? n = some r) (hnone : r.owned = []) (path : List String) :
    ∃ p t, packageBelow n path s = .ok p t ∧ s.Nests n path p t := by
  induction path generalizing n r s with
  | nil => exact ⟨n, s, rfl, .nil s n⟩
  | cons x xs ih =>
    have hmiss : query (·.childOfKind? n (some x) .package) s = .ok none s := by
      refine query_ok ((childOfKind?_live hr x .package).trans ?_)
      rw [hnone]
      rfl
    obtain ⟨g, hrun, hb⟩ := GraphM.create_under s.graph .package (some x) (isLive_of_node? hr)
    obtain ⟨p, t, hrest, hnests⟩ := ih (s := { s with
      graph := g, session := s.session.register s.graph.next,
      log := .packageCreated x :: s.log }) hb.new_node rfl
    refine ⟨p, t, ?_, .cons hb hnests⟩
    unfold packageBelow
    rw [bind_run hmiss]
    exact (bind_run (change_ok hrun)).trans hrest

lemma packageBelow_ok (hn : s.graph.isLive n = true) (path : List String) :
    ∃ p t, packageBelow n path s = .ok p t ∧ s.Completes n path p t := by
  induction path generalizing n with
  | nil => exact ⟨n, s, rfl, [], [], n, rfl, rfl, by simp, .nil s n⟩
  | cons x xs ih =>
    obtain ⟨r, hr⟩ := isLive_iff.mp hn
    have hchild := childOfKind?_live hr x .package
    cases hfind : s.graph.findIn r.owned fun y => y.kind = .package && y.name = some x with
    | some q =>
      rw [hfind] at hchild
      obtain ⟨-, rq, hrq, -⟩ := findIn_eq_some hfind
      obtain ⟨p, t, hrest, found, missing, q', rfl, hfound, hmissing, hnests⟩ :=
        ih (isLive_of_node? hrq)
      refine ⟨p, t, ?_, x :: found, missing, q', rfl,
        packageFrom?_cons.mpr ⟨q, hchild, hfound⟩, hmissing, hnests⟩
      unfold packageBelow
      rw [bind_run (query_ok hchild)]
      exact hrest
    | none =>
      rw [hfind] at hchild
      obtain ⟨g, hrun, hb⟩ := GraphM.create_under s.graph .package (some x) hn
      obtain ⟨p, t, hrest, hnests⟩ := packageBelow_new (s := { s with
        graph := g, session := s.session.register s.graph.next,
        log := .packageCreated x :: s.log }) hb.new_node rfl xs
      refine ⟨p, t, ?_, [], x :: xs, n, rfl, rfl, by simpa using hchild, .cons hb hnests⟩
      unfold packageBelow
      rw [bind_run (query_ok hchild)]
      exact (bind_run (change_ok hrun)).trans hrest

/-- Making a placeholder. -/
lemma forceCreate_ok (ht : t.graph.Linked) (simple : String) (mode : ResolveMode)
    {package : Option NodeId} (hp : t.graph.isLive (package.getD root) = true) (context : String) :
    ∃ kind g₁ g₂ log, mode.accepts kind = true ∧
      t.graph.Built { kind, name := some simple, owner := some (package.getD root) } g₁ ∧
      g₁.Built { kind := .taggedValue, name := some generatedTag, owner := some t.graph.next,
                 value := some "true" } g₂ ∧
      forceCreate simple mode package context t = .ok t.graph.next
        { t with graph := g₂, session := t.session.register t.graph.next, log } := by
  obtain ⟨kind, hkind, hacc⟩ : ∃ kind : NodeKind,
      kind = (if mode = .interfaceOnly then .interfaceType else .classType) ∧
        mode.accepts kind = true := by
    refine ⟨_, rfl, ?_⟩
    cases mode <;> decide
  obtain ⟨g₁, hrun₁, hb₁⟩ := GraphM.create_under t.graph kind (some simple) hp
  have hlinked : g₁.Linked := by
    refine ht.built hb₁ (fun s => by cases s <;> rfl)
      ⟨fun _ => ⟨rfl, rfl⟩, fun _ => ⟨rfl, rfl⟩, fun _ => rfl⟩ ?_
    simpa [Node.links] using hp
  have htags : g₁.findIn ([] : List NodeId) (·.name = some generatedTag) = none := rfl
  obtain ⟨tv, hfind, -⟩ | ⟨-, g₂, hrun₂, hb₂⟩ :=
    GraphM.setTaggedValue_ok hlinked hb₁.new_node generatedTag "true"
  · exact absurd (htags.symm.trans hfind) (by simp)
  · refine ⟨kind, g₁, g₂, .classifierForced kind.label simple context :: t.log, hacc, hb₁, hb₂, ?_⟩
    unfold forceCreate
    rw [← hkind, bind_run (change_ok hrun₁), bind_run (change_ok hrun₂)]
    rfl

/-- What resolving ends with once it is known where to look. -/
lemma resolveWith_run {chain : ContextChain} {package : Option NodeId}
    (hcontext : contextFor name s = .ok (chain, simple, package) t) (ht : t.graph.Linked)
    (hns : ∀ n ∈ chain.namespaces, t.graph.isLive n = true)
    (hcs : ∀ n ∈ chain.classifiers, t.graph.isLive n = true)
    (hp : t.graph.isLive (package.getD root) = true) (policy : UnresolvedPolicy)
    (context : String) :
    t.Resolves u policy name simple mode context chain.namespaces chain.classifiers
      (package.getD root) (resolveWith u policy name mode context s) := by
  have hlookup : query (·.lookup chain simple mode) t =
      .ok (t.graph.sought? simple mode chain.namespaces chain.classifiers) t :=
    query_ok (lookup_run hns hcs)
  unfold UnitState.Resolves resolveWith
  rw [bind_run hcontext]
  dsimp only
  rw [bind_run hlookup]
  cases t.graph.sought? simple mode chain.namespaces chain.classifiers with
  | some n => rfl
  | none =>
    cases policy with
    | fail => rfl
    | warn => exact ⟨_, rfl⟩
    | force =>
      obtain ⟨kind, g₁, g₂, log, hacc, hb₁, hb₂, hrun⟩ :=
        forceCreate_ok ht simple mode hp context
      refine ⟨kind, g₁, g₂, log, hacc, hb₁, hb₂, ?_⟩
      exact bind_run hrun

end ImportM

namespace UnitState.Reached

/-- The current package lies in the root. -/
lemma ascends_package (h : Reached u s) :
    ∃ way, s.graph.Ascends s.scopes.package way ∧ way.getLast? = some root := by
  have hs := h.framed
  obtain ⟨name, profile, hsec⟩ := h.secluded
  obtain ⟨k, hk, hp⟩ := hs.package
  obtain ⟨r, hr, rfl⟩ := kind?_eq_some.mp hk
  obtain ⟨way, ha, hlast | hlast⟩ :=
    hs.rooted.ascends hs.graph.toRegular hr (by rintro hc; rw [hc] at hp; cases hp)
  · exact ⟨way, ha, hlast⟩
  · have hout := hsec.graph.outside_way hsec.package ha _ (List.mem_of_getLast? hlast)
    exact absurd (inProfile_profilePackage _) hout.not_inProfile

lemma enclosing_live (h : Reached u s) : ∀ n ∈ s.scopes.enclosing, s.graph.isLive n = true := by
  intro n hn
  rw [h.framed.toNested.enclosing] at hn
  obtain ⟨k, hk, -⟩ := h.framed.isClassifier hn
  exact isLive_of_kind? hk

/-- Where an unqualified name is looked for. -/
lemma contextFor_run (h : Reached u s) (hsplit : QualifiedName.split name = ("", simple))
    (ha : s.graph.Ascends s.scopes.package way) (hlast : way.getLast? = some root) :
    ImportM.contextFor name s = .ok
      ({ namespaces := s.scopes.enclosing ++ way ++ s.scopes.importedPackages ++ [profilePackage]
         classifiers := s.scopes.importedClassifiers }, simple, none) s := by
  have hroot : root ∈ s.scopes.enclosing ++ way :=
    List.mem_append_right _ (List.mem_of_getLast? hlast)
  have hscopes := scopeNamespaces_of_ascends h.framed.graph ha
  rw [if_pos hroot] at hscopes
  rw [ImportM.contextFor_unqualified hsplit]
  have hrun : ImportM.query (·.scopeNamespaces s.scopes) s =
      .ok (s.scopes.enclosing ++ way) s := ImportM.query_ok hscopes
  have hspaces : ImportM.scopeNamespaces s = .ok (s.scopes.enclosing ++ way) s := hrun
  exact bind_run hspaces

lemma spaces_live (h : Reached u s) (ha : s.graph.Ascends s.scopes.package way)
    (himported : ∀ n ∈ s.scopes.importedPackages, s.graph.isLive n = true) :
    ∀ n ∈ s.scopes.enclosing ++ way ++ s.scopes.importedPackages ++ [profilePackage],
      s.graph.isLive n = true := by
  obtain ⟨rp, hrp, -⟩ := h.framed.rooted.profile
  simp only [List.mem_append, List.mem_singleton]
  rintro n (((hn | hn) | hn) | rfl)
  · exact h.enclosing_live n hn
  · exact ha.live n hn
  · exact himported n hn
  · exact isLive_of_node? hrp

end UnitState.Reached

/-- A name resolves to the first match from the innermost open classifier outwards: through the
current package and those around it up to the root, then the imported packages, then the profile, and
last among the classifiers imported by name. A qualified name resolves in its package alone, of which
as much as is missing is made before. A match changes nothing else, and without one the policy says
what comes of it. -/
theorem resolve_innermost_first (h : s.Reached u)
    (himported : ∀ n, n ∈ s.scopes.importedPackages ∨ n ∈ s.scopes.importedClassifiers →
      s.graph.isLive n = true)
    (name : String) (mode : ResolveMode) (policy : UnresolvedPolicy) (context : String) :
    (∀ simple, QualifiedName.split name = ("", simple) →
      ∃ way, s.graph.Ascends s.scopes.package way ∧ way.getLast? = some root ∧
        s.Resolves u policy name simple mode context
          (s.scopes.enclosing ++ way ++ s.scopes.importedPackages ++ [profilePackage])
          s.scopes.importedClassifiers root (ImportM.resolveWith u policy name mode context s)) ∧
    (∀ qualifier simple, QualifiedName.split name = (qualifier, simple) → qualifier ≠ "" →
      ∃ p t, s.Completes root (QualifiedName.segments qualifier) p t ∧
        t.Resolves u policy name simple mode context [p] [] p
          (ImportM.resolveWith u policy name mode context s)) := by
  have hs := h.framed
  have hroot : s.graph.isLive root = true := hs.graph.root_live
  constructor
  · intro simple hsplit
    obtain ⟨way, ha, hlast⟩ := h.ascends_package
    exact ⟨way, ha, hlast, ImportM.resolveWith_run (h.contextFor_run hsplit ha hlast)
      hs.graph.toLinked (h.spaces_live ha fun n hn => himported n (Or.inl hn))
      (fun n hn => himported n (Or.inr hn)) hroot policy context⟩
  · intro qualifier simple hsplit hq
    obtain ⟨p, t, hrun, hcompletes⟩ :=
      ImportM.packageBelow_ok hroot (QualifiedName.segments qualifier)
    obtain ⟨hlinked, hp⟩ := hcompletes.sound hs.graph.toLinked hroot
    refine ⟨p, t, hcompletes, ?_⟩
    have hcontext : ImportM.contextFor name s = .ok ({ namespaces := [p] }, simple, some p) t := by
      rw [ImportM.contextFor_qualified hsplit hq]
      exact bind_run hrun
    exact ImportM.resolveWith_run hcontext hlinked (by simpa using hp) (by simp) hp policy context

/-- A unit in its second pass. -/
def referringUnit : UnitContext := { name := "x.idl", pass := .references }

/-- A class in a class of a package, both packages and classes with other classes of that name
around. -/
def shadowingCalls : List UnitCall :=
  [.addComponent, .addImport "q.*", .enterPackage "p", .addClass "A" {} none [] none,
    .popClassifier, .addClass "B" {} none [] none, .addClass "A" {} none [] none, .popClassifier]

/-- From inside `B`, the name `A` means the class in `B`, not the one in the package or the data type
of the profile; with the package in front, it means the former. -/
theorem resolve_innermost_first_of_shadows :
    let s := shadowingCalls.foldl (UnitCall.after referringUnit)
      (.start referringUnit { graph := .new "m" ⟨"p", ["A"], []⟩ })
    s.Reached referringUnit ∧
      (∀ n, n ∈ s.scopes.importedPackages ∨ n ∈ s.scopes.importedClassifiers →
        s.graph.isLive n = true) ∧
      ImportM.resolveWith referringUnit .fail "A" .any "a field" s = .ok (some 13) s ∧
      ∃ p t, s.Completes root ["p"] p t ∧ t.Resolves referringUnit .fail "p.A" "A" .any "a field"
        [p] [] p (ImportM.resolveWith referringUnit .fail "p.A" .any "a field" s) := by
  intro s
  have hfresh : Imported (fun _ => True)
      ({ graph := .new "m" ⟨"p", ["A"], []⟩ } : Store).graph := .fresh "m" ⟨"p", ["A"], []⟩
  have hs : s.Reached referringUnit := .calls (.first _ hfresh) _
  have hpackages : s.scopes.importedPackages = [5] := by decide +kernel
  have hclassifiers : s.scopes.importedClassifiers = [] := by decide +kernel
  have hlive : s.graph.isLive 5 = true := by decide +kernel
  have hopen : s.scopes.enclosing = [11] := by decide +kernel
  have hinner : s.graph.findIn (s.graph.classifiersIn 11) (fits "A" .any) = some 13 := by
    decide +kernel
  clear_value s
  have himported : ∀ n, n ∈ s.scopes.importedPackages ∨ n ∈ s.scopes.importedClassifiers →
      s.graph.isLive n = true := by
    simpa [hpackages, hclassifiers] using hlive
  refine ⟨hs, himported, ?_, ?_⟩
  · obtain ⟨way, -, -, h⟩ :=
      (resolve_innermost_first hs himported "A" .any .fail "a field").1 "A" (by decide +kernel)
    have hsought : s.graph.sought? "A" .any
        (s.scopes.enclosing ++ way ++ s.scopes.importedPackages ++ [profilePackage])
        s.scopes.importedClassifiers = some 13 := by
      simp [sought?, firstIn, hopen, hinner]
    simpa only [UnitState.Resolves, hsought] using h
  · exact (resolve_innermost_first hs himported "p.A" .any .fail "a field").2 "p" "A"
      (by decide +kernel) (by decide)

end DeclGraph
