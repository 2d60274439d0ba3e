import DeclGraph.Proofs.Import.Addition
import DeclGraph.Proofs.Import.Resolution

/-! Resolving a name gives no other meaning to the qualified names that have one. Elements are added
behind those that a namespace owns, so what is found first there is found first for good. -/

namespace DeclGraph

open DeclGraph.Graph

namespace QualifiedName

/-- Writes every dot as a pair of colons. -/
def colonized (s : List Char) : List Char :=
  s.flatMap fun c => if c = '.' then [':', ':'] else [c]

/-- A name with pairs of colons for its dots. -/
def colons (name : String) : String := String.ofList (colonized name.toList)

lemma reverse_colonized (s : List Char) : (colonized s).reverse = colonized s.reverse := by
  unfold colonized
  rw [List.reverse_flatMap]
  congr 1
  funext c
  rw [Function.comp_apply]
  split_ifs <;> rfl

section trim

variable {p : Char → Bool} (hdot : p '.' = false) (hcolon : p ':' = false)
include hdot hcolon

lemma dropWhile_colonized (s : List Char) :
    (colonized s).dropWhile p = colonized (s.dropWhile p) := by
  induction s with
  | nil => rfl
  | cons c s ih =>
    by_cases hc : c = '.'
    · simp [colonized, hc, hdot, hcolon]
    · unfold colonized at ih ⊢
      cases hp : p c <;> simp [hc, hp, ih]

lemma trim_colonized (s : List Char) : Text.trim p (colonized s) = colonized (Text.trim p s) := by
  unfold Text.trim
  rw [dropWhile_colonized hdot hcolon, reverse_colonized, dropWhile_colonized hdot hcolon,
    reverse_colonized]

end trim

lemma dotted_cons {c : Char} (hc : c ≠ ':') (s : List Char) : dotted (c :: s) = c :: dotted s := by
  rw [dotted]
  rintro rest rfl
  exact fun _ => hc rfl

lemma dotted_colonized {s : List Char} (h : ':' ∉ s) : dotted (colonized s) = dotted s := by
  induction s with
  | nil => rfl
  | cons c s ih =>
    simp only [List.mem_cons, not_or] at h
    have hc : c ≠ ':' := Ne.symm h.1
    rw [dotted_cons hc, ← ih h.2]
    by_cases hdot : c = '.'
    · subst hdot
      rfl
    · have hcons : colonized (c :: s) = c :: colonized s := by simp [colonized, hdot]
      rw [hcons, dotted_cons hc]

/-- In a name without colons, pairs of them may stand for the dots. -/
lemma normalize_colons {name : String} (h : ':' ∉ name.toList) :
    normalize (colons name) = normalize name := by
  have htrim : ':' ∉ Text.trim Text.isBlank name.toList := by
    intro hin
    have hin := (List.dropWhile_sublist _).subset (List.mem_reverse.mp hin)
    exact h ((List.dropWhile_sublist _).subset (List.mem_reverse.mp hin))
  unfold normalize colons
  rw [String.toList_ofList, trim_colonized (by decide) (by decide), dotted_colonized htrim]

lemma split_colons {name : String} (h : ':' ∉ name.toList) : split (colons name) = split name := by
  unfold split
  rw [normalize_colons h]

lemma segments_colons {name : String} (h : ':' ∉ name.toList) :
    segments (colons name) = segments name := by
  unfold segments
  rw [normalize_colons h]

end QualifiedName

/-- A search that looks at nothing but kinds and names. -/
def ByName (q : Node → Bool) : Prop :=
  ∀ r r' : Node, r'.kind = r.kind → r'.name = r.name → q r' = q r

namespace Graph

variable {g g' : Graph} {n p : NodeId} {r x : Node} {q : Node → Bool} {simple : String}
  {mode : ResolveMode} {xs : List String}

lemma byName_fits : ByName (fits simple mode) := by
  intro r r' hk hn
  rw [fits, fits, hk, hn]

/-- What an element owns is live. -/
def OwnsLive (g : Graph) : Prop := ∀ {n r}, g.node? n = some r → ∀ c ∈ r.owned, g.isLive c = true

lemma Intact.ownsLive (h : g.Intact) : g.OwnsLive := fun hr c hc =>
  h hr c (List.mem_append_right _ (Node.mem_parts.mpr ⟨.owned, hc⟩))

/-- `g'` is `g` with more elements, which come last in what their owners own. -/
structure Extends (g g' : Graph) : Prop where
  node : ∀ {n r}, g.node? n = some r →
    ∃ r', g'.node? n = some r' ∧ r'.kind = r.kind ∧ r'.name = r.name ∧ r.owned <+: r'.owned
  ownsLive : g.OwnsLive → g'.OwnsLive

instance : IsPreorder Graph Extends where
  refl g := ⟨fun hr => ⟨_, hr, rfl, rfl, List.prefix_rfl⟩, id⟩
  trans g g' g'' h h' := by
    refine ⟨fun {n r} hr => ?_, h'.ownsLive ∘ h.ownsLive⟩
    obtain ⟨r', hr', hk, hn, ho⟩ := h.node hr
    obtain ⟨r'', hr'', hk', hn', ho'⟩ := h'.node hr'
    exact ⟨r'', hr'', hk'.trans hk, hn'.trans hn, ho.trans ho'⟩

lemma Added.extends (h : g.Added x g') (hx : x.owned = []) : g.Extends g' := by
  have hnode : ∀ {m y}, g.node? m = some y →
      g'.node? m = some (if x.owner = some m then y.attach x.kind.slot g.next else y) := by
    intro m y hy
    rw [h.node, if_neg (ne_next (isLive_of_node? hy)), hy]
    rfl
  have hnext : g'.isLive g.next = true := by simp [isLive, h.node]
  have howned : ∀ m (y : Node) c,
      c ∈ (if x.owner = some m then y.attach x.kind.slot g.next else y).owned →
        c = g.next ∨ c ∈ y.owned := by
    intro m y c hc
    split_ifs at hc
    · change c ∈ (y.attach x.kind.slot g.next).children .owned at hc
      rw [Node.children_attach] at hc
      split_ifs at hc with hs
      · rw [← hs.1] at hc
        exact (List.mem_append.mp hc).symm.imp_left List.mem_singleton.mp
      · exact Or.inr hc
    · exact Or.inr hc
  constructor
  · intro m y hy
    refine ⟨_, hnode hy, ?_, ?_, ?_⟩
    · split_ifs
      exacts [(Node.bare_congr (Node.bare_attach ..)).1, rfl]
    · split_ifs
      exacts [(Node.bare_congr (Node.bare_attach ..)).2.1, rfl]
    · split_ifs
      · change y.children .owned <+: (y.attach x.kind.slot g.next).children .owned
        rw [Node.children_attach]
        split_ifs with hs
        exacts [hs.1 ▸ List.prefix_append .., List.prefix_rfl]
      · exact List.prefix_rfl
  · intro hg m y' hy' c hc
    rw [h.node] at hy'
    obtain ⟨y, hy, rfl⟩ := Option.map_eq_some_iff.mp hy'
    rcases howned m y c hc with rfl | hc
    · exact hnext
    · split_ifs at hy with hm
      · obtain rfl := Option.some.inj hy
        rw [hx] at hc
        exact absurd hc (by simp)
      · obtain ⟨z, hz⟩ := isLive_iff.mp (hg hy c hc)
        exact isLive_of_node? (hnode hz)

lemma extends_modify (g : Graph) (n : NodeId) {f : Node → Node} (hk : ∀ r, (f r).kind = r.kind)
    (hn : ∀ r, (f r).name = r.name) (ho : ∀ r, (f r).owned = r.owned) :
    g.Extends (g.modify n f) := by
  have hnode : ∀ m, (g.modify n f).node? m =
      (g.node? m).map fun x => if m = n then f x else x := by
    intro m
    rw [node?_modify]
    split_ifs <;> simp
  constructor
  · intro m y hy
    refine ⟨_, by rw [hnode, hy]; rfl, ?_⟩
    split_ifs
    · exact ⟨hk y, hn y, by rw [ho]⟩
    · exact ⟨rfl, rfl, List.prefix_rfl⟩
  · intro hg m y' hy' c hc
    rw [hnode] at hy'
    obtain ⟨y, hy, rfl⟩ := Option.map_eq_some_iff.mp hy'
    have hc : c ∈ y.owned := by
      split_ifs at hc
      exacts [ho y ▸ hc, hc]
    rw [isLive_modify]
    exact hg hy c hc

/-- Among elements that are live, a search finds what it found before. -/
lemma Extends.findIn (h : g.Extends g') (hg : g.OwnsLive) (hq : ByName q)
    (hr : g.node? p = some r) : g'.findIn r.owned q = g.findIn r.owned q := by
  refine findIn_congr fun m hm => ?_
  obtain ⟨y, hy⟩ := isLive_iff.mp (hg hr m hm)
  obtain ⟨y', hy', hk, hname, -⟩ := h.node hy
  rw [hy, hy', Option.any_some, Option.any_some, hq y y' hk hname]

/-- `n` is the first one of those that `p` owns that a search is for. -/
def FirstUnder (g : Graph) (q : Node → Bool) (p n : NodeId) : Prop :=
  ∃ r, g.node? p = some r ∧ g.findIn r.owned q = some n

/-- What is found first stays so. -/
lemma Extends.firstUnder (h : g.Extends g') (hg : g.OwnsLive) (hq : ByName q)
    (hn : g.FirstUnder q p n) : g'.FirstUnder q p n := by
  obtain ⟨r, hr, hfind⟩ := hn
  obtain ⟨r', hr', -, -, more, hmore⟩ := h.node hr
  have hsame := h.findIn hg hq hr
  refine ⟨r', hr', ?_⟩
  unfold Graph.findIn at hsame hfind ⊢
  rw [← hmore, List.find?_append, hsame, hfind]
  rfl

/-- Where there was nothing to find, the element that is added is found. -/
lemma Added.firstUnder (h : g.Added x g') (hg : g.OwnsLive) (hq : ByName q)
    (hx : x.owned = []) (ho : x.owner = some p) (hs : x.kind.slot = .owned) (hqx : q x = true)
    (hr : g.node? p = some r) (hnone : g.findIn r.owned q = none) :
    g'.FirstUnder q p g.next := by
  have hp : p ≠ g.next := ne_next (isLive_of_node? hr)
  have hnext : g.next ∉ r.owned := fun hin => ne_next (hg hr _ hin) rfl
  have hr' : g'.node? p = some (r.attach .owned g.next) := by
    rw [h.node, if_neg hp, hr, Option.map_some, if_pos ho, hs]
  have howned : (r.attach .owned g.next).owned = r.owned ++ [g.next] := by
    change (r.attach .owned g.next).children .owned = _
    rw [Node.children_attach, if_pos ⟨rfl, hnext⟩]
    rfl
  have hnew : g'.node? g.next = some x := by
    rw [h.node, if_pos rfl, Option.map_some, ho, if_neg fun he => hp (Option.some.inj he)]
  have hsame := (h.extends hx).findIn hg hq hr
  refine ⟨_, hr', ?_⟩
  unfold Graph.findIn at hsame hnone ⊢
  rw [howned, List.find?_append, hsame, hnone]
  simp [hnew, hqx]

lemma childOfKind?_first {k : NodeKind} : g.childOfKind? p (some simple) k = .ok (some n) ↔
    g.FirstUnder (fun y => y.kind = k && y.name = some simple) p n := by
  constructor
  · intro h
    obtain ⟨r, hr, hfind⟩ := childOfKind?_eq_ok h
    exact ⟨r, hr, hfind.symm⟩
  · rintro ⟨r, hr, hfind⟩
    rw [childOfKind?_live hr, hfind]

lemma byName_packageOf : ByName fun y => y.kind = .package && y.name = some simple := by
  intro r r' hk hn
  simp only [hk, hn]

/-- A look-up in one namespace. -/
lemma lookup_single {found : Option NodeId} :
    g.lookup { namespaces := [p] } simple mode = .ok found ↔
      ∃ r, g.node? p = some r ∧ g.findIn r.owned (fits simple mode) = found := by
  have hsingle : [p].eraseDups = [p] := rfl
  constructor
  · intro h
    unfold lookup at h
    rw [hsingle, searchNamespaces] at h
    obtain ⟨first, hfirst, h⟩ := except_bind_eq_ok.mp h
    obtain ⟨_, howned, hfirst⟩ := except_bind_eq_ok.mp hfirst
    obtain ⟨r, hr, rfl⟩ := ownedElements_eq_ok howned
    refine ⟨r, hr, ?_⟩
    cases hfind : g.findIn r.owned (fits simple mode) <;> rw [hfind] at hfirst <;>
      obtain rfl := Except.ok.inj hfirst <;> exact Except.ok.inj h
  · rintro ⟨r, hr, hfind⟩
    have hlive : ∀ m ∈ [p], g.isLive m = true := by
      simpa using isLive_of_node? hr
    rw [lookup_run hlive (by simp), sought?, firstIn, List.findSome?_cons, ← findIn_owned hr, hfind]
    cases found <;> rfl

namespace Extends

/-- A path of packages leads to where it led before. -/
lemma packageFrom? (h : g.Extends g') (hg : g.OwnsLive)
    (hp : g.packageFrom? n xs = .ok (some p)) : g'.packageFrom? n xs = .ok (some p) := by
  induction xs generalizing n with
  | nil => exact hp
  | cons x xs ih =>
    obtain ⟨m, hm, hp⟩ := packageFrom?_cons.mp hp
    exact packageFrom?_cons.mpr ⟨m,
      childOfKind?_first.mpr (h.firstUnder hg byName_packageOf (childOfKind?_first.mp hm)), ih hp⟩

end Extends

/-- A qualified name means `n`: the path to its package is there, and the package owns no match
before `n`. -/
def Denotes (g : Graph) (qualifier simple : String) (mode : ResolveMode) (n : NodeId) : Prop :=
  ∃ p, g.packageFrom? root (QualifiedName.segments qualifier) = .ok (some p) ∧
    g.FirstUnder (fits simple mode) p n

lemma Extends.denotes {qualifier : String} (h : g.Extends g') (hg : g.OwnsLive)
    (hn : g.Denotes qualifier simple mode n) : g'.Denotes qualifier simple mode n := by
  obtain ⟨p, hp, hfirst⟩ := hn
  exact ⟨p, h.packageFrom? hg hp, h.firstUnder hg byName_fits hfirst⟩

end Graph

instance : Graph.Adding Extends where
  create {kind} _ name home := ⟨fun g => (GraphM.added_create g kind name home).extends rfl⟩
  modify g n _ hf := extends_modify g n (fun r => (hf r).1.kind) (fun r => (hf r).1.name)
    fun r => (hf r).2

/-- The model of one state is that of the other with more elements. -/
abbrev UnitState.Extends : UnitState → UnitState → Prop := Relates Graph.Extends

namespace ImportM

variable {α : Type} {s t : UnitState} {u : UnitContext} {n p : NodeId}

/-- Packages that are there need not be made. -/
lemma packageBelow_found {segments : List String}
    (h : s.graph.packageFrom? n segments = .ok (some p)) : packageBelow n segments s = .ok p s := by
  induction segments generalizing n with
  | nil =>
    obtain rfl : n = p := Option.some.inj (Except.ok.inj h)
    rfl
  | cons x xs ih =>
    obtain ⟨q, hq, h⟩ := packageFrom?_cons.mp h
    unfold packageBelow
    rw [bind_run (query_ok hq)]
    exact ih h

lemma extends_of_ok {x : ImportM α} [hx : Obeys UnitState.Extends x] {a : α}
    (h : x s = .ok a t) : s.graph.Extends t.graph :=
  (hx.ends s).ok h

/-- The package that was asked for is the one at the end of the path. -/
lemma packageFrom?_of_packageBelow {segments : List String} (hs : s.graph.OwnsLive)
    (h : packageBelow n segments s = .ok p t) :
    t.graph.packageFrom? n segments = .ok (some p) := by
  induction segments generalizing n s with
  | nil =>
    cases h
    rfl
  | cons x xs ih =>
    unfold packageBelow at h
    obtain ⟨found, s₁, hfound, h⟩ := bind_eq_ok.mp h
    obtain ⟨hchild, rfl⟩ := query_eq_ok.mp hfound
    cases found with
    | some q =>
      replace h : packageBelow q xs s₁ = .ok p t := h
      have hfirst := (extends_of_ok h).firstUnder hs byName_packageOf (childOfKind?_first.mp hchild)
      exact packageFrom?_cons.mpr ⟨q, childOfKind?_first.mpr hfirst, ih hs h⟩
    | none =>
      obtain ⟨r, hr, hnone⟩ := childOfKind?_eq_ok hchild
      obtain ⟨g, hrun, -⟩ :=
        GraphM.create_under s₁.graph .package (some x) (isLive_of_node? hr)
      have hadd := GraphM.added_of_created hrun
      replace h : packageBelow s₁.graph.next xs { s₁ with
          graph := g, session := s₁.session.register s₁.graph.next,
          log := .packageCreated x :: s₁.log } = .ok p t :=
        (bind_run (change_ok hrun)).symm.trans h
      have hg : g.OwnsLive := (hadd.extends rfl).ownsLive hs
      have hfirst := hadd.firstUnder hs byName_packageOf rfl rfl rfl (by simp) hr hnone.symm
      exact packageFrom?_cons.mpr ⟨_, childOfKind?_first.mpr
        ((extends_of_ok h).firstUnder hg byName_packageOf hfirst), ih hg h⟩

/-- A placeholder is the first match in a package that had none. -/
lemma firstUnder_of_forceCreate {simple context : String} {mode : ResolveMode} {r : Node}
    (hs : s.graph.OwnsLive) (hr : s.graph.node? p = some r)
    (hnone : s.graph.findIn r.owned (fits simple mode) = none)
    (h : forceCreate simple mode (some p) context s = .ok n t) :
    t.graph.FirstUnder (fits simple mode) p n := by
  obtain ⟨kind, hkind, hfits, hslot⟩ : ∃ kind : NodeKind,
      kind = (if mode = .interfaceOnly then .interfaceType else .classType) ∧
        mode.accepts kind = true ∧ kind.slot = .owned := by
    refine ⟨_, rfl, ?_⟩
    cases mode <;> decide
  unfold forceCreate at h
  rw [← hkind] at h
  obtain ⟨g, hrun, -⟩ := GraphM.create_under s.graph kind (some simple) (isLive_of_node? hr)
  have hadd := GraphM.added_of_created hrun
  have hfirst := hadd.firstUnder hs byName_fits rfl rfl hslot (by simp [fits, hfits]) hr hnone
  rw [Option.getD_some, bind_run (change_ok hrun)] at h
  have hext := extends_of_ok h
  obtain ⟨tv, s₁, -, h⟩ := bind_eq_ok.mp h
  have hn : s.graph.next = n := by
    cases h
    rfl
  exact hn ▸ hext.firstUnder ((hadd.extends rfl).ownsLive hs) byName_fits hfirst

section qualified

variable {policy : UnresolvedPolicy} {name qualifier simple context : String} {mode : ResolveMode}
  (hsplit : QualifiedName.split name = (qualifier, simple)) (hq : qualifier ≠ "")
include hsplit hq

/-- A name that means an element resolves to it, and nothing changes. -/
lemma resolveWith_of_denotes (h : s.graph.Denotes qualifier simple mode n) :
    resolveWith u policy name mode context s = .ok (some n) s := by
  obtain ⟨p, hp, hfirst⟩ := h
  have hpackage : getPackage qualifier s = .ok p s := packageBelow_found hp
  have hcontext : contextFor name s = .ok ({ namespaces := [p] }, simple, some p) s := by
    rw [contextFor_qualified hsplit hq, bind_run hpackage]
    rfl
  have hlookup : query (·.lookup { namespaces := [p] } simple mode) s = .ok (some n) s :=
    query_ok (lookup_single.mpr hfirst)
  unfold resolveWith
  rw [bind_run hcontext]
  exact bind_run hlookup

/-- A name that has been resolved means the element that was found or made. -/
lemma denotes_of_resolveWith (hs : s.graph.OwnsLive)
    (h : resolveWith u policy name mode context s = .ok (some n) t) :
    t.graph.Denotes qualifier simple mode n := by
  unfold resolveWith at h
  obtain ⟨c, s₁, hcontext, h⟩ := bind_eq_ok.mp h
  rw [contextFor_qualified hsplit hq] at hcontext
  obtain ⟨p, s₂, hpackage, hcontext⟩ := bind_eq_ok.mp hcontext
  cases hcontext
  have hp : s₁.graph.packageFrom? root (QualifiedName.segments qualifier) = .ok (some p) :=
    packageFrom?_of_packageBelow hs hpackage
  have hs₁ : s₁.graph.OwnsLive := (extends_of_ok hpackage).ownsLive hs
  obtain ⟨found, s₂, hlookup, h⟩ := bind_eq_ok.mp h
  obtain ⟨hlookup, rfl⟩ := query_eq_ok.mp hlookup
  obtain ⟨r, hr, hfind⟩ := lookup_single.mp hlookup
  cases found with
  | some m =>
    cases h
    exact ⟨p, hp, r, hr, hfind⟩
  | none =>
    cases policy with
    | fail => cases h
    | warn =>
      obtain ⟨_, s₃, -, h⟩ := bind_eq_ok.mp h
      cases h
    | force =>
      obtain ⟨m, s₃, hforce, h⟩ := bind_eq_ok.mp h
      cases h
      exact ⟨p, (extends_of_ok hforce).packageFrom? hs₁ hp,
        firstUnder_of_forceCreate hs₁ hr hfind hforce⟩

end qualified

end ImportM

/-- What is asked for when a name is resolved. -/
structure Reference where
  policy : UnresolvedPolicy
  name : String
  mode : ResolveMode
  context : String

/-- The state after a name was resolved, or was not. -/
def Reference.after (u : UnitContext) (s : UnitState) (ref : Reference) : UnitState :=
  finalState (ImportM.resolveWith u ref.policy ref.name ref.mode ref.context s)

lemma Reference.extends_foldl (u : UnitContext) (refs : List Reference) (s : UnitState) :
    s.Extends (refs.foldl (Reference.after u) s) := by
  induction refs generalizing s with
  | nil => exact refl_of UnitState.Extends s
  | cons ref refs ih =>
    have hresolve : Obeys UnitState.Extends
      (ImportM.resolveWith u ref.policy ref.name ref.mode ref.context) := inferInstance
    have hstep : s.Extends (ref.after u s) := hresolve.final s
    rw [List.foldl_cons]
    exact trans_of UnitState.Extends hstep (ih (ref.after u s))

/-- An element that a qualified name was resolved to is what the name means from then on, whatever
other names are resolved, in whatever mode and under whatever policy, with success or not. Pairs of
colons may stand for the dots of the name. -/
theorem qualified_name_keeps_meaning {u : UnitContext} {s t : UnitState}
    {policy : UnresolvedPolicy} {name qualifier simple context : String} {mode : ResolveMode}
    {n : NodeId} (hs : s.graph.Intact) (hsplit : QualifiedName.split name = (qualifier, simple))
    (hq : qualifier ≠ "") (h : ImportM.resolveWith u policy name mode context s = .ok (some n) t)
    (refs : List Reference) (policy' : UnresolvedPolicy) (context' : String) :
    let last := refs.foldl (Reference.after u) t
    ImportM.resolveWith u policy' name mode context' last = .ok (some n) last ∧
      (':' ∉ name.toList → ImportM.resolveWith u policy' (QualifiedName.colons name) mode context'
        last = .ok (some n) last) := by
  intro last
  have ht : t.graph.OwnsLive := (ImportM.extends_of_ok h).ownsLive hs.ownsLive
  have hmeans : last.graph.Denotes qualifier simple mode n :=
    Graph.Extends.denotes (Reference.extends_foldl u refs t) ht
      (ImportM.denotes_of_resolveWith hsplit hq hs.ownsLive h)
  refine ⟨ImportM.resolveWith_of_denotes hsplit hq hmeans, fun hcolon => ?_⟩
  have hspelled := (QualifiedName.split_colons hcolon).trans hsplit
  exact ImportM.resolveWith_of_denotes hspelled hq hmeans

/-- A class that was made for its name. An interface of that name comes into its package later, and a
class into another package that begins like it, after a reference that fails. -/
theorem qualified_name_keeps_meaning_of_forced :
    let s := UnitState.start referringUnit { graph := .new "m" ⟨"p", [], []⟩ }
    let refs : List Reference := [⟨.force, "x.y.A", .interfaceOnly, "a parent"⟩,
      ⟨.fail, "B", .any, "a field"⟩, ⟨.force, "x.A", .any, "a field"⟩]
    s.graph.Intact ∧ QualifiedName.split "x.y.A" = ("x.y", "A") ∧
      ∃ t, ImportM.resolveWith referringUnit .force "x.y.A" .instantiable "a field" s =
          .ok (some 5) t ∧
        let last := refs.foldl (Reference.after referringUnit) t
        last.graph.kind? 7 = some .interfaceType ∧
          ImportM.resolveWith referringUnit .fail "x.y.A" .instantiable "a field" last =
            .ok (some 5) last ∧
          ImportM.resolveWith referringUnit .fail (QualifiedName.colons "x.y.A") .instantiable
            "a field" last = .ok (some 5) last := by
  intro s refs
  have hs : s.graph.Intact := (represented_new "m" ⟨"p", [], []⟩).intact
  have hsplit : QualifiedName.split "x.y.A" = ("x.y", "A") := by decide +kernel
  let run := ImportM.resolveWith referringUnit .force "x.y.A" .instantiable "a field" s
  have hmade : answer? run = some (some 5) := by decide +kernel
  have hrun := eq_ok_of_answer? hmade
  have hinterface :
      (refs.foldl (Reference.after referringUnit) (finalState run)).graph.kind? 7 =
        some .interfaceType := by decide +kernel
  obtain ⟨hdots, hcolons⟩ :=
    qualified_name_keeps_meaning hs hsplit (by decide) hrun refs .fail "a field"
  exact ⟨hs, hsplit, _, hrun, hinterface, hdots, hcolons (by decide)⟩

end DeclGraph
