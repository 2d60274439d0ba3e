import DeclGraph.Proofs.Import.Runs

/-! No duplicates over whole runs: after imports in a row that make no placeholders, no two elements
stand for the same. -/

namespace DeclGraph

open DeclGraph.Graph

/-- What an import of a source text is called with, the graph apart. -/
structure SourceCall where
  source : String
  name : String
  settings : Settings
  session : Session
  passes : List Pass

/-- The graph that a call leaves, whether it fails or not. -/
def SourceCall.run (g : Graph) (c : SourceCall) : Graph :=
  (finalState (StoreM.importSource c.source c.name c.settings c.passes
    { graph := g, session := c.session })).graph

namespace Graph

variable {α : Type} {g : Graph} {m n c p : NodeId} {r : Node} {k : NodeKind} {name : String}

/-- Elements with records of some sort are told apart by what is read off their records. -/
def ToldApart (g : Graph) (sort : Node → Prop) (read : Node → α) : Prop :=
  ∀ ⦃m m' r r'⦄, g.node? m = some r → g.node? m' = some r' → sort r → sort r' →
    read r = read r' → m = m'

/-- The dependency `m` of a kind is marked by a stereotype and leads from `c` to `p`. -/
def Depends (g : Graph) (m : NodeId) (k : NodeKind) (stereotype : String) (c p : NodeId) : Prop :=
  ∃ r, g.node? m = some r ∧ r.kind = k ∧ g.Marked r stereotype ∧ c ∈ r.clients ∧ p ∈ r.suppliers

/-- No two elements stand for the same. Only what lies in the profile package is left out. -/
structure NoDuplicates (g : Graph) : Prop where
  packages : g.ToldApart (·.kind = .package) fun r => (r.owner, r.name)
  components : g.ToldApart (·.kind = .component) fun r => (r.owner, r.name)
  classifiers : g.ToldApart (fun r => r.kind.isClassifier = true ∧ r.owner ≠ some profilePackage)
    fun r => (r.owner, r.name)
  operations : g.ToldApart (·.kind = .operation) fun r => (r.owner, r.name)
  attributes : g.ToldApart (·.kind = .attr) fun r => (r.owner, r.name)
  generalizations : g.ToldApart (·.kind = .generalization) fun r => (r.specific, r.general)
  realizations : ∀ {m m' c p}, g.Depends m .abstraction Profile.realizeStereotype c p →
    g.Depends m' .abstraction Profile.realizeStereotype c p → m = m'
  imports : ∀ {m m' c p}, g.Depends m .dependency Profile.importStereotype c p →
    g.Depends m' .dependency Profile.importStereotype c p → m = m'
  /-- Each association leads from a classifier to another, with a name at its navigable end. -/
  spanned : ∀ {a}, g.kind? a = some .association → ∃ e o c p name, g.Spans a e o c p name
  associations : ∀ {a a' e e' o o' c p name}, g.Spans a e o c p name → g.Spans a' e' o' c p name →
    a = a'
  residences : g.ToldApart (·.kind = .elementResidence) (·.resident)
  taggedValues : g.ToldApart (·.kind = .taggedValue) fun r => (r.owner, r.name)

namespace Keyed

/-- Elements of a family are told apart by owner and name. -/
lemma toldApart_place (h : g.Keyed) (family : NodeKind) {sort : Node → Prop}
    (hsort : ∀ {r}, sort r → r.kind.family? = some family ∧
      (family = .classType → r.owner ≠ some profilePackage)) :
    g.ToldApart sort fun r => (r.owner, r.name) := by
  intro m m' r r' hr hr' hs hs' hkey
  obtain ⟨ho, hn⟩ := Prod.mk.inj hkey
  obtain ⟨hf, hout⟩ := hsort hs
  obtain ⟨hf', hout'⟩ := hsort hs'
  have hfits : g.Fits r (.place family r.owner r.name) := ⟨hf, rfl, rfl, hout⟩
  exact h.unique (.record hr hfits) (.record hr' ⟨hf', ho.symm, hn.symm, ho ▸ hout'⟩)

lemma depends (h : g.Keyed) {m m' : NodeId} {stereotype : String}
    (hk : ∀ {r}, r.kind = k → g.Marked r stereotype → c ∈ r.clients → p ∈ r.suppliers →
      g.Connects r c p)
    (hm : g.Depends m k stereotype c p) (hm' : g.Depends m' k stereotype c p) : m = m' := by
  have bears : ∀ {m}, g.Depends m k stereotype c p → g.Bears m (.edge k c p) := by
    rintro m ⟨r, hr, hkr, hst, hc, hp⟩
    exact .record hr ⟨hkr, hk hkr hst hc hp⟩
  exact h.unique (bears hm) (bears hm')

/-- Members are told apart by owner and name, since the owner is a classifier. -/
lemma toldApart_member (h : g.Sound) {kind : NodeKind} (role : MemberRole)
    (hrole : kind.role? = some role)
    (howner : ∀ {k : NodeKind}, k.mayOwn kind = true → k.isClassifier = true) :
    g.ToldApart (·.kind = kind) fun r => (r.owner, r.name) := by
  rintro m m' r r' hr hr' rfl hk' hkey
  obtain ⟨ho, hn⟩ := Prod.mk.inj hkey
  obtain ⟨q, hq⟩ := (h.proper hr).owned (NodeKind.isOwned_of_role (by simp [hrole]))
  obtain ⟨rq, hrq, hmay⟩ := h.mayOwn hr hq
  exact h.distinct (kind?_eq hrq) (howner hmay) ⟨r, hr, hq, hrole, rfl⟩
    ⟨r', hr', ho ▸ hq, hk' ▸ hrole, hn.symm⟩

/-- A sound graph whose elements are told apart by their keys has no duplicates. -/
lemma noDuplicates (h : g.Keyed) (hg : g.Sound) : g.NoDuplicates where
  packages := h.toldApart_place .package fun hk => ⟨by rw [hk]; rfl, by simp⟩
  components := h.toldApart_place .component fun hk => ⟨by rw [hk]; rfl, by simp⟩
  classifiers := h.toldApart_place .classType fun ⟨hk, hout⟩ =>
    ⟨NodeKind.family?_eq_classType.mpr hk, fun _ => hout⟩
  operations := toldApart_member hg .operation rfl fun {k} => by cases k <;> decide
  attributes := toldApart_member hg .attr rfl fun {k} => by cases k <;> decide
  generalizations := by
    intro m m' r r' hr hr' hk hk' hkey
    obtain ⟨hsp, hge⟩ := Prod.mk.inj hkey
    have hcomplete := (hg.proper hr).complete
    rw [Node.isComplete, hk, Bool.and_eq_true] at hcomplete
    obtain ⟨c, hc⟩ := Option.isSome_iff_exists.mp hcomplete.1
    obtain ⟨p, hp⟩ := Option.isSome_iff_exists.mp hcomplete.2
    have fits : ∀ {r}, r.kind = .generalization → r.specific = some c → r.general = some p →
        g.Fits r (.edge .generalization c p) := fun hk hc hp =>
      ⟨hk, by unfold Connects; rw [hk]; exact ⟨hc, hp⟩⟩
    exact h.unique (.record hr (fits hk hc hp)) (.record hr' (fits hk' (hsp ▸ hc) (hge ▸ hp)))
  realizations := h.depends fun hk hst hc hp => by unfold Connects; rw [hk]; exact ⟨hc, hp, hst⟩
  imports := h.depends fun hk hst hc hp => by unfold Connects; rw [hk]; exact ⟨hc, hp, hst⟩
  spanned := hg.spanned
  associations hs hs' := h.unique (.association hs) (.association hs')
  residences := by
    intro m m' r r' hr hr' hk hk' hkey
    have hcomplete := (hg.proper hr).complete
    rw [Node.isComplete, hk, Bool.and_eq_true] at hcomplete
    obtain ⟨c, hc⟩ := Option.isSome_iff_exists.mp hcomplete.1
    have fits : ∀ {r}, r.kind = .elementResidence → r.resident = some c →
        g.Fits r (.residence c) := fun hk hc => ⟨hk, hc⟩
    exact h.unique (.record hr (fits hk hc))
      (.record hr' (fits hk' ((show r.resident = r'.resident from hkey) ▸ hc)))
  taggedValues := h.toldApart_place .taggedValue fun hk => ⟨by rw [hk]; rfl, by simp⟩

end Keyed

end Graph

/-- Calls lead from graphs that imports led to, to such graphs. -/
lemma Imported.calls {allowed : Settings → Prop} {g : Graph} {calls : List SourceCall}
    (h : Imported allowed g) (hc : ∀ c ∈ calls, allowed c.settings) :
    Imported allowed (calls.foldl SourceCall.run g) :=
  List.foldlRecOn calls SourceCall.run (b := g) (motive := Imported allowed) h
    fun g hg c hmem => (show Imported allowed
      ({ graph := g, session := c.session } : Store).graph from hg).importSource
      (hc c hmem) c.source c.name c.passes

/-- Imports of source texts into a new graph make no duplicates, whatever the texts, names, settings
and passes are and whether the imports fail or not, as long as they make no placeholders. -/
theorem noDuplicates_of_calls (name : String) (profile : Profile) (calls : List SourceCall)
    (h : ∀ c ∈ calls, c.settings.unresolvedPolicy = .warn ∨ c.settings.unresolvedPolicy = .fail) :
    (calls.foldl SourceCall.run (.new name profile)).NoDuplicates := by
  have himported : Imported (·.unresolvedPolicy ≠ .force)
      (calls.foldl SourceCall.run (.new name profile)) :=
    (Imported.fresh name profile).calls fun c hc => by
      rcases h c hc with hw | hf
      · simp [hw]
      · simp [hf]
  exact himported.keyed.noDuplicates himported.sound

/-- A class with a field of its own type. -/
def selfCall : SourceCall where
  source := "class A { A a; }"
  name := "x"
  settings := {}
  session := {}
  passes := Pass.all

/-- A class whose parent is unknown, which fails in the second pass. -/
def failingCall : SourceCall where
  source := "class A extends B { }"
  name := "y"
  settings := { unresolvedPolicy := .fail }
  session := {}
  passes := Pass.all

theorem noDuplicates_of_failing_call :
    (∀ c ∈ [selfCall, failingCall, selfCall], c.settings.unresolvedPolicy = .warn ∨
        c.settings.unresolvedPolicy = .fail) ∧
      ([selfCall, failingCall, selfCall].foldl SourceCall.run (.new "m" ⟨"p", [], []⟩)).NoDuplicates :=
  have h : ∀ c ∈ [selfCall, failingCall, selfCall], c.settings.unresolvedPolicy = .warn ∨
      c.settings.unresolvedPolicy = .fail := by
    simp [selfCall, failingCall]
  ⟨h, noDuplicates_of_calls "m" ⟨"p", [], []⟩ _ h⟩

end DeclGraph
