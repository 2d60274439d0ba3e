import DeclGraph.Graph.Registry
import DeclGraph.Proofs.Graph.Step

/-! Registries of stereotypes on one graph. However their calls follow each other, what a registry
remembers is what a search would find: stereotypes are only added behind the others, so the first
one that suits stays the first. -/

namespace DeclGraph

open DeclGraph.Graph

namespace Graph

variable {g g' : Graph} {n m p : NodeId} {r : Node} {name : String} {base : Option String}

/-- A stereotype of a name in a namespace that suits a base class: it declares no base classes, or
this one among them. -/
def Suits (g : Graph) (p : NodeId) (name : String) (base : Option String) (n : NodeId) : Prop :=
  ∃ r, g.node? n = some r ∧ r.kind = .stereotype ∧ r.owner = some p ∧ r.name = some name ∧
    ∀ b, base = some b → r.baseClasses = [] ∨ b ∈ r.baseClasses

/-- The stereotypes in a namespace, in their order. -/
def stereotypesIn (g : Graph) (p : NodeId) : List NodeId :=
  ((g.node? p).elim [] (·.owned)).filter fun m => g.kind? m = some .stereotype

/-- The first stereotype in a namespace that suits. -/
def suiting? (g : Graph) (p : NodeId) (name : String) (base : Option String) : Option NodeId :=
  (g.stereotypesIn p).find? fun m => (g.node? m).any (fitsStereotype name base)

section searches

lemma fitsStereotype_iff : fitsStereotype name base r = true ↔ r.kind = .stereotype ∧
    r.name = some name ∧ ∀ b, base = some b → r.baseClasses = [] ∨ b ∈ r.baseClasses := by
  cases base <;> simp [fitsStereotype, and_assoc]

lemma mem_stereotypesIn (hg : g.Linked) : m ∈ g.stereotypesIn p ↔
    ∃ r, g.node? m = some r ∧ r.kind = .stereotype ∧ r.owner = some p := by
  rw [stereotypesIn, List.mem_filter, decide_eq_true_eq, kind?_eq_some]
  constructor
  · rintro ⟨hm, r, hr, hk⟩
    cases hp : g.node? p with
    | none => simp [hp] at hm
    | some rp =>
      rw [hp] at hm
      obtain ⟨r', hr', ho, -⟩ := (hg.mem_children hp .owned m).mp hm
      exact ⟨r, hr, hk, Option.some.inj (hr.symm.trans hr') ▸ ho⟩
  · rintro ⟨r, hr, hk, ho⟩
    obtain ⟨rp, hp⟩ := isLive_iff.mp (hg.owner_live hr ho)
    refine ⟨?_, r, hr, hk⟩
    rw [hp]
    exact (hg.mem_children hp .owned m).mpr ⟨r, hr, ho, by rw [hk]; rfl⟩

lemma stereotypeIn?_live (hp : g.isLive p = true) :
    g.stereotypeIn? p name base = .ok (g.suiting? p name base) := by
  obtain ⟨r, hr⟩ := isLive_iff.mp hp
  unfold stereotypeIn? ownedElements suiting? stereotypesIn findIn
  rw [get_of_node? hr, hr, List.find?_filter]
  refine congrArg Except.ok (congrArg (List.find? · r.owned) (funext fun m => ?_))
  rw [kind?]
  cases hm : g.node? m with
  | none => simp
  | some x => simpa using fun h => (fitsStereotype_iff.mp h).1

lemma stereotypeIn?_gone (hp : ¬g.isLive p = true) :
    g.stereotypeIn? p name base = .error (.unknownHandle p) := by
  unfold stereotypeIn? ownedElements
  rw [get_of_none (node?_of_not_isLive hp)]
  rfl

lemma suits_of_suiting? (hg : g.Linked) (h : g.suiting? p name base = some n) :
    g.Suits p name base n := by
  obtain ⟨r, hr, hk, ho⟩ := (mem_stereotypesIn hg).mp (List.mem_of_find?_eq_some h)
  have hfits := List.find?_some h
  rw [hr] at hfits
  obtain ⟨-, hname, hbase⟩ := fitsStereotype_iff.mp hfits
  exact ⟨r, hr, hk, ho, hname, hbase⟩

lemma not_suits_of_suiting? (hg : g.Linked) (h : g.suiting? p name base = none) (m : NodeId) :
    ¬g.Suits p name base m := by
  rintro ⟨r, hr, hk, ho, hname, hbase⟩
  have hm := List.find?_eq_none.mp h m ((mem_stereotypesIn hg).mpr ⟨r, hr, hk, ho⟩)
  rw [hr] at hm
  exact hm (fitsStereotype_iff.mpr ⟨hk, hname, hbase⟩)

/-- Stereotypes of the profile come first. -/
lemma stereotype?_eq : g.stereotype? name base =
    if g.isLive profilePackage then
      match g.suiting? profilePackage name base with
      | some n => .ok (some n)
      | none =>
        if g.isLive root then .ok (g.suiting? root name base) else .error (.unknownHandle root)
    else .error (.unknownHandle profilePackage) := by
  unfold stereotype?
  by_cases hp : g.isLive profilePackage = true
  · rw [stereotypeIn?_live hp, if_pos hp]
    cases hs : g.suiting? profilePackage name base with
    | some m => simp [pure, Except.pure]
    | none =>
      by_cases hr : g.isLive root = true
      · simp [hr, stereotypeIn?_live hr]
      · simp [hr, stereotypeIn?_gone hr]
  · rw [stereotypeIn?_gone hp, if_neg hp]
    rfl

lemma stereotype?_eq_some : g.stereotype? name base = .ok (some n) ↔
    g.isLive profilePackage = true ∧ (g.suiting? profilePackage name base = some n ∨
      g.suiting? profilePackage name base = none ∧ g.isLive root = true ∧
        g.suiting? root name base = some n) := by
  rw [stereotype?_eq]
  by_cases hp : g.isLive profilePackage = true <;> by_cases hr : g.isLive root = true <;>
    cases g.suiting? profilePackage name base <;> simp [hp, hr]

lemma stereotype?_eq_none : g.stereotype? name base = .ok none ↔
    g.isLive profilePackage = true ∧ g.suiting? profilePackage name base = none ∧
      g.isLive root = true ∧ g.suiting? root name base = none := by
  rw [stereotype?_eq]
  by_cases hp : g.isLive profilePackage = true <;> by_cases hr : g.isLive root = true <;>
    cases g.suiting? profilePackage name base <;> simp [hp, hr]

lemma stereotype?_failed {f : GraphFault} (h : g.stereotype? name base = .error f) :
    ¬g.isLive profilePackage = true ∨
      g.suiting? profilePackage name base = none ∧ ¬g.isLive root = true := by
  rw [stereotype?_eq] at h
  by_cases hp : g.isLive profilePackage = true <;> by_cases hr : g.isLive root = true <;>
    cases hs : g.suiting? profilePackage name base <;> simp_all

end searches

/-- `g'` comes from `g` without a stereotype being deleted, renamed, moved or given base classes. New
ones may be under the root, behind those that were there. -/
structure SparesStereotypes (g g' : Graph) : Prop where
  coherent : g'.Coherent
  ages : Ages g g'
  package : g.isLive profilePackage = true → g'.isLive profilePackage = true
  node : ∀ {n r}, g.node? n = some r → r.kind = .stereotype → ∃ r', g'.node? n = some r' ∧
    r'.kind = .stereotype ∧ r'.name = r.name ∧ r'.owner = r.owner ∧ r'.baseClasses = r.baseClasses
  profile : g'.stereotypesIn profilePackage = g.stereotypesIn profilePackage
  root : g.stereotypesIn root <+: g'.stereotypesIn root

namespace SparesStereotypes

lemma refl (hg : g.Coherent) : g.SparesStereotypes g :=
  ⟨hg, .refl g, id, fun hr hk => ⟨_, hr, hk, rfl, rfl, rfl⟩, rfl, List.prefix_refl _⟩

/-- The stereotypes that were there suit as before. -/
lemma fits (h : g.SparesStereotypes g') (hm : m ∈ g.stereotypesIn p) :
    (g'.node? m).any (fitsStereotype name base) = (g.node? m).any (fitsStereotype name base) := by
  have hk : g.kind? m = some .stereotype := by simpa using (List.mem_filter.mp hm).2
  obtain ⟨r, hr, hk⟩ := kind?_eq_some.mp hk
  obtain ⟨r', hr', hk', hname, -, hbase⟩ := h.node hr hk
  rw [hr, hr', Option.any_some, Option.any_some, Bool.eq_iff_iff, fitsStereotype_iff,
    fitsStereotype_iff, hk, hk', hname, hbase]

/-- What a search finds is found again. -/
lemma stereotype? (h : g.SparesStereotypes g') (hg : g.Coherent)
    (hn : g.stereotype? name base = .ok (some n)) : g'.stereotype? name base = .ok (some n) := by
  have same : ∀ p, (g.stereotypesIn p).find? (fun m => (g'.node? m).any (fitsStereotype name base)) =
      g.suiting? p name base := fun p => List.find?_congr fun m hm => h.fits hm
  rw [stereotype?_eq_some] at hn ⊢
  obtain ⟨hp, hn⟩ := hn
  refine ⟨h.package hp, ?_⟩
  have hprofile : g'.suiting? profilePackage name base = g.suiting? profilePackage name base := by
    rw [← same, suiting?, h.profile]
  rcases hn with hn | ⟨hnone, -, hn⟩
  · exact Or.inl (hprofile.trans hn)
  · obtain ⟨r, hr, hk, ho, -⟩ := suits_of_suiting? hg.toLinked hn
    obtain ⟨r', hr', -, -, ho', -⟩ := h.node hr hk
    refine Or.inr ⟨hprofile.trans hnone, h.coherent.owner_live hr' (ho'.trans ho), ?_⟩
    exact h.root.find?_eq_some ((same Graph.root).trans hn)

end SparesStereotypes

/-- A new stereotype stands behind those of its namespace. -/
lemma Built.stereotypesIn (hg : g.Linked) (hb : g.Built r g') (hparts : ∀ s, r.children s = [])
    (hlinks : ∀ y ∈ r.links, g.isLive y = true) (p : NodeId) : g'.stereotypesIn p =
      g.stereotypesIn p ++ if r.kind = .stereotype ∧ r.owner = some p then [g.next] else [] := by
  have howner : ∀ q, r.owner = some q → g.isLive q = true := fun q hq =>
    hlinks q (by simp [Node.links, hq])
  cases hp : g.node? p with
  | none =>
    have hno : r.owner ≠ some p := fun ho => by
      simpa [Graph.isLive, hp] using howner p ho
    have hempty : (g'.node? p).elim [] (·.owned) = [] := by
      rw [hb.node, hp]
      split_ifs
      exacts [hparts .owned, rfl]
    rw [Graph.stereotypesIn, hempty, Graph.stereotypesIn, hp, if_neg fun h => hno h.2]
    rfl
  | some x =>
    have hkept : x.owned.filter (fun m => g'.kind? m = some .stereotype) = g.stereotypesIn p := by
      rw [Graph.stereotypesIn, hp]
      exact List.filter_congr fun m hm => by rw [hb.kind?_old (hg.children_live hp (s := .owned) hm)]
    have howned : (g'.node? p).elim [] (·.owned) =
        x.owned ++ if r.owner = some p ∧ r.kind.slot = .owned then [g.next] else [] := by
      rw [hb.old_node hp]
      by_cases ho : r.owner = some p
      · have hch : (x.attach r.kind.slot g.next).owned = _ :=
          Node.children_attach x r.kind.slot .owned g.next
        by_cases hs : r.kind.slot = .owned
        · rw [if_pos ⟨hs.symm, hg.next_not_mem hp _⟩, hs] at hch
          simpa [ho, hs, Node.children] using hch
        · rw [if_neg fun h => hs h.1.symm] at hch
          simpa [ho, hs, Node.children] using hch
      · simp [ho]
    rw [Graph.stereotypesIn, howned, List.filter_append, hkept]
    congr 1
    by_cases hk : r.kind = .stereotype
    · have hs : r.kind.slot = .owned := by rw [hk]; rfl
      by_cases ho : r.owner = some p <;> simp [hk, ho, hb.kind?_new, NodeKind.slot]
    · by_cases ho : r.owner = some p ∧ r.kind.slot = .owned <;> simp [hk, ho, hb.kind?_new]

/-- A new element spares the stereotypes, unless it is one that the root does not own. -/
lemma Built.sparesStereotypes (hg : g.Coherent) (hb : g.Built r g') (hparts : ∀ s, r.children s = [])
    (hfit : r.FieldsFit) (hlinks : ∀ y ∈ r.links, g.isLive y = true)
    (ha : ∀ a, r.association = some a → r.owner = some a)
    (hr : r.kind = .stereotype → r.owner = some Graph.root) : g.SparesStereotypes g' := by
  have hlist := hb.stereotypesIn hg.toLinked hparts hlinks
  refine ⟨hg.built hb hparts hfit hlinks ha, hb.ages, hb.live, fun {n x} hx hk => ?_, ?_, ?_⟩
  · obtain ⟨x', hx', hbare, ho⟩ := hb.old_bare hx
    have hsame := Node.bare_congr hbare
    refine ⟨x', hx', hsame.1.trans hk, hsame.2.1, ho, ?_⟩
    change x'.bare.baseClasses = x.bare.baseClasses
    rw [hbare]
  · rw [hlist, if_neg, List.append_nil]
    rintro ⟨hk, ho⟩
    exact absurd ((hr hk).symm.trans ho) (by decide)
  · rw [hlist]
    exact List.prefix_append _ _

end Graph

/-- The record of a stereotype that is made for a base class. -/
def Node.synthesized (name : String) (base : Option String) : Node :=
  { kind := .stereotype, name := some name, owner := some root, baseClasses := base.toList }

/-- Makes a stereotype for a base class under the root. -/
def GraphM.synthesize (name : String) (base : Option String) : GraphM NodeId := do
  let n ← create .stereotype (some name) (some root)
  if let some b := base then addBaseClass n b
  return n

lemma GraphM.synthesize_ok {g : Graph} (hroot : g.isLive root = true) (name : String)
    (base : Option String) : ∃ g', synthesize name base g = .ok g.next g' ∧
      g.Built (.synthesized name base) g' := by
  obtain ⟨g₁, hcreate, hb⟩ := create_under g .stereotype (some name) hroot
  unfold synthesize
  cases base with
  | none => exact ⟨g₁, (bind_run hcreate).trans rfl, hb⟩
  | some b =>
    obtain ⟨hadd, hb'⟩ := built_then hb (f := fun r =>
      if b ∈ r.baseClasses then r else { r with baseClasses := r.baseClasses ++ [b] }) rfl rfl
    exact ⟨_, (bind_run hcreate).trans ((bind_run hadd).trans rfl), hb'⟩

namespace StereotypeRegistry

variable {g g' : Graph} {n : NodeId} {ρ : StereotypeRegistry} {name : String} {base : Option String}

/-- What a registry remembers is what a search would find. -/
def Right (ρ : StereotypeRegistry) (g : Graph) : Prop :=
  ∀ key n, (key, n) ∈ ρ.cache → g.stereotype? key.1 key.2 = .ok (some n)

/-- A registry that has made another stereotype. -/
def make (ρ : StereotypeRegistry) (name : String) (base : Option String) (n : NodeId) :
    StereotypeRegistry :=
  { ρ with synthesized := ρ.synthesized ++ [n] }.remember name base n

/-- How a search of a registry ends. -/
inductive Outcome (ρ : StereotypeRegistry) (g : Graph) (name : String) (base : Option String) :
    EStateM.Result GraphFault Graph (Except MissingStereotype NodeId × StereotypeRegistry) → Prop
  /-- The profile has a stereotype that suits, or the root has one and the profile has none. -/
  | found {n p : NodeId} {ρ' : StereotypeRegistry} : g.Suits p name base n →
      p = profilePackage ∨ p = root ∧ (∀ m, ¬g.Suits profilePackage name base m) →
      ρ'.synthesized = ρ.synthesized → Outcome ρ g name base (.ok (.ok n, ρ') g)
  /-- Neither has one, and it may be made. -/
  | made {g' : Graph} {ρ' : StereotypeRegistry} :
      (∀ m, ¬g.Suits profilePackage name base m ∧ ¬g.Suits root name base m) →
      ρ.allowSynthesis = true → g.Built (.synthesized name base) g' →
      ρ'.synthesized = ρ.synthesized ++ [g.next] → Outcome ρ g name base (.ok (.ok g.next, ρ') g')
  /-- Neither has one, and it may not be made. -/
  | missing : (∀ m, ¬g.Suits profilePackage name base m ∧ ¬g.Suits root name base m) →
      ρ.allowSynthesis = false → Outcome ρ g name base (.ok (.error ⟨name, base⟩, ρ) g)
  /-- A package that has to be searched is gone. -/
  | unsearchable {f : GraphFault} : ¬g.isLive profilePackage = true ∨
      (∀ m, ¬g.Suits profilePackage name base m) ∧ ¬g.isLive root = true →
      Outcome ρ g name base (.error f g)

section runs

/-- What is remembered and there is what a search finds. -/
lemma Right.found (h : ρ.Right g) (hn : (ρ.remembered? name base).filter g.isLive = some n) :
    g.stereotype? name base = .ok (some n) := by
  obtain ⟨hn, -⟩ := Option.filter_eq_some_iff.mp hn
  obtain ⟨before, after, hcache, -⟩ := List.lookup_eq_some_iff.mp hn
  exact h (name, base) n (by simp [hcache])

lemma Right.forgotten (h : ρ.Right g) (hs : ∀ n, g.stereotype? name base ≠ .ok (some n)) :
    (ρ.remembered? name base).filter g.isLive = none :=
  Option.eq_none_iff_forall_ne_some.mpr fun n hn => hs n (h.found hn)

lemma Right.remember (h : ρ.Right g) (hs : g.stereotype? name base = .ok (some n)) :
    (ρ.remember name base n).Right g := by
  intro key m hm
  rcases List.mem_cons.mp hm with heq | hm
  · obtain ⟨rfl, rfl⟩ := Prod.mk.inj heq
    exact hs
  · exact h key m hm

lemma Right.spares (h : ρ.Right g) (hg : g.Coherent) (hs : g.SparesStereotypes g') : ρ.Right g' :=
  fun key n hn => hs.stereotype? hg (h key n hn)

/-- A registry that is right answers what a search finds. What is missing it makes if it may. -/
lemma Right.resolve_eq (h : ρ.Right g) (name : String) (base : Option String) :
    match g.stereotype? name base with
    | .error f => ρ.resolve name base g = .error f g
    | .ok (some n) => ∃ ρ', ρ.resolve name base g = .ok (.ok n, ρ') g ∧ ρ'.Right g ∧
        ρ'.synthesized = ρ.synthesized
    | .ok none => ∀ g₁, GraphM.synthesize name base g = .ok g.next g₁ → ρ.resolve name base g =
        if ρ.allowSynthesis then .ok (.ok g.next, ρ.make name base g.next) g₁
        else .ok (.error ⟨name, base⟩, ρ) g := by
  unfold resolve
  rw [bind_run (show (get : GraphM Graph) g = .ok g g from rfl)]
  cases hs : g.stereotype? name base with
  | error f =>
    rw [h.forgotten (by simp [hs])]
    exact bind_failed (by simp [GraphM.query, hs])
  | ok found =>
    cases found with
    | some n =>
      cases hr : (ρ.remembered? name base).filter g.isLive with
      | some m =>
        obtain rfl : m = n := Option.some.inj (Except.ok.inj ((h.found hr).symm.trans hs))
        exact ⟨ρ, rfl, h, rfl⟩
      | none => exact ⟨_, (bind_run (GraphM.query_ok hs)).trans rfl, h.remember hs, rfl⟩
    | none =>
      rw [h.forgotten (by simp [hs])]
      intro g₁ hmade
      refine (bind_run (GraphM.query_ok hs)).trans ?_
      dsimp only
      split_ifs
      · obtain ⟨n, g₂, hcreate, hmade⟩ := bind_eq_ok.mp hmade
        cases base with
        | none =>
          cases hmade
          exact (bind_run hcreate).trans rfl
        | some b =>
          obtain ⟨_, g₃, hadd, hmade⟩ := bind_eq_ok.mp hmade
          cases hmade
          exact (bind_run hcreate).trans ((bind_run hadd).trans rfl)
      · rfl

end runs

section calls

/-- A new stereotype spares the others, and the search that missed it finds it. -/
lemma built_synthesized (hg : g.Coherent) (hs : g.stereotype? name base = .ok none)
    (hb : g.Built (.synthesized name base) g') :
    g.SparesStereotypes g' ∧ g'.stereotype? name base = .ok (some g.next) := by
  obtain ⟨hp, hprofile, hroot, hnone⟩ := stereotype?_eq_none.mp hs
  have hparts : ∀ s, (Node.synthesized name base).children s = [] := fun s => by cases s <;> rfl
  have hlinks : ∀ y ∈ (Node.synthesized name base).links, g.isLive y = true := by
    simpa [Node.synthesized, Node.links] using hroot
  have hspares : g.SparesStereotypes g' := hb.sparesStereotypes hg hparts
    ⟨fun _ => ⟨rfl, rfl⟩, fun _ => ⟨rfl, rfl⟩, fun _ => rfl⟩ hlinks
    (by simp [Node.synthesized]) fun _ => rfl
  have missed : ∀ {p}, g.suiting? p name base = none → (g.stereotypesIn p).find?
      (fun m => (g'.node? m).any (fitsStereotype name base)) = none := fun h =>
    (List.find?_congr fun m hm => hspares.fits hm).trans h
  refine ⟨hspares, stereotype?_eq_some.mpr ⟨hb.live hp, Or.inr ⟨?_, hb.live hroot, ?_⟩⟩⟩
  · rw [suiting?, hspares.profile, missed hprofile]
  · rw [suiting?, hb.stereotypesIn hg.toLinked hparts hlinks, if_pos ⟨rfl, rfl⟩, List.find?_append,
      missed hnone, Option.none_or]
    have hfits : fitsStereotype name base (Node.synthesized name base) = true :=
      fitsStereotype_iff.mpr ⟨rfl, rfl, fun b hb => Or.inr (by simp [Node.synthesized, hb])⟩
    simp [hb.new_node, hfits]

/-- A stereotype that is missing can be made. -/
lemma synthesize_missing (hs : g.stereotype? name base = .ok none) :
    ∃ g', GraphM.synthesize name base g = .ok g.next g' ∧ g.Built (.synthesized name base) g' :=
  GraphM.synthesize_ok (stereotype?_eq_none.mp hs).2.2.1 name base

/-- Registries with the same license that are right answer alike. -/
lemma Right.answer_eq {σ : StereotypeRegistry} (h : ρ.Right g) (hσ : σ.Right g)
    (hallow : σ.allowSynthesis = ρ.allowSynthesis) :
    (Prod.fst <$> ρ.resolve name base) g = (Prod.fst <$> σ.resolve name base) g := by
  change EStateM.map _ _ g = EStateM.map _ _ g
  unfold EStateM.map
  have hrun := h.resolve_eq name base
  have hrun' := hσ.resolve_eq name base
  cases hs : g.stereotype? name base with
  | error f =>
    rw [hs] at hrun hrun'
    rw [show ρ.resolve name base g = _ from hrun, show σ.resolve name base g = _ from hrun']
  | ok found =>
    rw [hs] at hrun hrun'
    cases found with
    | some n =>
      obtain ⟨_, hrun, -⟩ := hrun
      obtain ⟨_, hrun', -⟩ := hrun'
      rw [hrun, hrun']
    | none =>
      obtain ⟨g₁, hmade, -⟩ := synthesize_missing hs
      rw [hrun g₁ hmade, hrun' g₁ hmade, hallow]
      split_ifs <;> rfl

/-- Who answers right leaves what the answer is, and stays right. -/
structure Answered (ρ : StereotypeRegistry) (g : Graph) (name : String) (base : Option String)
    (answer : Except MissingStereotype NodeId) (ρ' : StereotypeRegistry) (g' : Graph) : Prop where
  spares : g.SparesStereotypes g'
  right : ρ'.Right g'
  synthesized : ρ'.synthesized = ρ.synthesized ∨
    ρ'.synthesized = ρ.synthesized ++ [g.next] ∧ g'.next = g.next + 1
  answer : ∀ n, answer = .ok n → g'.stereotype? name base = .ok (some n)

/-- How a search of a registry that is right ends, and what it leaves. -/
lemma Right.outcome (hg : g.Coherent) (h : ρ.Right g) (name : String) (base : Option String) :
    ρ.Outcome g name base (ρ.resolve name base g) ∧
      ∀ a ρ' g', ρ.resolve name base g = .ok (a, ρ') g' → Answered ρ g name base a ρ' g' := by
  have hrun := h.resolve_eq name base
  cases hs : g.stereotype? name base with
  | error f =>
    rw [hs] at hrun
    rw [show ρ.resolve name base g = _ from hrun]
    refine ⟨.unsearchable ((stereotype?_failed hs).imp_right ?_), nofun⟩
    exact And.imp_left fun hnone => not_suits_of_suiting? hg.toLinked hnone
  | ok found =>
    rw [hs] at hrun
    cases found with
    | some n =>
      obtain ⟨ρ₁, hrun, hright, hsynthesized⟩ := hrun
      rw [hrun]
      constructor
      · obtain ⟨-, hn | ⟨hnone, -, hn⟩⟩ := stereotype?_eq_some.mp hs
        · exact .found (suits_of_suiting? hg.toLinked hn) (Or.inl rfl) hsynthesized
        · refine .found (suits_of_suiting? hg.toLinked hn) (Or.inr ⟨rfl, ?_⟩) hsynthesized
          exact not_suits_of_suiting? hg.toLinked hnone
      · rintro a ρ' g' ⟨⟩
        exact ⟨.refl hg, hright, Or.inl hsynthesized, fun m hm => Except.ok.inj hm ▸ hs⟩
    | none =>
      obtain ⟨g₁, hmade, hb⟩ := synthesize_missing hs
      rw [hrun g₁ hmade]
      obtain ⟨-, hprofile, -, hroot⟩ := stereotype?_eq_none.mp hs
      have hnone : ∀ m, ¬g.Suits profilePackage name base m ∧ ¬g.Suits root name base m := fun m =>
        ⟨not_suits_of_suiting? hg.toLinked hprofile m, not_suits_of_suiting? hg.toLinked hroot m⟩
      split_ifs with hallow
      · refine ⟨.made hnone hallow hb rfl, ?_⟩
        rintro a ρ' g' ⟨⟩
        obtain ⟨hspares, hfound⟩ := built_synthesized hg hs hb
        refine ⟨hspares, ?_, Or.inr ⟨rfl, hb.next⟩, fun m hm => Except.ok.inj hm ▸ hfound⟩
        exact Right.remember (h.spares hg hspares) hfound
      · refine ⟨.missing hnone (eq_false_of_ne_true hallow), ?_⟩
        rintro a ρ' g' ⟨⟩
        exact ⟨.refl hg, h, Or.inl rfl, nofun⟩

lemma Right.unchanged {f : GraphFault} (hg : g.Coherent) (h : ρ.Right g)
    (hrun : ρ.resolve name base g = .error f g') : g' = g := by
  have ho := (h.outcome hg name base).1
  rw [hrun] at ho
  cases ho
  rfl

end calls

end StereotypeRegistry

/-- Registries on one graph. -/
structure Registries where
  graph : Graph
  opened : List StereotypeRegistry

namespace Registries

/-- What can happen to registries: another one is opened, one of them is asked, or the graph is
changed by others, who leave the stereotypes alone. -/
inductive Step : Registries → Registries → Prop
  | opens (w : Registries) (allowSynthesis : Bool) :
      Step w ⟨w.graph, w.opened ++ [⟨allowSynthesis, [], []⟩]⟩
  | answers {w : Registries} {i : ℕ} {ρ ρ' : StereotypeRegistry} {name : String}
      {base : Option String} {answer : Except MissingStereotype NodeId} {g : Graph} :
      w.opened[i]? = some ρ → ρ.resolve name base w.graph = .ok (answer, ρ') g →
      Step w ⟨g, w.opened.set i ρ'⟩
  | fails {w : Registries} {i : ℕ} {ρ : StereotypeRegistry} {name : String} {base : Option String}
      {f : GraphFault} {g : Graph} :
      w.opened[i]? = some ρ → ρ.resolve name base w.graph = .error f g → Step w ⟨g, w.opened⟩
  | others {w : Registries} {g : Graph} : w.graph.SparesStereotypes g → Step w ⟨g, w.opened⟩

/-- What a sequence of steps leads to. -/
abbrev Leads : Registries → Registries → Prop := Relation.ReflTransGen Step

/-- The stereotypes that registries made, registry by registry. -/
def synthesized (w : Registries) : List NodeId := w.opened.flatMap (·.synthesized)

/-- All registries are right, and every stereotype that they made is listed once. -/
structure Right (w : Registries) : Prop where
  coherent : w.graph.Coherent
  right : ∀ ρ ∈ w.opened, ρ.Right w.graph
  nodup : w.synthesized.Nodup
  old : ∀ n ∈ w.synthesized, n < w.graph.next

variable {w w' : Registries} {n : NodeId} {name : String} {base : Option String}

lemma right_fresh {g : Graph} (hg : g.Coherent) : Right ⟨g, []⟩ :=
  ⟨hg, nofun, List.nodup_nil, nofun⟩

/-- An answer changes the list of one registry at most, by an element that is in none. -/
lemma synthesized_set {i : ℕ} {ρ ρ' : StereotypeRegistry} {answer : Except MissingStereotype NodeId}
    {g : Graph} (h : w.Right) (hρ : w.opened[i]? = some ρ)
    (ha : ρ.Answered w.graph name base answer ρ' g) :
    (synthesized ⟨g, w.opened.set i ρ'⟩).Nodup ∧
      ∀ n ∈ synthesized ⟨g, w.opened.set i ρ'⟩, n < g.next := by
  obtain ⟨hi, rfl⟩ := List.getElem?_eq_some_iff.mp hρ
  obtain ⟨before, after, hopened, -, hset⟩ : ∃ before after, w.opened =
      before ++ w.opened[i] :: after ∧ before.length = i ∧ w.opened.set i ρ' =
        before ++ ρ' :: after := List.exists_of_set hi
  have hbefore : w.synthesized = before.flatMap (·.synthesized) ++
      (w.opened[i].synthesized ++ after.flatMap (·.synthesized)) := by
    rw [synthesized]
    conv_lhs => rw [hopened]
    rw [List.flatMap_append, List.flatMap_cons]
  have hafter : synthesized ⟨g, w.opened.set i ρ'⟩ = before.flatMap (·.synthesized) ++
      (ρ'.synthesized ++ after.flatMap (·.synthesized)) := by
    rw [synthesized, hset, List.flatMap_append, List.flatMap_cons]
  rcases ha.synthesized with hsame | ⟨hmore, hnext⟩
  · rw [hafter, hsame, ← hbefore]
    exact ⟨h.nodup, fun n hn => (h.old n hn).trans_le ha.spares.ages.next⟩
  · have hperm : (synthesized ⟨g, w.opened.set i ρ'⟩).Perm (w.graph.next :: w.synthesized) := by
      have hmiddle : (before.flatMap (·.synthesized) ++ w.opened[i].synthesized ++
          w.graph.next :: after.flatMap (·.synthesized)).Perm (w.graph.next ::
            (before.flatMap (·.synthesized) ++ w.opened[i].synthesized ++
              after.flatMap (·.synthesized))) := List.perm_middle
      rw [hafter, hmore, hbefore]
      simpa using hmiddle
    refine ⟨hperm.nodup_iff.mpr (List.nodup_cons.mpr ⟨fun hn => (h.old _ hn).false, h.nodup⟩), ?_⟩
    intro n hn
    rw [hnext]
    rcases List.mem_cons.mp (hperm.mem_iff.mp hn) with rfl | hn
    · exact lt_add_one _
    · exact (h.old n hn).trans (lt_add_one _)

/-- A step keeps registries right and spares the stereotypes. -/
lemma Step.right (hs : Step w w') (h : w.Right) :
    w'.Right ∧ w.graph.SparesStereotypes w'.graph := by
  cases hs with
  | opens allow =>
    refine ⟨⟨h.coherent, ?_, ?_, ?_⟩, .refl h.coherent⟩
    · intro ρ hρ
      rcases List.mem_append.mp hρ with hρ | hρ
      · exact h.right ρ hρ
      · obtain rfl := List.mem_singleton.mp hρ
        simp [StereotypeRegistry.Right]
    · simpa [synthesized] using h.nodup
    · simpa [synthesized] using h.old
  | answers hρ hrun =>
    have ha := ((h.right _ (List.mem_of_getElem? hρ)).outcome h.coherent _ _).2 _ _ _ hrun
    obtain ⟨hnodup, hold⟩ := synthesized_set h hρ ha
    refine ⟨⟨ha.spares.coherent, fun σ hσ => ?_, hnodup, hold⟩, ha.spares⟩
    rcases List.mem_or_eq_of_mem_set hσ with hσ | rfl
    · exact (h.right σ hσ).spares h.coherent ha.spares
    · exact ha.right
  | fails hρ hrun =>
    obtain rfl := (h.right _ (List.mem_of_getElem? hρ)).unchanged h.coherent hrun
    exact ⟨h, .refl h.coherent⟩
  | others hs =>
    refine ⟨⟨hs.coherent, fun ρ hρ => (h.right ρ hρ).spares h.coherent hs, h.nodup, ?_⟩, hs⟩
    exact fun n hn => (h.old n hn).trans_le hs.ages.next

namespace Leads

lemma right (hw : Leads w w') (h : w.Right) : w'.Right := by
  induction hw with
  | refl => exact h
  | tail _ hs ih => exact (hs.right ih).1

/-- What was found is found ever after. -/
lemma stereotype? (hw : Leads w w') (h : w.Right)
    (hn : w.graph.stereotype? name base = .ok (some n)) :
    w'.graph.stereotype? name base = .ok (some n) := by
  induction hw with
  | refl => exact hn
  | tail hw hs ih =>
    have hright := right hw h
    exact (hs.right hright).2.stereotype? hright.coherent ih

end Leads

end Registries

/-- What registries remember makes no difference. After any calls through any registries on a graph,
failed ones included, and any changes by others that leave the stereotypes alone, a registry answers
what a new one would, and leaves the same graph. It answers the stereotype of the profile that suits,
else that of the root, else it makes one if it may, and lists that; otherwise nothing changes. Whatever
registry is asked for the same name and base class later on, the answer is the same. -/
theorem stereotype_cache_transparent {g₀ : Graph} (h₀ : g₀.Coherent) {w : Registries}
    (hw : Registries.Leads ⟨g₀, []⟩ w) {i : ℕ} {ρ : StereotypeRegistry}
    (hρ : w.opened[i]? = some ρ) (name : String) (base : Option String) :
    (Prod.fst <$> ρ.resolve name base) w.graph =
      (Prod.fst <$> StereotypeRegistry.resolve ⟨ρ.allowSynthesis, [], []⟩ name base) w.graph ∧
    ρ.Outcome w.graph name base (ρ.resolve name base w.graph) ∧
    (w.synthesized.Nodup ∧ w.graph.next ∉ w.synthesized) ∧
    ∀ n ρ' g', ρ.resolve name base w.graph = .ok (.ok n, ρ') g' →
      (∃ p, g'.Suits p name base n) ∧
      ∀ w', Registries.Leads ⟨g', w.opened.set i ρ'⟩ w' → ∀ σ ∈ w'.opened,
        ∃ σ', σ.resolve name base w'.graph = .ok (.ok n, σ') w'.graph ∧
          σ'.synthesized = σ.synthesized := by
  have h := hw.right (Registries.right_fresh h₀)
  have hright := h.right ρ (List.mem_of_getElem? hρ)
  obtain ⟨houtcome, hanswered⟩ := hright.outcome h.coherent name base
  refine ⟨hright.answer_eq nofun rfl, houtcome, ⟨h.nodup, fun hn => (h.old _ hn).false⟩, ?_⟩
  intro n ρ' g' hrun
  have ha := hanswered _ _ _ hrun
  have hfound := ha.answer n rfl
  constructor
  · obtain ⟨-, hn | ⟨-, -, hn⟩⟩ := stereotype?_eq_some.mp hfound <;>
      exact ⟨_, suits_of_suiting? ha.spares.coherent.toLinked hn⟩
  · intro w' hw' σ hσ
    have h₁ := (Registries.Step.right (.answers hρ hrun) h).1
    have hsearch := hw'.stereotype? h₁ hfound
    have hrun' := ((hw'.right h₁).right σ hσ).resolve_eq name base
    rw [hsearch] at hrun'
    obtain ⟨σ', hrun', -, hsynthesized⟩ := hrun'
    exact ⟨σ', hrun', hsynthesized⟩

/-- The profile has a stereotype of the name, but it does not suit classes. So one is made for them,
and a registry that may make none finds that. -/
theorem stereotype_cache_transparent_of_two_registries :
    let g := Graph.new "m" ⟨"p", [], [{ name := "create", baseClasses := ["Feature"] }]⟩
    let asked := StereotypeRegistry.resolve ⟨true, [], []⟩ "create" (some "Class") g
    g.Coherent ∧ ∃ ρ' g' σ', asked = .ok (.ok 4, ρ') g' ∧ ρ'.synthesized = [4] ∧
      StereotypeRegistry.resolve ⟨false, [], []⟩ "create" (some "Class") g' = .ok (.ok 4, σ') g' := by
  intro g asked
  have hanswer : (answer? asked).map (fun a => (a.1.toOption, a.2.synthesized)) =
      some (some 4, [4]) := by decide +kernel
  have hg : g.Coherent := coherent_new _ _
  have hw : Registries.Leads ⟨g, []⟩ ⟨g, [⟨true, [], []⟩, ⟨false, [], []⟩]⟩ :=
    .tail (.single (.opens ⟨g, []⟩ true)) (.opens ⟨g, [⟨true, [], []⟩]⟩ false)
  obtain ⟨-, -, -, hafter⟩ :=
    stereotype_cache_transparent hg hw (i := 0) rfl "create" (some "Class")
  change ∀ n ρ' g', asked = .ok (.ok n, ρ') g' → _ at hafter
  clear_value asked
  refine ⟨hg, ?_⟩
  rcases asked with ⟨⟨_ | n, ρ'⟩, g'⟩ | ⟨f, g'⟩
  · exact absurd hanswer (by simp [answer?, Except.toOption])
  · obtain ⟨rfl, hmade⟩ : n = 4 ∧ ρ'.synthesized = [4] := by
      simpa [answer?, Except.toOption] using hanswer
    obtain ⟨σ', hagain, -⟩ := (hafter 4 ρ' g' rfl).2 _ .refl ⟨false, [], []⟩ (by simp)
    exact ⟨ρ', g', σ', rfl, hmade, hagain⟩
  · exact absurd hanswer (by simp [answer?])

end DeclGraph
