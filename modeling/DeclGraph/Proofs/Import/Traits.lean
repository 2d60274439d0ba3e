import DeclGraph.Proofs.Graph.Groundwork
import DeclGraph.Proofs.Import.Scoping

/-! What declarations say about their elements, and that changes around an element leave it what was
said about it. -/

namespace DeclGraph

open DeclGraph.Graph

/-- What a declaration may say about its element besides its name and its place. -/
structure Traits where
  visibility : Option Visibility := none
  isAbstract : Bool := false
  isLeaf : Bool := false
  isRoot : Bool := false
  isReadOnly : Bool := false
  multiplicity : Option String := none
  type : Option NodeId := none
  initialValue : Option String := none
  stereotypes : Finset NodeId := ∅
  deriving DecidableEq

namespace Node

def traits (r : Node) : Traits where
  visibility := r.visibility
  isAbstract := r.isAbstract
  isLeaf := r.isLeaf
  isRoot := r.isRoot
  isReadOnly := r.isReadOnly
  multiplicity := r.multiplicity
  type := r.type
  initialValue := r.initialValue
  stereotypes := r.stereotypes.toFinset

/-- Another record about which the same is said. -/
structure SameFace (r r' : Node) : Prop where
  kind : r'.kind = r.kind
  name : r'.name = r.name
  direction : r'.direction = r.direction
  traits : r'.traits = r.traits
  parameters : r'.parameters = r.parameters

lemma SameFace.refl (r : Node) : r.SameFace r := ⟨rfl, rfl, rfl, rfl, rfl⟩

lemma SameFace.trans {r r' r'' : Node} (h : r.SameFace r') (h' : r'.SameFace r'') :
    r.SameFace r'' :=
  ⟨h'.kind.trans h.kind, h'.name.trans h.name, h'.direction.trans h.direction,
    h'.traits.trans h.traits, h'.parameters.trans h.parameters⟩

lemma traits_bare (r : Node) : r.bare.traits = r.traits := rfl

lemma traits_of_bare {r r' : Node} (h : r'.bare = r.bare) : r'.traits = r.traits :=
  (traits_bare r').symm.trans ((congrArg traits h).trans (traits_bare r))

lemma SameFace.of_bare {r r' : Node} (h : r'.bare = r.bare) (hp : r'.parameters = r.parameters) :
    r.SameFace r' :=
  ⟨(bare_congr h).1, (bare_congr h).2.1, congrArg (·.direction) h, traits_of_bare h, hp⟩

/-- A part that is no parameter changes nothing about its owner. -/
lemma sameFace_attached (r : Node) (owner : Option NodeId) (n : NodeId) {slot : Slot}
    (hs : slot ≠ .parameters) (part : NodeId) :
    r.SameFace (if owner = some n then r.attach slot part else r) := by
  split_ifs
  · refine .of_bare (by simp) ?_
    have := children_attach r slot .parameters part
    rwa [if_neg fun hc => hs hc.1.symm] at this
  · exact .refl r

end Node

/-- Elements of some kinds are at the ends of no edges, and what is owned by them is of these kinds
as well. -/
structure NodeKind.Trailing (q : NodeKind → Bool) : Prop where
  part : ∀ {k k'}, q k = true → k.mayOwn k' = true → q k' = true
  whole : q .associationEnd = true → q .association = true
  loose : ∀ {k}, q k = true → k.isEndpoint = false

namespace NodeKind

/-- Edges that say something, and tagged values. -/
def isSide (k : NodeKind) : Bool := k.isTie || k = .taggedValue

/-- What comes beside classifiers and features. -/
def isBeside (k : NodeKind) : Bool := k.isPackage || k = .stereotype || k.isSide

lemma trailing_isSide : Trailing isSide where
  part {k k'} := by cases k <;> cases k' <;> decide
  whole := by decide
  loose {k} := by cases k <;> decide

lemma slot_of_isBeside {k : NodeKind} (h : k.isBeside = true) : k.slot ≠ .parameters := by
  revert h
  cases k <;> decide

lemma eq_parameter_of_slot {k : NodeKind} (h : k.slot = .parameters) : k = .parameter := by
  revert h
  cases k <;> decide

end NodeKind

namespace Graph

variable {q : NodeKind → Bool} {u : UnitContext} {made edited : List NodeKind} {g g' : Graph}
  {n m : NodeId} {r : Node} {k : NodeKind} {c : Change} {doomed : List NodeId}

/-- What goes with such an element is of these kinds. -/
lemma Sound.trailing_of_doomed (h : g.Sound) (hq : NodeKind.Trailing q) (hn : g.kind? n = some k)
    (hk : q k = true) (hm : m ∈ g.doomedWith n) : ∃ k', g.kind? m = some k' ∧ q k' = true := by
  have loose : ∀ {e r c}, g.node? e = some r → c ∈ r.endpoints →
      ¬∃ k', g.kind? c = some k' ∧ q k' = true := by
    rintro e r c hr hc ⟨k', hk', hqk⟩
    have hend := (h.proper hr).endpoint c hc hk'
    rw [hq.loose hqk] at hend
    cases hend
  refine doomedWith_subset (X := fun m => ∃ k', g.kind? m = some k' ∧ q k' = true)
    ⟨?_, ?_, ?_, ?_, ?_, ?_⟩ ⟨k, hn, hk⟩ hm
  · rintro p r c ⟨k', hk', hqk⟩ hr hc
    obtain ⟨s, hs⟩ := Node.mem_parts.mp hc
    obtain ⟨rc, hrc, ho, -⟩ := (h.mem_children hr s c).mp hs
    exact ⟨_, kind?_eq hrc, hq.part hqk ((h.proper hrc).owner ho hk')⟩
  · rintro e r a ⟨k', hk', hqk⟩ hr hend ha
    have ho := h.endsAtHome hr ha
    obtain ⟨ra, hra, hmay⟩ := h.mayOwn hr ho
    have hassoc : ra.kind = .association := by simpa [hend, NodeKind.mayOwn] using hmay
    obtain rfl := Option.some.inj ((kind?_eq hr).symm.trans hk')
    exact ⟨_, kind?_eq hra, hassoc ▸ hq.whole (hend ▸ hqk)⟩
  · intro e r c hr _ hc hX
    exact absurd hX (loose hr (by rcases hc with hc | hc <;> simp [Node.endpoints, hc]))
  · rintro e r hr _ (⟨hne, hX⟩ | ⟨hne, hX⟩)
    all_goals
      obtain ⟨c, hc⟩ := List.exists_mem_of_ne_nil _ hne
      exact absurd (hX c hc) (loose hr (by simp [Node.endpoints, hc]))
  · intro e r c hr _ hc hX
    exact absurd hX (loose hr (by rcases hc with hc | hc <;> simp [Node.endpoints, hc]))
  · intro e r a c hr _ _ hc hX
    exact absurd hX (loose hr (by simp [Node.endpoints, hc]))

/-- Nothing of what is said about an element is lost with elements of such kinds. -/
lemma Sound.traits_forget (h : g.Sound) (hq : NodeKind.Trailing q) (hst : q .stereotype = false)
    (hd : ∀ m ∈ doomed, ∃ k, g.kind? m = some k ∧ q k = true) (hr : g.node? n = some r) :
    (r.forget doomed).traits = r.traits := by
  have htype : r.type.filter (· ∉ doomed) = r.type := by
    cases hy : r.type with
    | none => rfl
    | some y =>
      apply Option.filter_some_pos
      rw [decide_eq_true_eq]
      intro hin
      obtain ⟨k, hk, hqk⟩ := hd y hin
      have hend := (h.proper hr).endpoint y (by simp [Node.endpoints, hy]) hk
      rw [hq.loose hqk] at hend
      cases hend
  have hsts : r.stereotypes.filter (· ∉ doomed) = r.stereotypes := by
    rw [List.filter_eq_self]
    intro st hin
    rw [decide_eq_true_eq]
    intro hdoomed
    obtain ⟨k, hk, hqk⟩ := hd st hdoomed
    rw [(h.proper hr).stereotype st hin hk, hst] at hqk
    cases hqk
  simp only [Node.traits, Node.forget, htype, hsts]

/-- New elements that are no parameters change nothing about those that were there. -/
lemma Built.sameFace {x : Node} (h : g.Built r g') (hk : r.kind.slot ≠ .parameters)
    (hx : g.node? n = some x) : ∃ x', g'.node? n = some x' ∧ x.SameFace x' :=
  ⟨_, h.old_node hx, x.sameFace_attached r.owner n hk g.next⟩

/-- What may be done around an element that is not changed itself changes nothing about it. -/
lemma Sound.sameFace_step (h : g.Sound) (hP : Permit.within u made edited g c) (hc : g.Step c g')
    (hmade : ∀ k ∈ made, k.isBeside = true) (hr : g.node? n = some r)
    (hkeep : r.kind.isSide = false) (hedit : r.kind ∉ edited) :
    ∃ r', g'.node? n = some r' ∧ r.SameFace r' := by
  cases hc with
  | build _ _ hb => exact hb.sameFace (NodeKind.slot_of_isBeside (hmade _ hP.1)) hr
  | move hx _ hmoved =>
    obtain ⟨k, hin, hk, -⟩ := hP
    obtain rfl := Option.some.inj ((kind?_eq hx).symm.trans hk)
    have hslot := NodeKind.slot_of_isBeside (hmade _ hin)
    refine ⟨_, by rw [hmoved.node, hr]; rfl, .of_bare (by simp) ?_⟩
    exact Node.children_relocated_of_ne (s := .parameters) _ _ _ _ _ hslot.symm
  | @edit v x x' _ hx _ _ hed =>
    obtain ⟨k, hin, hk⟩ := hP
    have hne : n ≠ v := by
      rintro rfl
      exact hedit ((Option.some.inj ((kind?_eq hr).symm.trans hk)) ▸ hin)
    exact ⟨r, by rw [hed.node, if_neg hne, hr], .refl r⟩
  | @delete v x hx hnp =>
    obtain ⟨k, hin, hk, hne⟩ := hP
    obtain rfl := Option.some.inj ((kind?_eq hx).symm.trans hk)
    have hside : x.kind.isSide = true := by
      simpa [NodeKind.isBeside, hnp, hne] using hmade _ hin
    have hd : ∀ m ∈ g.doomedWith v, ∃ k, g.kind? m = some k ∧ k.isSide = true :=
      fun m => h.trailing_of_doomed NodeKind.trailing_isSide hk hside
    have out : ∀ {m y}, g.node? m = some y → y.kind.isSide = false → m ∉ g.doomedWith v := by
      intro m y hy hqy hin
      obtain ⟨k, hk, hqk⟩ := hd m hin
      obtain rfl := Option.some.inj ((kind?_eq hy).symm.trans hk)
      rw [hqy] at hqk
      cases hqk
    refine ⟨_, node?_remove_eq_some.mpr ⟨out hr hkeep, r, hr, rfl⟩, rfl, rfl, rfl,
      h.traits_forget NodeKind.trailing_isSide rfl hd hr, ?_⟩
    refine List.filter_eq_self.mpr fun p hp => ?_
    obtain ⟨y, hy, -, hslot⟩ := (h.mem_children hr .parameters p).mp hp
    rw [decide_eq_true_eq]
    exact out hy (by rw [NodeKind.eq_parameter_of_slot hslot]; rfl)
  | force _ hcl _ hb hmark =>
    obtain ⟨x, hx, hface⟩ := hb.sameFace (by rw [NodeKind.slot_of_isClassifier hcl]; decide) hr
    obtain ⟨x', hx', hface'⟩ := hmark.sameFace (by simp [Node.mark, NodeKind.slot]) hx
    exact ⟨x', hx', hface.trans hface'⟩
  | supersede => exact hP.elim
  | associate ha =>
    obtain ⟨re, ro, g₁, g₂, hb₁, hb₂, hb₃⟩ := ha.built
    obtain ⟨x₁, hx₁, hf₁⟩ := hb₁.sameFace (by rw [ha.kind]; decide) hr
    obtain ⟨x₂, hx₂, hf₂⟩ := hb₂.toBuilt.sameFace (by rw [hb₂.kind]; decide) hx₁
    obtain ⟨x₃, hx₃, hf₃⟩ := hb₃.toBuilt.sameFace (by rw [hb₃.kind]; decide) hx₂
    exact ⟨x₃, hx₃, (hf₁.trans hf₂).trans hf₃⟩

/-- What may be done in a run around an element changes nothing about it. -/
lemma Sound.sameFace_within (h : g.Sound) (hs : Steps (Permit.within u made edited) g g')
    (hmade : ∀ k ∈ made, k.isBeside = true) (hr : g.node? n = some r)
    (hkeep : r.kind.isSide = false) (hedit : r.kind ∉ edited) :
    ∃ r', g'.node? n = some r' ∧ r.SameFace r' := by
  refine h.relate (R := fun g g' => ∀ r, g.node? n = some r → r.kind.isSide = false →
    r.kind ∉ edited → ∃ r', g'.node? n = some r' ∧ r.SameFace r') hs ?_ ?_ ?_ r hr hkeep hedit
  · exact fun _ r hr _ _ => ⟨r, hr, .refl r⟩
  · intro _ _ _ h h' r hr hkeep hedit
    obtain ⟨r', hr', hface⟩ := h r hr hkeep hedit
    rw [← hface.kind] at hkeep hedit
    obtain ⟨r'', hr'', hface'⟩ := h' r' hr' hkeep hedit
    exact ⟨r'', hr'', hface.trans hface'⟩
  · exact fun h hP hc r hr hkeep hedit => h.sameFace_step hP hc hmade hr hkeep hedit

end Graph

namespace Graph

section said

variable {g g' : Graph} {n : NodeId} {r : Node} {f : Node → Node} {k : NodeKind} {a : Traits}
  {F : Traits → Traits}

/-- All elements are still there, and what is said about them is what was. -/
structure KeepsFaces (g g' : Graph) : Prop where
  node : ∀ {n r}, g.node? n = some r → ∃ r', g'.node? n = some r' ∧ r.SameFace r'

instance : IsPreorder Graph KeepsFaces where
  refl g := ⟨fun hr => ⟨_, hr, .refl _⟩⟩
  trans g g' g'' h h' := by
    refine ⟨fun {n r} hr => ?_⟩
    obtain ⟨r', hr', hface⟩ := h.node hr
    obtain ⟨r'', hr'', hface'⟩ := h'.node hr'
    exact ⟨r'', hr'', hface.trans hface'⟩

/-- What is said about an element; nothing if it is not there. -/
def traitsOf (g : Graph) (n : NodeId) : Traits := (g.node? n).elim {} Node.traits

/-- An element of a kind is there, and this is said about it. -/
def Says (g : Graph) (n : NodeId) (k : NodeKind) (a : Traits) : Prop :=
  ∃ r, g.node? n = some r ∧ r.kind = k ∧ r.traits = a

/-- If an element is there, it is of a kind. -/
def Meets (g : Graph) (n : NodeId) (k : NodeKind) : Prop := ∀ r, g.node? n = some r → r.kind = k

lemma meets_node (hr : g.node? n = some r) : g.Meets n r.kind :=
  fun _ hr' => Option.some.inj (hr'.symm.trans hr) ▸ rfl

lemma meets_none (hn : g.node? n = none) : g.Meets n k := fun _ hr => nomatch hn.symm.trans hr

lemma traitsOf_node (hr : g.node? n = some r) : g.traitsOf n = r.traits := by
  rw [traitsOf, hr]
  rfl

lemma traitsOf_none (hn : g.node? n = none) : g.traitsOf n = {} := by
  rw [traitsOf, hn]
  rfl

lemma Moved.traitsOf {home : Option NodeId} (h : g.Moved n r home g') (m : NodeId) :
    g'.traitsOf m = g.traitsOf m := by
  cases hx : g.node? m with
  | none => rw [traitsOf_none hx, traitsOf_none (by rw [h.node, hx]; rfl)]
  | some x =>
    obtain ⟨y, hy, hbare, -⟩ := h.old_bare hx
    rw [traitsOf_node hx, traitsOf_node hy, Node.traits_of_bare hbare]

lemma Says.traitsOf (h : g.Says n k a) : g.traitsOf n = a := by
  obtain ⟨r, hr, -, ha⟩ := h
  rw [traitsOf_node hr, ha]

lemma Says.kind? (h : g.Says n k a) : g.kind? n = some k := by
  obtain ⟨r, hr, rfl, -⟩ := h
  exact kind?_eq hr

lemma KeepsFaces.says (h : g.KeepsFaces g') (hn : g.Says n k a) : g'.Says n k a := by
  obtain ⟨r, hr, rfl, rfl⟩ := hn
  obtain ⟨r', hr', hface⟩ := h.node hr
  exact ⟨r', hr', hface.kind, hface.traits⟩

lemma Says.modify (h : g.Says n k a) (hk : ∀ r, (f r).kind = r.kind)
    (hf : ∀ r, (f r).traits = F r.traits) : (g.modify n f).Says n k (F a) := by
  obtain ⟨r, hr, rfl, rfl⟩ := h
  exact ⟨f r, by rw [node?_modify, if_pos rfl, hr]; rfl, hk r, hf r⟩

/-- What resolving names says about elements that are no groundwork is what was said about them. -/
lemma traitsOf_after (hlays : g.Lays g') (hkeeps : g.KeepsFaces g') (hn : g'.Meets n k)
    (hk : k ∉ NodeKind.groundwork) : g'.traitsOf n = g.traitsOf n := by
  cases hr : g.node? n with
  | some r =>
    obtain ⟨r', hr', hface⟩ := hkeeps.node hr
    rw [traitsOf_node hr', traitsOf_node hr, hface.traits]
  | none =>
    rw [traitsOf_none hr]
    cases hr' : g'.node? n with
    | none => exact traitsOf_none hr'
    | some r' =>
      rcases hlays.node hr' with ⟨r, hr₀, -⟩ | ⟨-, hnew⟩
      · rw [hr] at hr₀
        cases hr₀
      · exact absurd (hn r' hr' ▸ hnew) hk

end said

end Graph

/-- What an operation has as a parameter. -/
structure ParameterFace where
  name : Option String
  type : Option NodeId
  direction : Option Direction
  deriving DecidableEq

namespace NodeKind

/-- Parameters and what comes beside classifiers and features. -/
def isLoose (k : NodeKind) : Bool := k.isSide || k = .parameter

lemma trailing_isLoose : Trailing isLoose where
  part {k k'} := by cases k <;> cases k' <;> decide
  whole := by decide
  loose {k} := by cases k <;> decide

end NodeKind

namespace Graph

variable {g g' : Graph} {n op p : NodeId} {r : Node} {f : Node → Node} {k : NodeKind} {a : Traits}
  {faces : List ParameterFace} {name : Option String} {type : Option NodeId}
  {direction : Direction}

def parameterFace? (g : Graph) (p : NodeId) : Option ParameterFace :=
  (g.node? p).map fun r => ⟨r.name, r.type, r.direction⟩

/-- The parameters of an operation, in order. -/
def Takes (g : Graph) (op : NodeId) (faces : List ParameterFace) : Prop :=
  ∃ r, g.node? op = some r ∧ r.parameters.map g.parameterFace? = faces.map some

instance (g : Graph) (op : NodeId) (faces : List ParameterFace) : Decidable (g.Takes op faces) :=
  decidable_of_iff ((g.node? op).any fun r => r.parameters.map g.parameterFace? = faces.map some)
    (by simp [Takes, Option.any_eq_true])

lemma Takes.of_same (h : g.Takes op faces)
    (hop : ∀ r, g.node? op = some r → ∃ r', g'.node? op = some r' ∧ r'.parameters = r.parameters)
    (hface : ∀ p x, g.parameterFace? p = some x → g'.parameterFace? p = some x) :
    g'.Takes op faces := by
  obtain ⟨r, hr, hfaces⟩ := h
  obtain ⟨r', hr', hparams⟩ := hop r hr
  refine ⟨r', hr', ?_⟩
  rw [hparams, ← hfaces]
  refine List.map_congr_left fun p hp => ?_
  have hin : g.parameterFace? p ∈ faces.map some := hfaces ▸ List.mem_map_of_mem hp
  obtain ⟨x, -, hx⟩ := List.mem_map.mp hin
  rw [← hx, hface p x hx.symm]

lemma Takes.unique {faces' : List ParameterFace} (h : g.Takes op faces) (h' : g.Takes op faces') :
    faces = faces' := by
  obtain ⟨r, hr, hfaces⟩ := h
  obtain ⟨r', hr', hfaces'⟩ := h'
  obtain rfl := Option.some.inj (hr.symm.trans hr')
  exact List.map_injective_iff.mpr (Option.some_injective _) (hfaces.symm.trans hfaces')

lemma KeepsFaces.takes (h : g.KeepsFaces g') (ht : g.Takes op faces) : g'.Takes op faces := by
  refine ht.of_same (fun r hr => ?_) fun p x hx => ?_
  · obtain ⟨r', hr', hface⟩ := h.node hr
    exact ⟨r', hr', hface.parameters⟩
  · obtain ⟨r, hr, rfl⟩ := Option.map_eq_some_iff.mp hx
    obtain ⟨r', hr', hface⟩ := h.node hr
    have htype : r'.type = r.type := congrArg Traits.type hface.traits
    simp [parameterFace?, hr', hface.name, hface.direction, htype]

lemma Takes.modify (h : g.Takes op faces) (hparams : ∀ r, (f r).parameters = r.parameters)
    (hf : ∀ r, (f r).name = r.name ∧ (f r).type = r.type ∧ (f r).direction = r.direction) :
    (g.modify n f).Takes op faces := by
  refine h.of_same (fun r hr => ?_) fun p x hx => ?_
  · rw [node?_modify, hr]
    split_ifs
    exacts [⟨f r, rfl, hparams r⟩, ⟨r, rfl, rfl⟩]
  · obtain ⟨r, hr, rfl⟩ := Option.map_eq_some_iff.mp hx
    rw [parameterFace?, node?_modify, hr]
    split_ifs
    exacts [by simp [hf r], rfl]

/-- A parameter that is built comes last. -/
lemma Takes.built (h : g.Takes op faces) (hb : g.Built
    { kind := .parameter, name, owner := some op, type, direction := some direction } g') :
    g'.Takes op (faces ++ [⟨name, type, some direction⟩]) := by
  obtain ⟨r, hr, hfaces⟩ := h
  have hin : ∀ p ∈ r.parameters, ∃ y, g.node? p = some y := by
    intro p hp
    have hface : g.parameterFace? p ∈ faces.map some := hfaces ▸ List.mem_map_of_mem hp
    obtain ⟨x, -, hx⟩ := List.mem_map.mp hface
    obtain ⟨y, hy, -⟩ := Option.map_eq_some_iff.mp hx.symm
    exact ⟨y, hy⟩
  have hnew : g.next ∉ r.parameters := by
    intro hmem
    obtain ⟨y, hy⟩ := hin _ hmem
    exact ne_next (isLive_of_node? hy) rfl
  have hlist : (r.attach .parameters g.next).parameters = r.parameters ++ [g.next] := by
    change (r.attach .parameters g.next).children .parameters = _
    rw [Node.children_attach, if_pos ⟨rfl, hnew⟩]
    rfl
  have hold : ∀ p ∈ r.parameters, g'.parameterFace? p = g.parameterFace? p := by
    intro p hp
    obtain ⟨y, hy⟩ := hin p hp
    rw [parameterFace?, parameterFace?, hb.old_node hy, hy]
    split_ifs
    · have hbare := Node.bare_congr (Node.bare_attach y .parameters g.next)
      have hdir : (y.attach .parameters g.next).direction = y.direction :=
        congrArg (·.direction) (Node.bare_attach y .parameters g.next)
      simp [NodeKind.slot, hbare.2.1, hbare.2.2.1, hdir]
    · rfl
  refine ⟨r.attach .parameters g.next, (hb.old_node hr).trans (by rw [if_pos rfl]; rfl), ?_⟩
  rw [hlist, List.map_append, List.map_append, List.map_congr_left hold, hfaces]
  simp [parameterFace?, hb.new_node]

lemma Says.built (h : g.Says n k a) (hb : g.Built r g') : g'.Says n k a := by
  obtain ⟨x, hx, rfl, rfl⟩ := h
  obtain ⟨x', hx', hbare, -⟩ := hb.old_bare hx
  exact ⟨x', hx', (Node.bare_congr hbare).1, Node.traits_of_bare hbare⟩

end Graph

end DeclGraph
