import DeclGraph.Import.Resolution
import DeclGraph.Proofs.Graph.Identity

/-! Changes of a graph as imports make them, with what they ask for, and runs of such changes. -/

namespace DeclGraph

open DeclGraph.Graph

/-- What is done to a graph at a time. -/
inductive Change where
  /-- A new element with a record. -/
  | build (r : Node)
  /-- An element gets another owner. -/
  | move (n home : NodeId)
  /-- An element gets another record in its place. -/
  | edit (n : NodeId) (r : Node)
  | delete (n : NodeId)
  /-- A new classifier that is marked as a placeholder. -/
  | force (r : Node)
  /-- A new classifier takes the place of an element. -/
  | supersede (old : NodeId) (r : Node)
  /-- A new association with a record, and both its ends. -/
  | associate (r : Node)

/-- The record of the mark of a placeholder. -/
def Node.mark (n : NodeId) : Node where
  kind := .taggedValue
  name := some generatedTag
  owner := some n
  value := some "true"

/-- Another record for an association end, which connects the same. -/
structure Node.SameEnd (r r' : Node) : Prop where
  type : r'.type = r.type
  isNavigable : r'.isNavigable = r.isNavigable

namespace Graph

/-- A record with which an element can be added. -/
structure Addable (g : Graph) (r : Node) : Prop where
  parts : ∀ s, r.children s = []
  fit : r.FieldsFit
  live : ∀ y ∈ r.links, g.isLive y = true
  ends : ∀ a, r.association = some a → r.owner = some a
  proper : r.Proper g.kind?
  package : r.kind.isPackage = true → ∃ p, r.owner = some p
  /-- No other member of the owner has the role and the name. -/
  fresh : ∀ {p role}, r.owner = some p → r.kind.role? = some role →
    ∀ {k}, g.kind? p = some k → k.isClassifier = true → ∀ m, ¬g.IsMember p role r.name m

/-- A record that an element can get instead of the one it has. -/
structure Editable (g : Graph) (r r' : Node) : Prop where
  place : r.SamePlace r'
  fit : r'.FieldsFit
  live : ∀ y ∈ r'.links, g.isLive y = true
  association : r'.association = r.association
  proper : r'.Proper g.kind?
  name : r'.name = r.name

/-- An owner that the element `n` can get. It does not lie below the element. Packages and tagged
values stay. -/
structure Movable (g : Graph) (n : NodeId) (r : Node) (home : NodeId) : Prop where
  notPackage : r.kind.isPackage = false
  live : g.isLive home = true
  apart : ¬g.Below n home
  mayOwn : ∀ {k}, g.kind? home = some k → k.mayOwn r.kind = true
  notEnd : r.kind ≠ .associationEnd
  notTag : r.kind ≠ .taggedValue
  fresh : ∀ {role}, r.kind.role? = some role →
    ∀ {k}, g.kind? home = some k → k.isClassifier = true → ∀ m, ¬g.IsMember home role r.name m

/-- Nothing is what a record asks for: of its kind and name, with its owner. -/
def Unmet (g : Graph) (r : Node) : Prop :=
  ∀ {m x}, g.node? m = some x → x.owner = r.owner → x.name = r.name → x.kind ≠ r.kind

/-- `g'` is `g` with another record under `n`. -/
structure Edited (g : Graph) (n : NodeId) (r : Node) (g' : Graph) : Prop where
  next : g'.next = g.next
  node : ∀ m, g'.node? m = if m = n then some r else g.node? m

/-- `g'` is `g` with a new element in the place of `old`, which has the record `ro`. The references
to `old` lead to the new element, and so does the ownership of its parts, apart from its tagged
values, which are gone with it. -/
structure Superseded (g : Graph) (old : NodeId) (ro r : Node) (g' : Graph) : Prop where
  next : g'.next = g.next + 1
  coherent : g'.Coherent
  new : ∃ rn, g'.node? g.next = some rn ∧ rn.owner = r.owner ∧
    rn.bare = (r.stereotyped rn.stereotypes).bare ∧
    ∀ st, st ∈ rn.stereotypes ↔ st ∈ ro.stereotypes
  gone : ∀ m, m = old ∨ m ∈ ro.taggedValues → g'.node? m = none
  stay : ∀ {m x}, g.node? m = some x → m ≠ old → m ∉ ro.taggedValues →
    ∃ x', g'.node? m = some x' ∧ x'.bare = (x.redirect old g.next).bare ∧
      x'.owner = (if x.owner = some old then some g.next else x.owner) ∧
      ∀ s, s ≠ .owned → x'.children s = x.children s
  back : ∀ {m x'}, g'.node? m = some x' → m = g.next ∨ g.isLive m = true

/-- `g'` is `g` with a new end of an association. -/
structure BuiltEnd (g : Graph) (association : NodeId) (r : Node) (g' : Graph) : Prop
    extends g.Built r g' where
  addable : g.Addable r
  kind : r.kind = .associationEnd
  owner : r.owner = some association

/-- `g'` is `g` with a new association from `c` to `p` that has the record `ra`, and with both its
ends. -/
structure Associated (g : Graph) (ra : Node) (c p : NodeId) (name : String) (g' : Graph) : Prop where
  kind : ra.kind = .association
  addable : g.Addable ra
  built : ∃ (re ro : Node) (g₁ g₂ : Graph),
    g.Built ra g₁ ∧ g₁.BuiltEnd g.next re g₂ ∧ g₂.BuiltEnd g.next ro g'
  spans : g'.Spans g.next (g.next + 1) (g.next + 2) c p name

/-- What the changes do, with what they ask for. -/
inductive Step (g : Graph) : Change → Graph → Prop
  | build {r : Node} {g' : Graph} : g.Addable r → r.kind.isJoint = false → g.Built r g' →
      g.Admits g' → Step g (.build r) g'
  | move {n home : NodeId} {r : Node} {g' : Graph} : g.node? n = some r → g.Movable n r home →
      g.Moved n r (some home) g' → g.Admits g' → Step g (.move n home) g'
  | edit {n : NodeId} {r r' : Node} {g' : Graph} : g.node? n = some r → g.Editable r r' →
      (r.kind = .associationEnd → r.SameEnd r') → g.Edited n r' g' → g.Admits g' →
      Step g (.edit n r') g'
  | delete {n : NodeId} {r : Node} : g.node? n = some r → r.kind.isPackage = false →
      Step g (.delete n) (g.remove (g.doomedWith n))
  | force {r : Node} {g₁ g' : Graph} : g.Addable r → r.kind.isClassifier = true →
      (∃ p k, r.owner = some p ∧ g.kind? p = some k ∧ k.isPackage = true) → g.Built r g₁ →
      g₁.Built (.mark g.next) g' → g.Unmet r → Step g (.force r) g'
  | supersede {old : NodeId} {ro r : Node} {g' : Graph} : g.node? old = some ro →
      ro.kind.isClassifier = true → r.kind.isClassifier = true → r.name = ro.name →
      r.owner = ro.owner → r.endpoints = [] → g.Superseded old ro r g' →
      Step g (.supersede old r) g'
  | associate {ra : Node} {c p : NodeId} {name : String} {g' : Graph} :
      g.Associated ra c p name g' → g.Free (.field c p name) → Step g (.associate ra) g'

/-- Runs of changes, each of which is permitted. -/
inductive Steps (P : Graph → Change → Prop) (g : Graph) : Graph → Prop
  | refl : Steps P g g
  | step {g' g'' : Graph} {c : Change} : Steps P g g' → P g' c → g'.Step c g'' → Steps P g g''

variable {P Q : Graph → Change → Prop} {g g' g'' : Graph} {n m p : NodeId} {r x y : Node}
  {c : Change} {role : MemberRole} {name : Option String} {k : NodeKind}

lemma Step.permitted (h : g.Step c g') (hP : P g c) : Steps P g g' := .step .refl hP h

namespace Steps

lemma trans (h : Steps P g g') (h' : Steps P g' g'') : Steps P g g'' := by
  induction h' with
  | refl => exact h
  | step _ hP hs ih => exact ih.step hP hs

lemma mono (h : Steps P g g') (hPQ : P ≤ Q) : Steps Q g g' := by
  induction h with
  | refl => exact .refl
  | step _ hP hs ih => exact ih.step (hPQ _ _ hP) hs

end Steps

namespace Built

/-- What is left of an element that was there before. -/
lemma old_bare (h : g.Built r g') (hm : g.node? m = some x) :
    ∃ x', g'.node? m = some x' ∧ x'.bare = x.bare ∧ x'.owner = x.owner := by
  refine ⟨_, h.old_node hm, ?_⟩
  split_ifs <;> simp

lemma cases_bare (h : g.Built r g') (hm : g'.node? m = some y) : (m = g.next ∧ y = r) ∨
    ∃ x, g.node? m = some x ∧ y.bare = x.bare ∧ y.owner = x.owner := by
  refine (h.node_cases hm).imp_right ?_
  rintro ⟨x, hx, rfl⟩
  refine ⟨x, hx, ?_⟩
  split_ifs <;> simp

lemma kind?_old (h : g.Built r g') (hm : g.isLive m = true) : g'.kind? m = g.kind? m := by
  obtain ⟨x, hx⟩ := isLive_iff.mp hm
  obtain ⟨x', hx', hb, _⟩ := h.old_bare hx
  rw [kind?_eq hx, kind?_eq hx', (Node.bare_congr hb).1]

lemma kind?_new (h : g.Built r g') : g'.kind? g.next = some r.kind := kind?_eq h.new_node

lemma isMember (h : g.Built r g') (hm : g'.IsMember n role name m) :
    (m = g.next ∧ r.owner = some n ∧ r.kind.role? = some role ∧ r.name = name) ∨
      g.IsMember n role name m := by
  obtain ⟨y, hy, ho, hk, hn⟩ := hm
  rcases h.cases_bare hy with ⟨rfl, rfl⟩ | ⟨x, hx, hb, hxo⟩
  · exact Or.inl ⟨rfl, ho, hk, hn⟩
  · have hh := Node.bare_congr hb
    exact Or.inr ⟨x, hx, hxo ▸ ho, hh.1 ▸ hk, hh.2.1 ▸ hn⟩

end Built

lemma Regular.built (h : g.Regular) (ha : g.Addable r) (hb : g.Built r g') : g'.Regular := by
  have kinds : ∀ y, g.isLive y = true → g'.kind? y = g.kind? y := fun _ => hb.kind?_old
  refine ⟨h.toCoherent.built hb ha.parts ha.fit ha.live ha.ends, ?_, ?_, ?_⟩
  · rw [kinds root h.root_live]
    exact h.root_kind
  · intro n y hy
    rcases hb.cases_bare hy with ⟨rfl, rfl⟩ | ⟨x, hx, hbare, ho⟩
    · exact ha.proper.congr fun z hz => kinds z (ha.live z hz)
    · exact ((h.proper hx).congr fun z hz => kinds z (h.live hx z hz)).of_bare hbare ho
  · intro n k hk hc role name m m' hm hm'
    by_cases hn : n = g.next
    · subst hn
      obtain ⟨y, hy, ho, _⟩ := hm
      rcases hb.cases_bare hy with ⟨rfl, rfl⟩ | ⟨x, hx, _, hxo⟩
      · exact absurd rfl (ne_next (ha.live g.next (by simp [Node.links, ho])))
      · exact absurd rfl (ne_next (h.owner_live hx (hxo ▸ ho)))
    · have hnl : g.isLive n = true :=
        (hb.isLive.mp (isLive_of_kind? hk)).resolve_left hn
      rw [kinds n hnl] at hk
      rcases hb.isMember hm with ⟨rfl, ho, hr, rfl⟩ | hm₁ <;>
        rcases hb.isMember hm' with ⟨rfl, ho', hr', hn'⟩ | hm₂
      · rfl
      · exact absurd hm₂ (ha.fresh ho hr hk hc _)
      · exact absurd (hn' ▸ hm₁) (ha.fresh ho' hr' hk hc _)
      · exact h.distinct hk hc hm₁ hm₂

lemma Moved.cases_bare {home : Option NodeId} (h : g.Moved n r home g')
    (hm : g'.node? m = some y) :
    ∃ x, g.node? m = some x ∧ y.bare = x.bare ∧ y.owner = if m = n then home else x.owner := by
  rw [h.node] at hm
  obtain ⟨x, hx, rfl⟩ := Option.map_eq_some_iff.mp hm
  exact ⟨x, hx, Node.bare_relocated n m r x home, Node.owner_relocated n m r x home⟩

lemma Moved.old_bare {home : Option NodeId} (h : g.Moved n r home g') (hm : g.node? m = some x) :
    ∃ y, g'.node? m = some y ∧ y.bare = x.bare ∧ y.owner = if m = n then home else x.owner :=
  ⟨_, by rw [h.node, hm]; rfl, Node.bare_relocated n m r x home, Node.owner_relocated n m r x home⟩

lemma Moved.kind? {home : Option NodeId} (h : g.Moved n r home g') (m : NodeId) :
    g'.kind? m = g.kind? m := by
  rw [Graph.kind?, Graph.kind?, h.node, Option.map_map]
  congr 1
  funext x
  exact (Node.bare_congr (Node.bare_relocated n m r x home)).1

lemma Regular.moved {home : NodeId} (h : g.Regular) (hr : g.node? n = some r) (ha : g.Movable n r home)
    (hm : g.Moved n r (some home) g') : g'.Regular := by
  have hl := h.toLinked.relocate hr (fun p hp => Option.some.inj hp ▸ ha.live) hm
  refine ⟨⟨hl, ?_⟩, ?_, ?_, ?_⟩
  · intro e y a hy hya
    obtain ⟨x, hx, hb, ho⟩ := hm.cases_bare hy
    have hxa : x.association = some a := by
      rw [← (Node.bare_congr hb).2.2.2.2.2.2.2.2.2.1]
      exact hya
    by_cases hen : e = n
    · subst hen
      obtain rfl := Option.some.inj (hr.symm.trans hx)
      rw [(h.fit hr).associationEnd ha.notEnd] at hxa
      exact absurd hxa (by simp)
    · rw [ho, if_neg hen]
      exact h.endsAtHome hx hxa
  · rw [hm.kind?]
    exact h.root_kind
  · intro m y hy
    obtain ⟨x, hx, hb, ho⟩ := hm.cases_bare hy
    have hx' : x.Proper g'.kind? := (h.proper hx).congr fun z _ => hm.kind? z
    by_cases hmn : m = n
    · subst hmn
      obtain rfl := Option.some.inj (hr.symm.trans hx)
      rw [if_pos rfl] at ho
      have hh := Node.bare_congr hb
      refine (Node.Proper.of_bare (r := { r with owner := some home }) ?_ hb ho)
      refine ⟨?_, hx'.stereotype, hx'.endpoint, hx'.classifier, hx'.container,
        fun _ => ⟨home, rfl⟩, hx'.named, hx'.complete⟩
      intro p k hp hk
      obtain rfl := Option.some.inj hp
      rw [hm.kind?] at hk
      exact ha.mayOwn hk
    · rw [if_neg hmn] at ho
      exact hx'.of_bare hb ho
  · intro p k hk hc role name m m' hmem hmem'
    rw [hm.kind?] at hk
    have back : ∀ {m}, g'.IsMember p role name m →
        (m = n ∧ home = p ∧ r.kind.role? = some role ∧ r.name = name) ∨
          g.IsMember p role name m := by
      rintro m ⟨y, hy, ho, hro, hna⟩
      obtain ⟨x, hx, hb, hxo⟩ := hm.cases_bare hy
      have hh := Node.bare_congr hb
      by_cases hmn : m = n
      · subst hmn
        obtain rfl := Option.some.inj (hr.symm.trans hx)
        rw [if_pos rfl] at hxo
        exact Or.inl ⟨rfl, Option.some.inj (hxo.symm.trans ho), hh.1 ▸ hro, hh.2.1 ▸ hna⟩
      · rw [if_neg hmn] at hxo
        exact Or.inr ⟨x, hx, hxo ▸ ho, hh.1 ▸ hro, hh.2.1 ▸ hna⟩
    rcases back hmem with ⟨rfl, rfl, hr₁, hn₁⟩ | hm₁ <;>
      rcases back hmem' with ⟨rfl, hp, hr₂, hn₂⟩ | hm₂
    · rfl
    · exact absurd hm₂ (hn₁ ▸ ha.fresh hr₁ hk hc _)
    · subst hp
      exact absurd hm₁ (hn₂ ▸ ha.fresh hr₂ hk hc _)
    · exact h.distinct hk hc hm₁ hm₂

lemma Edited.kind? (h : g.Edited n y g') (hr : g.node? n = some r) (hk : y.kind = r.kind)
    (m : NodeId) : g'.kind? m = g.kind? m := by
  rw [Graph.kind?, Graph.kind?, h.node]
  split_ifs with hm
  · rw [hm, hr, Option.map_some, Option.map_some, hk]
  · rfl

lemma Regular.edited (h : g.Regular) (hr : g.node? n = some r) (ha : g.Editable r y)
    (he : g.Edited n y g') : g'.Regular := by
  have kinds := he.kind? hr ha.place.kind
  refine ⟨?_, ?_, ?_, ?_⟩
  · refine h.toCoherent.map (F := fun m x => if m = n then y else x) ?_ ?_
    · intro m
      rw [he.node]
      split_ifs with hm
      · rw [hm, hr]
        rfl
      · exact Option.map_id'.symm
    · intro m x hx
      split_ifs with hm
      · subst hm
        obtain rfl := Option.some.inj (hr.symm.trans hx)
        refine ⟨ha.place, ha.fit, ha.live, ?_⟩
        rw [ha.association]
        exact fun a => h.endsAtHome hr
      · exact ⟨Node.SamePlace.refl x, h.fit hx, h.live hx, fun a => h.endsAtHome hx⟩
  · rw [kinds]
    exact h.root_kind
  · intro m x hx
    rw [he.node] at hx
    split_ifs at hx with hm
    · obtain rfl := Option.some.inj hx
      exact ha.proper.congr fun z _ => kinds z
    · exact (h.proper hx).congr fun z _ => kinds z
  · intro p k hk hc role name m m' hm hm'
    rw [kinds] at hk
    have back : ∀ {m}, g'.IsMember p role name m → g.IsMember p role name m := by
      rintro m ⟨x, hx, ho, hro, hna⟩
      rw [he.node] at hx
      split_ifs at hx with hmn
      · subst hmn
        obtain rfl := Option.some.inj hx
        rw [ha.place.kind] at hro
        rw [ha.place.owner] at ho
        rw [ha.name] at hna
        exact ⟨r, hr, ho, hro, hna⟩
      · exact ⟨x, hx, ho, hro, hna⟩
    exact h.distinct hk hc (back hm) (back hm')

lemma kind?_remove {doomed : List NodeId} (hm : m ∉ doomed) :
    (g.remove doomed).kind? m = g.kind? m := by
  rw [kind?, kind?, node?_remove, if_neg hm, Option.map_map]
  rfl

lemma IsMember.of_remove {doomed : List NodeId} (h : (g.remove doomed).IsMember n role name m) :
    m ∉ doomed ∧ g.IsMember n role name m := by
  obtain ⟨y, hy, ho, hk, hn⟩ := h
  obtain ⟨hm, x, hx, rfl⟩ := node?_remove_eq_some.mp hy
  exact ⟨hm, x, hx, ho, hk, hn⟩

lemma Regular.removed (h : g.Regular) (hr : g.node? n = some r) (hk : r.kind.isPackage = false) :
    (g.remove (g.doomedWith n)).Regular := by
  have hclosed := doomedWith_closed (isLive_of_node? hr) h.toLinked
  have hroot : root ∉ g.doomedWith n := by
    intro hd
    rcases h.doomedWith hd with hb | hu
    · obtain ⟨k, hkn, hp⟩ := h.isPackage_of_below hb h.root_kind rfl
      rw [kind?_eq hr] at hkn
      rw [Option.some.inj hkn, hp] at hk
      exact Bool.noConfusion hk
    · exact absurd (hu h.root_kind) (by decide)
  refine ⟨h.toCoherent.remove hclosed, ?_, ?_, ?_⟩
  · rw [kind?_remove hroot]
    exact h.root_kind
  · intro m y hy
    obtain ⟨hm, x, hx, rfl⟩ := node?_remove_eq_some.mp hy
    have hx' := h.proper hx
    have stays := fun y hy => links_remove h.toCoherent hclosed hx hm (y := y) hy
    have endpoint_stays : ∀ z ∈ (x.forget (g.doomedWith n)).endpoints, z ∉ g.doomedWith n :=
      fun z hz => (stays z (Node.endpoints_subset_links _ hz)).2
    refine ⟨?_, ?_, ?_, ?_, ?_, hx'.owned, hx'.named, ?_⟩
    · intro p k hp hkp
      obtain ⟨_, hpd⟩ := stays p (by simp [Node.links, hp])
      rw [kind?_remove hpd] at hkp
      exact hx'.owner hp hkp
    · intro s hs k hks
      obtain ⟨_, hsd⟩ := stays s (by simp [Node.links, hs])
      rw [kind?_remove hsd] at hks
      exact hx'.stereotype s (List.mem_filter.mp hs).1 hks
    · intro z hz k hkz
      rw [kind?_remove (endpoint_stays z hz)] at hkz
      refine hx'.endpoint z ?_ hkz
      simp only [Node.endpoints, Node.forget, List.mem_append, Option.mem_toList, List.mem_filter,
        Option.filter_eq_some_iff] at hz ⊢
      tauto
    · intro z hz k hkz
      rw [kind?_remove (endpoint_stays z (Node.classifiers_subset_endpoints _ hz))] at hkz
      refine hx'.classifier z ?_ hkz
      simp only [Node.classifiers, Node.forget, List.mem_append, Option.mem_toList,
        Option.filter_eq_some_iff] at hz ⊢
      tauto
    · intro c k hc hkc
      rw [kind?_remove (endpoint_stays c (Node.container_mem_endpoints hc))] at hkc
      exact hx'.container hc hkc
    · refine x.isComplete_forget (fun hk => ?_) hx'.complete
      constructor <;> rw [← Bool.not_eq_true, allDoomed_iff] <;> intro hall
      exacts [hm (hclosed.dependency m x hx hk (Or.inl hall)),
        hm (hclosed.dependency m x hx hk (Or.inr hall))]
  · intro p k hkp hc role name m m' hm hm'
    obtain ⟨y, hy, rfl⟩ := kind?_eq_some.mp hkp
    obtain ⟨_, x, hx, rfl⟩ := node?_remove_eq_some.mp hy
    exact h.distinct (kind?_eq hx) hc hm.of_remove.2 hm'.of_remove.2

lemma addable_mark (h : g.kind? n = some k) (hk : k.mayOwn .taggedValue = true) : g.Addable (.mark n) where
  parts s := by cases s <;> rfl
  fit := ⟨by simp [Node.mark], by simp [Node.mark], by simp [Node.mark]⟩
  live := by simpa [Node.links, Node.mark] using isLive_of_kind? h
  ends := by simp [Node.mark]
  proper := by
    refine ⟨?_, by simp [Node.mark], by simp [Node.mark, Node.endpoints],
      by simp [Node.mark, Node.classifiers], by simp [Node.mark], fun _ => ⟨n, rfl⟩,
      by simp [Node.mark, NodeKind.role?], rfl⟩
    intro p k' hp hk'
    obtain rfl : n = p := Option.some.inj hp
    rw [h] at hk'
    obtain rfl := Option.some.inj hk'
    exact hk
  package := by simp [Node.mark, NodeKind.isPackage]
  fresh := by simp [Node.mark, NodeKind.role?]

lemma Regular.forced {g₁ : Graph} (h : g.Regular) (ha : g.Addable r) (hc : r.kind.isClassifier = true)
    (hb : g.Built r g₁) (hm : g₁.Built (.mark g.next) g') : g'.Regular := by
  refine (h.built ha hb).built (addable_mark hb.kind?_new ?_) hm
  exact NodeKind.mayOwn_taggedValue_of_isClassifier hc

namespace Superseded

variable {old : NodeId} {ro : Node}

lemma stays (h : g.Superseded old ro r g') (hy : g'.node? m = some y) (hm : m ≠ g.next) :
    ∃ x, g.node? m = some x ∧ m ≠ old ∧ m ∉ ro.taggedValues ∧
      y.bare = (x.redirect old g.next).bare ∧
      y.owner = (if x.owner = some old then some g.next else x.owner) ∧
      ∀ s, s ≠ .owned → y.children s = x.children s := by
  obtain ⟨x, hx⟩ := isLive_iff.mp ((h.back hy).resolve_left hm)
  have hne : ¬(m = old ∨ m ∈ ro.taggedValues) := fun hg => by
    rw [h.gone m hg] at hy
    exact absurd hy (by simp)
  rw [not_or] at hne
  obtain ⟨y', hy', hs⟩ := h.stay hx hne.1 hne.2
  obtain rfl := Option.some.inj (hy.symm.trans hy')
  exact ⟨x, hx, hne.1, hne.2, hs⟩

lemma new_record (h : g.Superseded old ro r g') : ∃ rn, g'.node? g.next = some rn ∧
    rn.owner = r.owner ∧ rn.kind = r.kind ∧ rn.name = r.name ∧ rn.endpoints = r.endpoints ∧
    ∀ st, st ∈ rn.stereotypes ↔ st ∈ ro.stereotypes := by
  obtain ⟨rn, hn, ho, hb, hst⟩ := h.new
  have hh := Node.bare_congr hb
  have he := Node.endpoints_congr hb
  exact ⟨rn, hn, ho, hh.1, hh.2.1, he, hst⟩

lemma kind?_new (h : g.Superseded old ro r g') : g'.kind? g.next = some r.kind := by
  obtain ⟨rn, hn, _, hk, _⟩ := h.new_record
  rw [kind?_eq hn, hk]

lemma kind?_old (h : g.Superseded old ro r g') (hm : m ≠ g.next) {k : NodeKind}
    (hk : g'.kind? m = some k) : g.kind? m = some k := by
  obtain ⟨y, hy, rfl⟩ := kind?_eq_some.mp hk
  obtain ⟨x, hx, _, _, hb, _⟩ := h.stays hy hm
  rw [kind?_eq hx]
  exact congrArg some (Node.bare_congr hb).1.symm

/-- A member that stays keeps its place, unless it was a member of the old element. -/
lemma isMember (h : g.Superseded old ro r g') (hm : m ≠ g.next)
    (hmem : g'.IsMember p role name m) :
    m ≠ old ∧ ∃ q, g.IsMember q role name m ∧ p = if q = old then g.next else q := by
  obtain ⟨y, hy, ho, hro, hna⟩ := hmem
  obtain ⟨x, hx, hmo, _, hb, hxo, _⟩ := h.stays hy hm
  have hh := Node.bare_congr hb
  rw [hh.1] at hro
  rw [hh.2.1] at hna
  refine ⟨hmo, ?_⟩
  rw [hxo] at ho
  split_ifs at ho with hold
  · exact ⟨old, ⟨x, hx, hold, hro, hna⟩, by rw [if_pos rfl]; exact (Option.some.inj ho).symm⟩
  · refine ⟨p, ⟨x, hx, ho, hro, hna⟩, ?_⟩
    rw [if_neg]
    rintro rfl
    exact hold ho

end Superseded

lemma endpoints_redirect {old new : NodeId} (hy : m ∈ (r.redirect old new).endpoints) :
    (m ∈ r.endpoints ∧ m ≠ old) ∨ m = new := by
  have turned : ∀ z, (if z = old then new else z) = m → z = m ∧ m ≠ old ∨ m = new := by
    intro z hz
    split_ifs at hz with hzo
    exacts [Or.inr hz.symm, Or.inl ⟨hz, hz ▸ hzo⟩]
  simp only [Node.endpoints, Node.redirect, List.mem_append, Option.mem_toList,
    Option.map_eq_some_iff, List.mem_map] at hy ⊢
  rcases hy with (((((hy | hy) | hy) | hy) | hy) | hy) | hy <;> obtain ⟨z, hz, hzm⟩ := hy <;>
    rcases turned z hzm with ⟨rfl, hne⟩ | hm
  all_goals tauto

lemma classifiers_redirect {old new : NodeId} (hy : m ∈ (r.redirect old new).classifiers) :
    m ∈ r.classifiers ∨ m = new := by
  have turned : ∀ z, (if z = old then new else z) = m → z = m ∨ m = new := by
    intro z hz
    split_ifs at hz
    exacts [Or.inr hz.symm, Or.inl hz]
  simp only [Node.classifiers, Node.redirect, List.mem_append, Option.mem_toList,
    Option.map_eq_some_iff] at hy ⊢
  rcases hy with ((hy | hy) | hy) | hy <;> obtain ⟨z, hz, hzm⟩ := hy <;>
    rcases turned z hzm with rfl | hm
  all_goals tauto

namespace Superseded

variable {old : NodeId} {ro : Node}

lemma kind?_of_live (h : g.Superseded old ro r g') (hm : g.isLive m = true)
    (hk : g'.kind? m = some k) : g.kind? m = some k := h.kind?_old (ne_next hm) hk

lemma root_kind (h : g.Superseded old ro r g') (hg : g.Regular) (hold : g.node? old = some ro)
    (hco : ro.kind.isClassifier = true) : g'.kind? root = some .model := by
  obtain ⟨x, hx, hkx⟩ := kind?_eq_some.mp hg.root_kind
  have hold' : root ≠ old := by
    rintro rfl
    obtain rfl := Option.some.inj (hx.symm.trans hold)
    rw [hkx] at hco
    exact Bool.noConfusion hco
  have htags : root ∉ ro.taggedValues := by
    intro ht
    obtain ⟨y, hy, ho, _⟩ := (hg.mem_children hold .taggedValues root).mp ht
    obtain rfl := Option.some.inj (hx.symm.trans hy)
    obtain ⟨_, _, hmay⟩ := hg.mayOwn hx ho
    rw [hkx] at hmay
    exact Bool.noConfusion hmay
  obtain ⟨y, hy, hb, _⟩ := h.stay hx hold' htags
  rw [kind?_eq hy, (Node.bare_congr hb).1]
  exact congrArg some hkx

/-- The new record refers to elements of the right kinds. -/
lemma proper_new (h : g.Superseded old ro r g') (hg : g.Regular) (hold : g.node? old = some ro)
    (hco : ro.kind.isClassifier = true) (hc : r.kind.isClassifier = true)
    (hname : r.name = ro.name) (howner : r.owner = ro.owner) (hend : r.endpoints = [])
    (hy : g'.node? g.next = some y) : y.Proper g'.kind? := by
  obtain ⟨rn, hn, ho, hk, hna, he, hst⟩ := h.new_record
  obtain rfl := Option.some.inj (hn.symm.trans hy)
  have hro := hg.proper hold
  have hcls : rn.classifiers = [] :=
    List.eq_nil_of_subset_nil (hend ▸ he ▸ rn.classifiers_subset_endpoints)
  have hrole : ro.kind.role?.isSome = true := by rw [NodeKind.role?_eq_inner.mpr hco]; rfl
  refine ⟨?_, ?_, ?_, by simp [hcls], ?_, fun _ => ?_, fun _ => ?_,
    Node.isComplete_of_isClassifier (hk ▸ hc)⟩
  · intro p k hp hkp
    rw [ho, howner] at hp
    have hmay := hro.owner hp (h.kind?_of_live (hg.owner_live hold hp) hkp)
    exact hk ▸ NodeKind.mayOwn_classifier hmay hco hc
  · intro s hs k hks
    have hmem := (hst s).mp hs
    have hl := hg.live hold s (ro.stereotypes_subset_links hmem)
    exact hro.stereotype s hmem (h.kind?_of_live hl hks)
  · intro z hz k _
    rw [he, hend] at hz
    exact absurd hz (by simp)
  · intro c k hc' _
    have hmem := Node.container_mem_endpoints hc'
    rw [he, hend] at hmem
    exact absurd hmem (by simp)
  · rw [ho, howner]
    exact hro.owned (NodeKind.isOwned_of_role hrole)
  · rw [hna, hname]
    exact hro.named hrole

/-- So do the records that were there before. -/
lemma proper_old (h : g.Superseded old ro r g') (hg : g.Regular) (hold : g.node? old = some ro)
    (hco : ro.kind.isClassifier = true) (hc : r.kind.isClassifier = true)
    (hm : m ≠ g.next) (hy : g'.node? m = some y) : y.Proper g'.kind? := by
  obtain ⟨x, hx, _, _, hb, ho, _⟩ := h.stays hy hm
  have hh := Node.bare_congr hb
  have hx' := hg.proper hx
  have hcomplete : y.bare.isComplete = (x.redirect old g.next).bare.isComplete :=
    congrArg Node.isComplete hb
  have hcls : y.bare.classifiers = (x.redirect old g.next).bare.classifiers :=
    congrArg Node.classifiers hb
  have hcont : y.bare.container = (x.redirect old g.next).bare.container :=
    congrArg Node.container hb
  refine ⟨?_, ?_, ?_, ?_, ?_, ?_, ?_,
    hcomplete.trans ((x.isComplete_redirect _ _).trans hx'.complete)⟩
  · intro p k hp hk
    rw [hh.1]
    rw [ho] at hp
    split_ifs at hp with hxo
    · obtain rfl := Option.some.inj hp
      rw [h.kind?_new] at hk
      obtain rfl := Option.some.inj hk
      exact NodeKind.mayOwn_of_isClassifier (hx'.owner hxo (kind?_eq hold)) hco hc
    · exact hx'.owner hp (h.kind?_of_live (hg.owner_live hx hp) hk)
  · intro s hst k hk
    rw [hh.2.2.2.2.2.2.2.2.2.2] at hst
    have hl := hg.live hx s (x.stereotypes_subset_links hst)
    exact hx'.stereotype s hst (h.kind?_of_live hl hk)
  · intro z hz k hk
    rw [Node.endpoints_congr hb] at hz
    rcases endpoints_redirect hz with ⟨hz, _⟩ | rfl
    · have hl := hg.live hx z (x.endpoints_subset_links hz)
      exact hx'.endpoint z hz (h.kind?_of_live hl hk)
    · rw [h.kind?_new] at hk
      rw [← Option.some.inj hk, NodeKind.isEndpoint, hc, Bool.or_true, Bool.true_or]
  · intro z hz k hk
    rcases classifiers_redirect (hcls ▸ hz : z ∈ (x.redirect old g.next).classifiers) with hz | rfl
    · have hl := hg.live hx z (x.endpoints_subset_links (x.classifiers_subset_endpoints hz))
      exact hx'.classifier z hz (h.kind?_of_live hl hk)
    · rw [h.kind?_new] at hk
      exact Option.some.inj hk ▸ hc
  · intro c k hyc hk
    obtain ⟨d, hd, hdc⟩ := Option.map_eq_some_iff.mp
      (hcont ▸ hyc : (x.redirect old g.next).container = some c)
    have hl := hg.live hx d (x.endpoints_subset_links (Node.container_mem_endpoints hd))
    split_ifs at hdc with hdo
    · -- a classifier is not a component
      rw [hx'.container (k := ro.kind) hd (hdo ▸ kind?_eq hold)] at hco
      exact Bool.noConfusion hco
    · exact hx'.container hd (h.kind?_of_live hl (hdc ▸ hk))
  · intro hk
    rw [hh.1] at hk
    obtain ⟨p, hp⟩ := hx'.owned hk
    rw [ho]
    split_ifs
    exacts [⟨_, rfl⟩, ⟨p, hp⟩]
  · rw [hh.1, hh.2.1]
    exact hx'.named

/-- The new element is the only one that is where it is and takes over members of `old` alone. -/
lemma distinct (h : g.Superseded old ro r g') (hg : g.Regular) (hold : g.node? old = some ro)
    (hco : ro.kind.isClassifier = true) (hc : r.kind.isClassifier = true)
    (hname : r.name = ro.name) (howner : r.owner = ro.owner) (hk : g'.kind? p = some k)
    (hkc : k.isClassifier = true) : g'.Distinct p := by
  have old_inner : ro.kind.role? = some .inner := NodeKind.role?_eq_inner.mpr hco
  have new_inner : ∀ {p role name}, g'.IsMember p role name g.next →
      p ≠ g.next ∧ g.IsMember p role name old := by
    rintro p role name ⟨y, hy, ho, hro, hna⟩
    obtain ⟨rn, hn, hno, hnk, hnn, _⟩ := h.new_record
    obtain rfl := Option.some.inj (hn.symm.trans hy)
    have hroo : ro.owner = some p := by rw [← howner, ← hno, ho]
    refine ⟨ne_next (hg.owner_live hold hroo), ro, hold, hroo, ?_, ?_⟩
    · rw [old_inner, ← hro, hnk, NodeKind.role?_eq_inner.mpr hc]
    · rw [← hname, ← hna, hnn]
  intro role name m m' hm hm'
  by_cases hp : p = g.next
  · subst hp
    have back : ∀ {m}, g'.IsMember g.next role name m → g.IsMember old role name m := by
      intro m hm
      have hmn : m ≠ g.next := fun hmn => (new_inner (hmn ▸ hm)).1 rfl
      obtain ⟨_, q, hq, hqo⟩ := h.isMember hmn hm
      split_ifs at hqo with hq'
      · exact hq' ▸ hq
      · obtain ⟨x, hx, ho, _⟩ := hq
        exact absurd hqo.symm (ne_next (hg.owner_live hx ho))
    exact hg.distinct (kind?_eq hold) hco (back hm) (back hm')
  · have hkp := h.kind?_old hp hk
    have back : ∀ {m}, m ≠ g.next → g'.IsMember p role name m → m ≠ old ∧ g.IsMember p role name m := by
      intro m hmn hm
      obtain ⟨hmo, q, hq, hqo⟩ := h.isMember hmn hm
      split_ifs at hqo with hq'
      · exact absurd hqo hp
      · exact ⟨hmo, hqo ▸ hq⟩
    by_cases h₁ : m = g.next <;> by_cases h₂ : m' = g.next
    · rw [h₁, h₂]
    · obtain ⟨hne, hmem⟩ := back h₂ hm'
      exact absurd (hg.distinct hkp hkc hmem (new_inner (h₁ ▸ hm)).2) hne
    · obtain ⟨hne, hmem⟩ := back h₁ hm
      exact absurd (hg.distinct hkp hkc hmem (new_inner (h₂ ▸ hm')).2) hne
    · exact hg.distinct hkp hkc (back h₁ hm).2 (back h₂ hm').2

end Superseded

end Graph

end DeclGraph
