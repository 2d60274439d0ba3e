import DeclGraph.Proofs.Graph.Persistence

/-! What changes of a graph do to the members of a classifier: which of them leave the classifier
alone, and which add a member or take one away. -/

namespace DeclGraph

open DeclGraph.Graph

namespace NodeKind

lemma slot_features {k : NodeKind} :
    k.slot = .features ↔ k.role? = some .operation ∨ k.role? = some .attr := by
  cases k <;> decide

lemma slot_ne_features {k : NodeKind} (hk : k.role? = none) : Slot.features ≠ k.slot := by
  revert hk
  cases k <;> decide

lemma isDeclared_of_role {k : NodeKind} {role : MemberRole} (hk : k.role? = some role) :
    k.isDeclared = true := by
  simp [isDeclared, hk]

end NodeKind

namespace Graph

variable {g g' g'' : Graph} {n m p v : NodeId} {r x y : Node} {role role' : MemberRole}
  {name name' : Option String} {k : NodeKind}

/-- The element `n` carries a tag. -/
def Tagged (g : Graph) (n : NodeId) (tag : String) : Prop :=
  ∃ t r, g.node? t = some r ∧ r.kind = .taggedValue ∧ r.owner = some n ∧ r.name = some tag

/-- An element is where it was and no more of a placeholder. -/
structure Stays (g : Graph) (n : NodeId) (g' : Graph) : Prop where
  ages : Ages g g'
  node : ∀ {r}, g.node? n = some r → ∃ r', g'.node? n = some r' ∧ r'.kind = r.kind ∧
    r'.owner = r.owner ∧ r'.name = r.name
  tagged : g'.Tagged n generatedTag → g.Tagged n generatedTag

/-- The features of an element are the same, one by one. -/
def SameFeatures (g : Graph) (n : NodeId) (g' : Graph) : Prop :=
  ∀ r r', g.node? n = some r → g'.node? n = some r' → r'.features = r.features

/-- A classifier stays, and its members are the same. -/
structure Spares (g : Graph) (n : NodeId) (g' : Graph) : Prop extends Stays g n g' where
  features : g.SameFeatures n g'
  member : ∀ {role name m}, g'.IsMember n role name m ↔ g.IsMember n role name m

/-- A classifier stays, and its members in a role under a name made place for one. -/
structure Declares (g : Graph) (n : NodeId) (role : MemberRole) (name : String) (m : NodeId)
    (g' : Graph) : Prop extends Stays g n g' where
  features : role = .inner → g.SameFeatures n g'
  member : ∀ {role' name' m'}, g'.IsMember n role' name' m' ↔
    if role' = role ∧ name' = some name then m' = m else g.IsMember n role' name' m'
  gone : ∀ {m'}, g.IsMember n role (some name) m' → m' = m ∨ role = .inner ∧ ¬g'.isLive m' = true

namespace Stays

lemma refl (g : Graph) (n : NodeId) : g.Stays n g := ⟨.refl g, fun hr => ⟨_, hr, rfl, rfl, rfl⟩, id⟩

lemma trans (h : g.Stays n g') (h' : g'.Stays n g'') : g.Stays n g'' := by
  refine ⟨h.ages.trans h'.ages, fun hr => ?_, fun ht => h.tagged (h'.tagged ht)⟩
  obtain ⟨r', hr', hk, ho, hn⟩ := h.node hr
  obtain ⟨r'', hr'', hk', ho', hn'⟩ := h'.node hr'
  exact ⟨r'', hr'', hk'.trans hk, ho'.trans ho, hn'.trans hn⟩

lemma kind? (h : g.Stays n g') (hk : g.kind? n = some k) : g'.kind? n = some k := by
  obtain ⟨r, hr, rfl⟩ := kind?_eq_some.mp hk
  obtain ⟨r', hr', hk', _⟩ := h.node hr
  rw [kind?_eq hr', hk']

lemma features_trans (h : g.Stays n g') (hf : g.SameFeatures n g') (hf' : g'.SameFeatures n g'') :
    g.SameFeatures n g'' := by
  intro r r'' hr hr''
  obtain ⟨r', hr', _⟩ := h.node hr
  exact (hf' r' r'' hr' hr'').trans (hf r r' hr hr')

end Stays

lemma SameFeatures.refl (g : Graph) (n : NodeId) : g.SameFeatures n g :=
  fun _ _ hr hr' => Option.some.inj (hr'.symm.trans hr) ▸ rfl

namespace Spares

lemma refl (g : Graph) (n : NodeId) : g.Spares n g := ⟨.refl g n, .refl g n, Iff.rfl⟩

lemma trans (h : g.Spares n g') (h' : g'.Spares n g'') : g.Spares n g'' :=
  ⟨h.toStays.trans h'.toStays, h.features_trans h.features h'.features, h'.member.trans h.member⟩

lemma declares (h : g.Spares n g') {name : String} (h' : g'.Declares n role name m g'') :
    g.Declares n role name m g'' := by
  refine ⟨h.toStays.trans h'.toStays, fun hi => h.features_trans h.features (h'.features hi), ?_,
    fun hm => h'.gone (h.member.mpr hm)⟩
  intro role' name' m'
  rw [h'.member, h.member]

end Spares

lemma Declares.spares {name : String} (h : g.Declares n role name m g') (h' : g'.Spares n g'') :
    g.Declares n role name m g'' := by
  refine ⟨h.toStays.trans h'.toStays, fun hi => h.features_trans (h.features hi) h'.features,
    h'.member.trans h.member, fun hm => (h.gone hm).imp_right fun ⟨hi, hd⟩ => ⟨hi, fun hl => hd ?_⟩⟩
  exact h'.ages.live _ ((lt_next hm.isLive).trans_le h.ages.next) hl

/-- Declaring a member once more. -/
lemma Declares.again {name : String} {m' : NodeId} (h : g.Declares n role name m g')
    (h' : g'.Declares n role name m' g'') : g.Declares n role name m' g'' := by
  refine ⟨h.toStays.trans h'.toStays, fun hi => h.features_trans (h.features hi) (h'.features hi),
    ?_, fun {x} hx => ?_⟩
  · intro role' name' x
    rw [h'.member, h.member]
    split_ifs <;> rfl
  · have hm : g'.IsMember n role (some name) m := h.member.mpr (by simp)
    rcases h.gone hx with rfl | ⟨hi, hd⟩
    · exact h'.gone hm
    · refine Or.inr ⟨hi, fun hl => hd ?_⟩
      exact h'.ages.live _ ((lt_next hx.isLive).trans_le h.ages.next) hl

/-- A member that is there already. -/
lemma Sound.declares (h : g.Sound) (hn : g.kind? n = some k) (hk : k.isClassifier = true)
    {name : String} (hm : g.IsMember n role (some name) m) : g.Declares n role name m g := by
  refine ⟨.refl g n, fun _ => .refl g n, ?_, fun hm' => Or.inl (h.distinct hn hk hm' hm)⟩
  intro role' name' m'
  split_ifs with heq
  · obtain ⟨rfl, rfl⟩ := heq
    exact ⟨fun hm' => h.distinct hn hk hm' hm, fun hm' => hm' ▸ hm⟩
  · exact Iff.rfl

lemma IsMember.declared (h : g.IsMember n role name m) :
    ∃ k, g.kind? m = some k ∧ k.role? = some role := by
  obtain ⟨r, hr, _, hk, _⟩ := h
  exact ⟨_, kind?_eq hr, hk⟩

/-- A member is so under one name in one role of one classifier. -/
lemma IsMember.unique (h : g.IsMember n role name m) (h' : g.IsMember p role' name' m) :
    n = p ∧ role = role' ∧ name = name' := by
  obtain ⟨r, hr, ho, hk, hn⟩ := h
  obtain ⟨r', hr', ho', hk', hn'⟩ := h'
  obtain rfl := Option.some.inj (hr.symm.trans hr')
  exact ⟨Option.some.inj (ho.symm.trans ho'), Option.some.inj (hk.symm.trans hk'), hn.symm.trans hn'⟩

/-- The features of a classifier are its members in those roles. -/
lemma Sound.mem_features (h : g.Sound) (hr : g.node? n = some r) : m ∈ r.features ↔
    ∃ role name, role ≠ .inner ∧ g.IsMember n role (some name) m := by
  refine (h.mem_children hr .features m).trans ⟨?_, ?_⟩
  · rintro ⟨x, hx, ho, hs⟩
    have hrole := NodeKind.slot_features.mp hs
    have hsome : x.kind.role?.isSome = true := by rcases hrole with hrole | hrole <;> simp [hrole]
    obtain ⟨name, hname⟩ := (h.proper hx).named hsome
    rcases hrole with hrole | hrole
    exacts [⟨_, name, by decide, x, hx, ho, hrole, hname⟩, ⟨_, name, by decide, x, hx, ho, hrole, hname⟩]
  · rintro ⟨role, name, hne, x, hx, ho, hk, _⟩
    refine ⟨x, hx, ho, NodeKind.slot_features.mpr ?_⟩
    cases role with
    | inner => exact absurd rfl hne
    | operation => exact Or.inl hk
    | attr => exact Or.inr hk

/-- The classifiers in a classifier are its members in that role. -/
lemma Sound.mem_innerClassifiers (h : g.Sound) (hr : g.node? n = some r) :
    m ∈ g.selectIn r.owned (·.kind.isClassifier) ↔ ∃ name, g.IsMember n .inner (some name) m := by
  simp only [selectIn, List.mem_filter, Option.any_eq_true]
  constructor
  · rintro ⟨hm, x, hx, hk⟩
    obtain ⟨x', hx', ho, _⟩ := (h.mem_children hr .owned m).mp hm
    obtain rfl := Option.some.inj (hx.symm.trans hx')
    have hrole := NodeKind.role?_eq_inner.mpr hk
    obtain ⟨name, hname⟩ := (h.proper hx).named (by simp [hrole])
    exact ⟨name, x, hx, ho, hrole, hname⟩
  · rintro ⟨name, x, hx, ho, hrole, _⟩
    have hk := NodeKind.role?_eq_inner.mp hrole
    refine ⟨(h.mem_children hr .owned m).mpr ⟨x, hx, ho, ?_⟩, x, hx, hk⟩
    revert hk
    cases x.kind <;> decide

/-- What is of no declared kind takes nothing that is along. -/
lemma Sound.not_doomed (h : g.Sound) (hv : g.kind? v = some k) (hk : k.isDeclared = false)
    {k' : NodeKind} (hm : g.kind? m = some k') (hk' : k'.isDeclared = true) :
    m ∉ g.doomedWith v := by
  intro hd
  rcases h.doomedWith hd with hb | hu
  · have below : ∀ {m}, g.Below v m → ∀ {k'}, g.kind? m = some k' → k'.isDeclared = false := by
      intro m hb
      induction hb with
      | self =>
        intro k' hk'
        exact Option.some.inj (hv.symm.trans hk') ▸ hk
      | @part p c r _ hr ho ih =>
        intro k' hk'
        obtain ⟨rp, hrp, hmay⟩ := h.mayOwn hr ho
        rw [kind?_eq hr] at hk'
        obtain rfl := Option.some.inj hk'
        by_contra hdec
        rw [Bool.not_eq_false] at hdec
        have := ih (kind?_eq hrp)
        rw [NodeKind.isDeclared_of_mayOwn hmay hdec] at this
        exact Bool.noConfusion this
    rw [below hb hm] at hk'
    exact Bool.noConfusion hk'
  · rw [hu hm] at hk'
    exact Bool.noConfusion hk'

/-- What a removal leaves of the members of a classifier. -/
lemma isMember_remove {doomed : List NodeId} :
    (g.remove doomed).IsMember n role name m ↔ m ∉ doomed ∧ g.IsMember n role name m := by
  refine ⟨IsMember.of_remove, ?_⟩
  rintro ⟨hm, x, hx, ho, hk, hname⟩
  exact ⟨_, node?_remove_eq_some.mpr ⟨hm, x, hx, rfl⟩, ho, hk, hname⟩

lemma Tagged.of_remove {doomed : List NodeId} {tag : String}
    (h : (g.remove doomed).Tagged n tag) : g.Tagged n tag := by
  obtain ⟨t, y, hy, hk, ho, hname⟩ := h
  obtain ⟨_, x, hx, rfl⟩ := node?_remove_eq_some.mp hy
  exact ⟨t, x, hx, hk, ho, hname⟩

/-- A removal that meets neither a classifier nor its members. -/
lemma Sound.spares_remove (h : g.Sound) {doomed : List NodeId} (hn : n ∉ doomed)
    (hm : ∀ {role name m}, g.IsMember n role name m → m ∉ doomed) :
    g.Spares n (g.remove doomed) := by
  refine ⟨⟨ages_remove, fun {r} hr => ?_, Tagged.of_remove⟩, ?_, ?_⟩
  · exact ⟨_, node?_remove_eq_some.mpr ⟨hn, r, hr, rfl⟩, rfl, rfl, rfl⟩
  · intro r r' hr hr'
    obtain ⟨_, x, hx, rfl⟩ := node?_remove_eq_some.mp hr'
    obtain rfl := Option.some.inj (hr.symm.trans hx)
    refine List.filter_eq_self.mpr fun c hc => ?_
    obtain ⟨_, _, _, hmem⟩ := (h.mem_features hr).mp hc
    simpa using hm hmem
  · intro role name m
    exact isMember_remove.trans ⟨fun h => h.2, fun hmem => ⟨hm hmem, hmem⟩⟩

/-- A new tagged value is the only one that can make a difference. -/
lemma Built.tagged {tag : String} (h : g.Built r g') (ht : g'.Tagged n tag) :
    r.kind = .taggedValue ∧ r.name = some tag ∧ r.owner = some n ∨ g.Tagged n tag := by
  obtain ⟨t, y, hy, hk, ho, hname⟩ := ht
  rcases h.cases_bare hy with ⟨_, rfl⟩ | ⟨x, hx, hb, hxo⟩
  · exact Or.inl ⟨hk, hname, ho⟩
  · have hh := Node.bare_congr hb
    exact Or.inr ⟨t, x, hx, hh.1 ▸ hk, hxo ▸ ho, hh.2.1 ▸ hname⟩

lemma Built.isMember_iff (h : g.Built r g') : g'.IsMember n role name m ↔
    (m = g.next ∧ r.owner = some n ∧ r.kind.role? = some role ∧ r.name = name) ∨
      g.IsMember n role name m := by
  refine ⟨h.isMember, ?_⟩
  rintro (⟨rfl, ho, hk, hname⟩ | ⟨x, hx, ho, hk, hname⟩)
  · exact ⟨r, h.new_node, ho, hk, hname⟩
  · obtain ⟨y, hy, hb, hyo⟩ := h.old_bare hx
    have hh := Node.bare_congr hb
    exact ⟨y, hy, hyo.trans ho, by rw [hh.1, hk], by rw [hh.2.1, hname]⟩

lemma Built.stays (h : g.Built r g')
    (hmark : r.kind = .taggedValue → r.name = some generatedTag → r.owner ≠ some n) :
    g.Stays n g' := by
  refine ⟨h.ages, fun hx => ?_, fun ht => (h.tagged ht).resolve_left ?_⟩
  · obtain ⟨y, hy, hb, ho⟩ := h.old_bare hx
    have hh := Node.bare_congr hb
    exact ⟨y, hy, hh.1, ho, hh.2.1⟩
  · rintro ⟨hk, hname, ho⟩
    exact hmark hk hname ho

lemma Built.sameFeatures (h : g.Built r g') (hs : r.kind.slot ≠ .features ∨ r.owner ≠ some n) :
    g.SameFeatures n g' := by
  intro x y hx hy
  obtain rfl := Option.some.inj ((h.old_node hx).symm.trans hy)
  split_ifs with ho
  · change (x.attach r.kind.slot g.next).children .features = x.children .features
    rw [Node.children_attach, if_neg (fun h => hs.resolve_right (not_not.mpr ho) h.1.symm)]
  · rfl

/-- Building what is no member of a classifier and no mark on it. -/
lemma Built.spares (h : g.Built r g') (hmem : r.kind.role?.isSome = true → r.owner ≠ some n)
    (hmark : r.kind = .taggedValue → r.name = some generatedTag → r.owner ≠ some n) :
    g.Spares n g' := by
  refine ⟨h.stays hmark, h.sameFeatures (Classical.or_iff_not_imp_left.mpr fun hs => hmem ?_), ?_⟩
  · rcases NodeKind.slot_features.mp (not_not.mp hs) with hrole | hrole <;> simp [hrole]
  · intro role name m
    rw [h.isMember_iff, or_iff_right]
    rintro ⟨_, ho, hk, _⟩
    exact hmem (by simp [hk]) ho

/-- Associations are no members. -/
lemma Associated.spares {c q : NodeId} {title : String} (h : g.Associated r c q title g') (n : NodeId) : g.Spares n g' := by
  have spares : ∀ {g₁ g₂ : Graph} {x : Node}, g₁.Built x g₂ →
      x.kind = .association ∨ x.kind = .associationEnd → g₁.Spares n g₂ := by
    intro g₁ g₂ x hb hk
    apply hb.spares <;> rcases hk with hk | hk <;> simp [hk, NodeKind.role?]
  obtain ⟨_, _, _, _, hb₁, hb₂, hb₃⟩ := h.built
  exact ((spares hb₁ (Or.inl h.kind)).trans (spares hb₂.toBuilt (Or.inr hb₂.kind))).trans
    (spares hb₃.toBuilt (Or.inr hb₃.kind))

/-- Building a member. -/
lemma Built.declares (h : g.Built r g') {name : String} (ho : r.owner = some n)
    (hk : r.kind.role? = some role) (hname : r.name = some name)
    (hfresh : ∀ m, ¬g.IsMember n role (some name) m) : g.Declares n role name g.next g' := by
  refine ⟨h.stays fun hkt => ?_, ?_, ?_, fun hm => absurd hm (hfresh _)⟩
  · rw [hkt] at hk
    simp [NodeKind.role?] at hk
  · rintro rfl
    refine h.sameFeatures (Or.inl fun hs => ?_)
    rcases NodeKind.slot_features.mp hs with hrole | hrole <;> simp [hrole] at hk
  · intro role' name' m'
    rw [h.isMember_iff, ho, hk, hname]
    split_ifs with heq
    · obtain ⟨rfl, rfl⟩ := heq
      simp [hfresh m']
    · refine or_iff_right ?_
      rintro ⟨_, _, hr, hn⟩
      exact heq ⟨(Option.some.inj hr).symm, hn.symm⟩

lemma Moved.isMember_iff {home : NodeId} (h : g.Moved v r (some home) g') (hv : g.node? v = some r) :
    g'.IsMember n role name m ↔
      if m = v then home = n ∧ r.kind.role? = some role ∧ r.name = name
      else g.IsMember n role name m := by
  split_ifs with hmv
  · subst hmv
    obtain ⟨y, hy, hb, hyo⟩ := h.old_bare hv
    rw [if_pos rfl] at hyo
    have hh := Node.bare_congr hb
    rw [Graph.isMember_iff hy, hyo, hh.1, hh.2.1, Option.some.injEq]
  · constructor
    · rintro ⟨y, hy, ho, hk, hname⟩
      obtain ⟨x, hx, hb, hyo⟩ := h.cases_bare hy
      rw [if_neg hmv] at hyo
      have hh := Node.bare_congr hb
      exact ⟨x, hx, hyo ▸ ho, hh.1 ▸ hk, hh.2.1 ▸ hname⟩
    · rintro ⟨x, hx, ho, hk, hname⟩
      obtain ⟨y, hy, hb, hyo⟩ := h.old_bare hx
      rw [if_neg hmv] at hyo
      have hh := Node.bare_congr hb
      exact ⟨y, hy, hyo.trans ho, by rw [hh.1, hk], by rw [hh.2.1, hname]⟩

lemma Moved.tagged {home : NodeId} {tag : String} (h : g.Moved v r (some home) g')
    (hv : g.node? v = some r) (hk : r.kind ≠ .taggedValue) (ht : g'.Tagged n tag) :
    g.Tagged n tag := by
  obtain ⟨t, y, hy, hyk, ho, hname⟩ := ht
  obtain ⟨x, hx, hb, hyo⟩ := h.cases_bare hy
  have hh := Node.bare_congr hb
  rw [if_neg] at hyo
  · exact ⟨t, x, hx, hh.1 ▸ hyk, hyo ▸ ho, hh.2.1 ▸ hname⟩
  · rintro rfl
    obtain rfl := Option.some.inj (hx.symm.trans hv)
    exact hk (hh.1 ▸ hyk)

lemma Moved.stays {home : NodeId} (h : g.Moved v r (some home) g') (hv : g.node? v = some r)
    (hk : r.kind ≠ .taggedValue) (hnv : n ≠ v) : g.Stays n g' := by
  refine ⟨⟨h.next.ge, fun m _ hm => isLive_congr h.node m ▸ hm⟩, fun hx => ?_, h.tagged hv hk⟩
  obtain ⟨y, hy, hb, ho⟩ := h.old_bare hx
  rw [if_neg hnv] at ho
  have hh := Node.bare_congr hb
  exact ⟨y, hy, hh.1, ho, hh.2.1⟩

lemma Moved.sameFeatures {home : NodeId} (h : g.Moved v r (some home) g')
    (hs : r.kind.slot ≠ .features) : g.SameFeatures n g' := by
  intro x y hx hy
  rw [h.node, hx] at hy
  obtain rfl := Option.some.inj hy
  exact Node.children_relocated_of_ne v n r x (some home) hs.symm

/-- Moving a classifier or what is no member between homes that are not the classifier's. -/
lemma Moved.spares {home : NodeId} (h : g.Moved v r (some home) g') (hv : g.node? v = some r)
    (hs : r.kind.slot ≠ .features) (hk : r.kind ≠ .taggedValue) (hnv : n ≠ v)
    (hmem : r.kind.role?.isSome = true → r.owner ≠ some n ∧ home ≠ n) : g.Spares n g' := by
  refine ⟨h.stays hv hk hnv, h.sameFeatures hs, ?_⟩
  intro role name m
  rw [h.isMember_iff hv]
  split_ifs with hmv
  · subst hmv
    rw [Graph.isMember_iff hv]
    constructor
    · rintro ⟨hh, hr, _⟩
      exact absurd hh (hmem (by simp [hr])).2
    · rintro ⟨hh, hr, _⟩
      exact absurd hh (hmem (by simp [hr])).1
  · exact Iff.rfl

/-- Moving a classifier into another one. -/
lemma Moved.declares (h : g.Moved v r (some n) g') (hv : g.node? v = some r) {name : String}
    (hk : r.kind.isClassifier = true) (hname : r.name = some name) (hnv : n ≠ v)
    (hfresh : ∀ m, ¬g.IsMember n .inner (some name) m) (hout : r.owner ≠ some n) :
    g.Declares n .inner name v g' := by
  have hrole := NodeKind.role?_eq_inner.mpr hk
  refine ⟨h.stays hv ?_ hnv, fun _ => h.sameFeatures fun hs => ?_, ?_,
    fun hm => absurd hm (hfresh _)⟩
  · intro hkt
    rw [hkt] at hk
    exact Bool.noConfusion hk
  · rcases NodeKind.slot_features.mp hs with hr | hr <;> simp [hr] at hrole
  · intro role' name' m'
    rw [h.isMember_iff hv, hrole, hname]
    split_ifs with hmv heq heq
    · obtain ⟨rfl, rfl⟩ := heq
      simp [hmv]
    · rw [hmv, Graph.isMember_iff hv, hrole, hname]
      constructor
      · rintro ⟨_, hr, hn⟩
        exact absurd ⟨(Option.some.inj hr).symm, hn.symm⟩ heq
      · rintro ⟨ho, _⟩
        exact absurd ho hout
    · obtain ⟨rfl, rfl⟩ := heq
      exact ⟨fun hm => absurd hm (hfresh _), fun hm => absurd hm hmv⟩
    · exact Iff.rfl

/-- Changing a record in its place. -/
lemma Edited.spares (h : g.Edited v y g') (hv : g.node? v = some r) (he : g.Editable r y)
    (n : NodeId) : g.Spares n g' := by
  have same : ∀ {m x}, g.node? m = some x → ∃ x', g'.node? m = some x' ∧ x'.kind = x.kind ∧
      x'.owner = x.owner ∧ x'.features = x.features ∧ x'.name = x.name := by
    intro m x hx
    by_cases hm : m = v
    · subst hm
      obtain rfl := Option.some.inj (hx.symm.trans hv)
      exact ⟨y, by rw [h.node, if_pos rfl], he.place.kind, he.place.owner,
        he.place.children .features, he.name⟩
    · exact ⟨x, by rw [h.node, if_neg hm, hx], rfl, rfl, rfl, rfl⟩
  have back : ∀ {m x'}, g'.node? m = some x' → ∃ x, g.node? m = some x := by
    intro m x' hx'
    rw [h.node] at hx'
    split_ifs at hx' with hm
    exacts [⟨r, hm ▸ hv⟩, ⟨x', hx'⟩]
  refine ⟨⟨⟨h.next.ge, fun m _ hm => ?_⟩, fun hx => ?_, ?_⟩, ?_, ?_⟩
  · obtain ⟨x', hx'⟩ := isLive_iff.mp hm
    obtain ⟨x, hx⟩ := back hx'
    exact isLive_of_node? hx
  · obtain ⟨x', hx', hk, ho, _, hname⟩ := same hx
    exact ⟨x', hx', hk, ho, hname⟩
  · rintro ⟨t, x', hx', hk, ho, hname⟩
    obtain ⟨x, hx⟩ := back hx'
    obtain ⟨x'', hx'', hk', ho', _, hn'⟩ := same hx
    obtain rfl := Option.some.inj (hx'.symm.trans hx'')
    exact ⟨t, x, hx, hk' ▸ hk, ho' ▸ ho, hn' ▸ hname⟩
  · intro x x' hx hx'
    obtain ⟨x'', hx'', _, _, hf, _⟩ := same hx
    exact Option.some.inj (hx'.symm.trans hx'') ▸ hf
  · intro role name m
    constructor
    · rintro ⟨x', hx', ho, hk, hname⟩
      obtain ⟨x, hx⟩ := back hx'
      obtain ⟨x'', hx'', hk', ho', _, hn'⟩ := same hx
      obtain rfl := Option.some.inj (hx'.symm.trans hx'')
      exact ⟨x, hx, ho' ▸ ho, hk' ▸ hk, hn' ▸ hname⟩
    · rintro ⟨x, hx, ho, hk, hname⟩
      obtain ⟨x', hx', hk', ho', _, hn'⟩ := same hx
      exact ⟨x', hx', ho'.trans ho, by rw [hk', hk], hn'.trans hname⟩

section superseded

variable {old : NodeId} {ro : Node}

/-- What stays of a member. -/
lemma Superseded.isMember_stay (h : g.Superseded old ro r g') (hg : g.Sound)
    (hold : g.node? old = some ro) (hm : g.IsMember p role name m) (hmo : m ≠ old) (hpo : p ≠ old) :
    g'.IsMember p role name m := by
  obtain ⟨x, hx, ho, hk, hname⟩ := hm
  have ht : m ∉ ro.taggedValues := by
    intro ht
    obtain ⟨x', hx', _, hs⟩ := (hg.mem_children hold .taggedValues m).mp ht
    obtain rfl := Option.some.inj (hx.symm.trans hx')
    revert hk hs
    cases x.kind <;> simp [NodeKind.role?, NodeKind.slot]
  obtain ⟨y, hy, hb, hyo, _⟩ := h.stay hx hmo ht
  have hh := Node.bare_congr hb
  rw [if_neg (by rw [ho]; exact fun hp => hpo (Option.some.inj hp)), ho] at hyo
  exact ⟨y, hy, hyo, by rw [hh.1]; exact hk, by rw [hh.2.1]; exact hname⟩

lemma Superseded.isMember_back (h : g.Superseded old ro r g') (hm : m ≠ g.next) (hp : p ≠ g.next)
    (hmem : g'.IsMember p role name m) : m ≠ old ∧ g.IsMember p role name m := by
  obtain ⟨hmo, q, hq, hpq⟩ := h.isMember hm hmem
  split_ifs at hpq with hqo
  · exact absurd hpq hp
  · exact ⟨hmo, hpq ▸ hq⟩

lemma Superseded.node_features (h : g.Superseded old ro r g') (hg : g.Sound)
    (hold : g.node? old = some ro) (hx : g.node? n = some x) (hk : x.kind.isClassifier = true)
    (hno : n ≠ old) (hxo : x.owner ≠ some old) : ∃ y, g'.node? n = some y ∧
      (y.kind = x.kind ∧ y.owner = x.owner ∧ y.name = x.name) ∧ y.features = x.features := by
  have ht : n ∉ ro.taggedValues := by
    intro ht
    obtain ⟨x', hx', _, hs⟩ := (hg.mem_children hold .taggedValues n).mp ht
    obtain rfl := Option.some.inj (hx.symm.trans hx')
    revert hk hs
    cases x.kind <;> decide
  obtain ⟨y, hy, hb, hyo, hf⟩ := h.stay hx hno ht
  rw [if_neg hxo] at hyo
  have hh := Node.bare_congr hb
  exact ⟨y, hy, ⟨hh.1, hyo, hh.2.1⟩, hf .features (by decide)⟩

/-- A new element that is a classifier carries no tag, and the old ones no others than before. -/
lemma Superseded.tagged (h : g.Superseded old ro r g') (hg : g.Sound)
    (hold : g.node? old = some ro) (hc : r.kind.isClassifier = true) {tag : String}
    (ht : g'.Tagged n tag) : n ≠ g.next ∧ g.Tagged n tag := by
  obtain ⟨t, y, hy, hk, ho, hname⟩ := ht
  have htn : t ≠ g.next := by
    rintro rfl
    have hnew := h.kind?_new
    rw [kind?_eq hy, hk] at hnew
    rw [← Option.some.inj hnew] at hc
    exact Bool.noConfusion hc
  obtain ⟨x, hx, _, htv, hb, hyo, _⟩ := h.stays hy htn
  have hh := Node.bare_congr hb
  have hkx : x.kind = .taggedValue := hh.1.symm.trans hk
  rw [ho] at hyo
  split_ifs at hyo with hxo
  · refine absurd ((hg.mem_children hold .taggedValues t).mpr ⟨x, hx, hxo, ?_⟩) htv
    rw [hkx]
    rfl
  · refine ⟨?_, t, x, hx, hkx, hyo.symm, hh.2.1.symm.trans hname⟩
    rintro rfl
    exact ne_next (hg.owner_live hx hyo.symm) rfl

lemma Superseded.spares (h : g.Superseded old ro r g') (hg : g.Sound)
    (hold : g.node? old = some ro) (hc : r.kind.isClassifier = true) (howner : r.owner = ro.owner)
    (hx : g.node? n = some x) (hk : x.kind.isClassifier = true) (hno : n ≠ old)
    (hxo : x.owner ≠ some old) (hn : ro.owner ≠ some n) : g.Spares n g' := by
  have hnn : n ≠ g.next := ne_next (isLive_of_node? hx)
  obtain ⟨y, hy, hyk, hf⟩ := h.node_features hg hold hx hk hno hxo
  refine ⟨⟨h.ages, fun hx' => ?_, fun ht => (h.tagged hg hold hc ht).2⟩, ?_, ?_⟩
  · exact Option.some.inj (hx.symm.trans hx') ▸ ⟨y, hy, hyk⟩
  · intro x' y' hx' hy'
    rw [← Option.some.inj (hx.symm.trans hx'), ← Option.some.inj (hy.symm.trans hy'), hf]
  · intro role name m
    constructor
    · intro hm
      refine (h.isMember_back ?_ hnn hm).2
      rintro rfl
      obtain ⟨y, hy, ho, _⟩ := hm
      obtain ⟨rn, hrn, hrno, _⟩ := h.new
      obtain rfl := Option.some.inj (hy.symm.trans hrn)
      exact hn (by rw [← howner, ← hrno, ho])
    · intro hm
      refine h.isMember_stay hg hold hm ?_ hno
      rintro rfl
      obtain ⟨y, hy, ho, _⟩ := hm
      obtain rfl := Option.some.inj (hy.symm.trans hold)
      exact hn ho

lemma Superseded.declares (h : g.Superseded old ro r g') (hg : g.Sound)
    (hold : g.node? old = some ro) (hco : ro.kind.isClassifier = true)
    (hc : r.kind.isClassifier = true) (howner : r.owner = ro.owner) {name : String}
    (hname : ro.name = some name) (hrname : r.name = ro.name) (hx : g.node? n = some x)
    (hk : x.kind.isClassifier = true) (hno : n ≠ old) (hxo : x.owner ≠ some old)
    (hn : ro.owner = some n) : g.Declares n .inner name g.next g' := by
  have hnn : n ≠ g.next := ne_next (isLive_of_node? hx)
  have inner : g.IsMember n .inner (some name) old :=
    ⟨ro, hold, hn, NodeKind.role?_eq_inner.mpr hco, hname⟩
  have same : ∀ {m}, g.IsMember n .inner (some name) m → m = old :=
    fun hm => hg.distinct (kind?_eq hx) hk hm inner
  obtain ⟨rn, hrn, hrno, hrnk, hrnn, _⟩ := h.new_record
  have new : g'.IsMember n .inner (some name) g.next :=
    ⟨rn, hrn, by rw [hrno, howner, hn], by rw [hrnk]; exact NodeKind.role?_eq_inner.mpr hc,
      by rw [hrnn, hrname, hname]⟩
  obtain ⟨y, hy, hyk, hf⟩ := h.node_features hg hold hx hk hno hxo
  refine ⟨⟨h.ages, fun hx' => ?_, fun ht => (h.tagged hg hold hc ht).2⟩, fun _ => ?_, ?_,
    fun hm => ?_⟩
  · exact Option.some.inj (hx.symm.trans hx') ▸ ⟨y, hy, hyk⟩
  · intro x' y' hx' hy'
    rw [← Option.some.inj (hx.symm.trans hx'), ← Option.some.inj (hy.symm.trans hy'), hf]
  · intro role' name' m'
    split_ifs with heq
    · obtain ⟨rfl, rfl⟩ := heq
      refine ⟨fun hm => ?_, fun hm => hm ▸ new⟩
      by_contra hmn
      obtain ⟨hmo, hm'⟩ := h.isMember_back hmn hnn hm
      exact hmo (same hm')
    · constructor
      · intro hm
        refine (h.isMember_back ?_ hnn hm).2
        rintro rfl
        obtain ⟨_, hr, hname'⟩ := hm.unique new
        exact heq ⟨hr, hname'⟩
      · intro hm
        refine h.isMember_stay hg hold hm ?_ hno
        rintro rfl
        obtain ⟨_, hr, hname'⟩ := hm.unique inner
        exact heq ⟨hr, hname'⟩
  · refine Or.inr ⟨rfl, ?_⟩
    rw [same hm]
    simp [Graph.isLive, h.gone old (Or.inl rfl)]

end superseded

end Graph

end DeclGraph
