import DeclGraph.Proofs.Graph.Retention

/-! What a graph gains. Many changes leave packages and classifiers where they are and only add
classifiers, components and edges; what is gained by several of them adds up. -/

namespace DeclGraph

open DeclGraph.Graph

namespace NodeKind

/-- What owns classifiers. -/
def isSpace (k : NodeKind) : Bool := k.isPackage || k.isClassifier

/-- The stereotype that an import puts on the edges of a kind. -/
def mark? : NodeKind → Option String
  | .abstraction => some Profile.realizeStereotype
  | .dependency => some Profile.importStereotype
  | _ => none

/-- Edges that say something. -/
def isTie : NodeKind → Bool
  | .generalization | .abstraction | .dependency | .elementResidence => true
  | _ => false

/-- Neither an edge that says something nor what such an edge leads from. -/
def isPlain (k : NodeKind) : Bool := !k.isTie && !k.isClassifier && k ≠ .component

/-- What is deleted without anything that is declared besides. -/
def isSlight : NodeKind → Bool
  | .operation | .attr | .parameter | .association | .associationEnd | .taggedValue => true
  | _ => false

lemma isSpace_of_mayOwn {k k' : NodeKind} (h : k.mayOwn k' = true) (hk : k'.isClassifier = true) :
    k.isSpace = true := by
  revert h hk
  cases k' <;> simp [mayOwn, isClassifier, isSpace]

end NodeKind

/-- What an edge of the model says. -/
inductive Link where
  | inherits (child parent : NodeId)
  | realizes (client supplier : NodeId)
  | imports (client supplier : NodeId)
  | resides (resident container : NodeId)

/-- What an edge leads from and to. -/
def Link.ends : Link → List NodeId
  | .inherits c p | .realizes c p | .imports c p | .resides c p => [c, p]

namespace Node

/-- A record is that of an edge that says something. -/
def Links (r : Node) : Link → Prop
  | .inherits c p => r.kind = .generalization ∧ r.specific = some c ∧ r.general = some p
  | .realizes c p => r.kind = .abstraction ∧ c ∈ r.clients ∧ p ∈ r.suppliers
  | .imports c p => r.kind = .dependency ∧ c ∈ r.clients ∧ p ∈ r.suppliers
  | .resides n c => r.kind = .elementResidence ∧ r.resident = some n ∧ r.container = some c

lemma links_of_bare {r r' : Node} (h : r'.bare = r.bare) (l : Link) : r'.Links l ↔ r.Links l := by
  obtain ⟨hk, _, _, hg, hs, hc, hp, hr, ho, _⟩ := bare_congr h
  cases l <;> simp only [Links, hk, hg, hs, hc, hp, hr, ho]

lemma ends_subset_endpoints {r : Node} {l : Link} (h : r.Links l) : l.ends ⊆ r.endpoints := by
  cases l <;> simp_all [Links, Link.ends, endpoints]

lemma not_links_of_isTie {r : Node} (hk : r.kind.isTie = false) (l : Link) : ¬r.Links l := by
  cases l <;> rintro ⟨h, -⟩ <;> rw [h] at hk <;> exact absurd hk (by decide)

end Node

namespace Graph

variable {g g' g'' : Graph} {n m p v : NodeId} {r x y : Node} {k : NodeKind} {l : Link}
  {name title : String}

/-- One of the edges says this. -/
def Holds (g : Graph) (l : Link) : Prop := ∃ n r, g.node? n = some r ∧ r.Links l

/-- An edge of a kind that bears a stereotype does not bear it. -/
def Loose (g : Graph) (n : NodeId) : Prop :=
  ∃ r title, g.node? n = some r ∧ r.kind.mark? = some title ∧ ¬g.Marked r title

/-- A component with its owner and its name. -/
def IsComponent (g : Graph) (n p : NodeId) (name : String) : Prop :=
  ∃ r, g.node? n = some r ∧ r.kind = .component ∧ r.owner = some p ∧ r.name = some name

/-- The classifiers that an element owns, in order. -/
def classifiersIn (g : Graph) (n : NodeId) : List NodeId :=
  match g.node? n with
  | none => []
  | some r => r.owned.filter fun m => (g.kind? m).any (·.isClassifier)

lemma classifiersIn_eq (hr : g.node? n = some r) :
    g.classifiersIn n = r.owned.filter fun m => (g.kind? m).any (·.isClassifier) := by
  simp [classifiersIn, hr]

lemma classifiersIn_of_not_isLive (hn : ¬g.isLive n = true) : g.classifiersIn n = [] := by
  simp [classifiersIn, node?_of_not_isLive hn]

lemma Linked.mem_classifiersIn (h : g.Linked) : m ∈ g.classifiersIn n ↔
    ∃ x, g.node? m = some x ∧ x.owner = some n ∧ x.kind.isClassifier = true := by
  cases hr : g.node? n with
  | none =>
    simp only [classifiersIn, hr, List.not_mem_nil, false_iff]
    rintro ⟨x, hx, ho, -⟩
    have := h.owner_live hx ho
    simp [Graph.isLive, hr] at this
  | some r =>
    rw [classifiersIn_eq hr, List.mem_filter]
    constructor
    · rintro ⟨hm, hk⟩
      obtain ⟨x, hx, ho, -⟩ := (h.mem_children hr .owned m).mp hm
      rw [kind?_eq hx] at hk
      exact ⟨x, hx, ho, hk⟩
    · rintro ⟨x, hx, ho, hk⟩
      refine ⟨(h.mem_children hr .owned m).mpr ⟨x, hx, ho, NodeKind.slot_of_isClassifier hk⟩, ?_⟩
      rw [kind?_eq hx]
      exact hk

/-- What owns no classifiers has none. -/
lemma Regular.classifiersIn_eq_nil (h : g.Regular) (hk : g.kind? n = some k)
    (hs : k.isSpace = false) : g.classifiersIn n = [] := by
  refine List.eq_nil_iff_forall_not_mem.mpr fun m hm => ?_
  obtain ⟨x, hx, ho, hc⟩ := h.mem_classifiersIn.mp hm
  obtain ⟨rp, hrp, hmay⟩ := h.mayOwn hx ho
  obtain rfl := Option.some.inj ((kind?_eq hrp).symm.trans hk)
  rw [NodeKind.isSpace_of_mayOwn hmay hc] at hs
  exact absurd hs (by simp)

lemma Stays.remove {doomed : List NodeId} (hn : n ∉ doomed) : g.Stays n (g.remove doomed) where
  ages := ages_remove
  node hr := ⟨_, node?_remove_eq_some.mpr ⟨hn, _, hr, rfl⟩, rfl, rfl, rfl⟩
  tagged ht := ht.of_remove

end Graph

/-- Classifiers under their owners, components that come and go, what edges say, and edges that do
not bear their stereotype. -/
structure Growth where
  classifiers : List (NodeId × NodeId) := []
  components : NodeId → Prop := fun _ => False
  links : Link → Prop := fun _ => False
  loose : NodeId → Prop := fun _ => False

namespace Growth

variable {r : Node} {n m : NodeId}

instance : Append Growth where
  append Δ Δ' :=
    { classifiers := Δ.classifiers ++ Δ'.classifiers
      components := fun n => Δ.components n ∨ Δ'.components n
      links := fun l => Δ.links l ∨ Δ'.links l
      loose := fun n => Δ.loose n ∨ Δ'.loose n }

/-- The classifiers under an owner. -/
def under (Δ : Growth) (n : NodeId) : List NodeId :=
  (Δ.classifiers.filter (·.1 = n)).map (·.2)

@[simp] lemma under_append (Δ Δ' : Growth) (n : NodeId) :
    (Δ ++ Δ').under n = Δ.under n ++ Δ'.under n := by
  change List.map _ (List.filter _ (_ ++ _)) = _
  rw [List.filter_append, List.map_append]
  rfl

lemma under_nil {Δ : Growth} (h : Δ.classifiers = []) (n : NodeId) : Δ.under n = [] := by
  simp [under, h]

/-- What comes with a new element. -/
def ofNew (n : NodeId) (r : Node) : Growth where
  classifiers := if r.kind.isClassifier then r.owner.toList.map (·, n) else []
  components m := m = n ∧ r.kind = .component
  links := r.Links
  loose m := m = n ∧ r.kind.mark?.isSome = true

/-- What comes and goes with an element that is moved or deleted. -/
def ofOld (n : NodeId) (k : NodeKind) : Growth where
  components m := m = n ∧ k = .component

lemma ofNew_of_isPlain (hk : r.kind.isPlain = true) : ofNew n r = {} := by
  have hl : r.Links = fun _ => False :=
    funext fun l => eq_false (Node.not_links_of_isTie (by revert hk; cases r.kind <;> decide) l)
  unfold ofNew
  rw [hl]
  revert hk
  cases r.kind <;> simp [NodeKind.isPlain, NodeKind.isTie, NodeKind.isClassifier, NodeKind.mark?]

lemma ofOld_of_ne {k : NodeKind} (hk : k ≠ .component) : ofOld n k = {} := by
  simp [ofOld, hk]

lemma under_ofNew : (ofNew n r).under m =
    if r.kind.isClassifier = true ∧ r.owner = some m then [n] else [] := by
  unfold under ofNew
  by_cases hk : r.kind.isClassifier = true
  · cases ho : r.owner with
    | none => simp
    | some p => by_cases hp : p = m <;> simp [hk, hp]
  · simp [hk]

end Growth

namespace Graph

variable {g g' g'' : Graph} {n m p v : NodeId} {r x y : Node} {k : NodeKind} {l : Link}
  {name title : String} {Δ Δ' : Growth}

/-- Packages and classifiers stay, and besides them there is what was there and what was gained. -/
structure Gains (g : Graph) (Δ : Growth) (g' : Graph) : Prop where
  ages : Ages g g'
  kind : ∀ {n k k'}, g.kind? n = some k → g'.kind? n = some k' → k' = k
  stays : ∀ {n k}, g.kind? n = some k → k.isSpace = true → g.Stays n g'
  classifiers : ∀ n, g'.classifiersIn n = g.classifiersIn n ++ Δ.under n
  component : ∀ {n p name}, ¬Δ.components n →
    (g'.IsComponent n p name ↔ g.IsComponent n p name)
  link : ∀ {l}, g'.Holds l ↔ g.Holds l ∨ Δ.links l
  loose : ∀ {n}, g'.Loose n → g.Loose n ∨ Δ.loose n

namespace Gains

lemma refl (g : Graph) : g.Gains {} g where
  ages := .refl g
  kind hk hk' := Option.some.inj (hk'.symm.trans hk)
  stays _ _ := .refl g _
  classifiers n := by simp [Growth.under]
  component _ := Iff.rfl
  link := by simp
  loose := Or.inl

lemma trans (h : g.Gains Δ g') (h' : g'.Gains Δ' g'') : g.Gains (Δ ++ Δ') g'' where
  ages := h.ages.trans h'.ages
  kind hk hk'' := by
    have hl := isLive_of_kind? hk
    have hl' := h'.ages.live _ ((lt_next hl).trans_le h.ages.next) (isLive_of_kind? hk'')
    obtain ⟨r', hr'⟩ := isLive_iff.mp hl'
    rw [h'.kind (kind?_eq hr') hk'', h.kind hk (kind?_eq hr')]
  stays hk hs := (h.stays hk hs).trans (h'.stays ((h.stays hk hs).kind? hk) hs)
  classifiers n := by
    rw [h'.classifiers, h.classifiers, List.append_assoc, Growth.under_append]
  component hn := (h'.component fun hc => hn (Or.inr hc)).trans
    (h.component fun hc => hn (Or.inl hc))
  link := by
    intro l
    rw [h'.link, h.link, or_assoc]
    rfl
  loose hn := by
    rcases h'.loose hn with hn | hn
    · exact (h.loose hn).imp_right Or.inl
    · exact Or.inr (Or.inr hn)

/-- What is gained may be put in another way. -/
lemma congr (h : g.Gains Δ g') (hc : Δ'.classifiers = Δ.classifiers)
    (hm : ∀ n, Δ.components n → Δ'.components n ∨ ∀ p name,
      ¬g.IsComponent n p name ∧ ¬g'.IsComponent n p name)
    (hl : ∀ l, g.Holds l ∨ Δ.links l ↔ g.Holds l ∨ Δ'.links l)
    (ho : ∀ n, Δ.loose n → Δ'.loose n ∨ ¬g'.Loose n) : g.Gains Δ' g' where
  ages := h.ages
  kind := h.kind
  stays := h.stays
  classifiers n := by rw [h.classifiers, Growth.under, Growth.under, hc]
  component := by
    intro n p name hn
    by_cases hn' : Δ.components n
    · obtain ⟨h₁, h₂⟩ := (hm n hn').resolve_left hn p name
      exact iff_of_false h₂ h₁
    · exact h.component hn'
  link := by
    intro l
    rw [h.link, hl]
  loose := by
    intro n hn
    refine (h.loose hn).imp_right fun hn' => ?_
    exact (ho n hn').resolve_right (not_not.mpr hn)

/-- Steps that gain nothing. -/
lemma after (h' : g'.Gains Δ g'') (h : g.Gains {} g') : g.Gains Δ g'' :=
  (h.trans h').congr rfl (fun _ hn => Or.inl (hn.resolve_left id))
    (fun _ => or_congr_right (or_iff_right id).symm.symm) fun _ hn => Or.inl (hn.resolve_left id)

lemma andThen (h : g.Gains Δ g') (h' : g'.Gains {} g'') : g.Gains Δ g'' :=
  (h.trans h').congr (List.append_nil _).symm (fun _ hn => Or.inl (hn.resolve_right id))
    (fun _ => or_congr_right (or_iff_left id)) fun _ hn => Or.inl (hn.resolve_right id)

end Gains

section steps

/-- Edges that say something are the same in records that differ in place alone. -/
lemma holds_of_records (hbare : ∀ {m y}, g'.node? m = some y → (∀ l, ¬y.Links l) ∨
      ∃ x, g.node? m = some x ∧ y.bare = x.bare)
    (hkept : ∀ {m x}, g.node? m = some x → (∀ l, ¬x.Links l) ∨
      ∃ y, g'.node? m = some y ∧ y.bare = x.bare) : g'.Holds l ↔ g.Holds l := by
  constructor
  · rintro ⟨m, y, hy, hl⟩
    obtain ⟨x, hx, hb⟩ := (hbare hy).resolve_left fun h => h l hl
    exact ⟨m, x, hx, (Node.links_of_bare hb l).mp hl⟩
  · rintro ⟨m, x, hx, hl⟩
    obtain ⟨y, hy, hb⟩ := (hkept hx).resolve_left fun h => h l hl
    exact ⟨m, y, hy, (Node.links_of_bare hb l).mpr hl⟩

/-- An edge bears a stereotype still if both are there as they were. -/
lemma Loose.back (hn : g'.Loose n) (hy : g'.node? n = some y) (hx : g.node? n = some x)
    (hk : y.kind = x.kind) (hst : x.stereotypes ⊆ y.stereotypes)
    (hnames : ∀ st ∈ x.stereotypes, ∀ {z}, g.node? st = some z →
      ∃ z', g'.node? st = some z' ∧ z'.name = z.name) : g.Loose n := by
  obtain ⟨y', title, hy', hmark, hm⟩ := hn
  obtain rfl := Option.some.inj (hy.symm.trans hy')
  refine ⟨x, title, hx, hk ▸ hmark, fun ⟨st, hin, z, hz, hname⟩ => hm ?_⟩
  obtain ⟨z', hz', hname'⟩ := hnames st hin hz
  exact ⟨st, hst hin, z', hz', hname'.trans hname⟩

lemma Built.classifiersIn (h : g.Linked) (ha : g.Addable r) (hb : g.Built r g') (n : NodeId) :
    g'.classifiersIn n = g.classifiersIn n ++ (Growth.ofNew g.next r).under n := by
  have hne : ∀ {p}, r.owner = some p → p ≠ g.next := fun ho =>
    ne_next (ha.live _ (by simp [Node.links, ho]))
  rw [Growth.under_ofNew]
  cases hx : g.node? n with
  | none =>
    have howner : r.owner ≠ some n := fun ho => by
      have := ha.live n (by simp [Node.links, ho])
      simp [Graph.isLive, hx] at this
    have hnone : g.classifiersIn n = [] := by simp [Graph.classifiersIn, hx]
    rw [if_neg fun h => howner h.2, List.append_nil, hnone]
    by_cases hn : n = g.next
    · subst hn
      have hnil : r.owned = [] := ha.parts .owned
      simp [classifiersIn_eq hb.new_node, hnil]
    · simp [Graph.classifiersIn, hb.node, hn, hx]
  | some x =>
    rw [classifiersIn_eq hx, classifiersIn_eq (hb.old_node hx)]
    have hold : ∀ m ∈ x.owned, g'.kind? m = g.kind? m := fun m hm =>
      hb.kind?_old (h.children_live hx (s := .owned) hm)
    have hfilter : (x.owned.filter fun m => (g'.kind? m).any (·.isClassifier)) =
        x.owned.filter fun m => (g.kind? m).any (·.isClassifier) :=
      List.filter_congr fun m hm => by rw [hold m hm]
    by_cases ho : r.owner = some n
    · have howned : (x.attach r.kind.slot g.next).owned =
          if r.kind.slot = .owned then x.owned ++ [g.next] else x.owned := by
        have := Node.children_attach x r.kind.slot .owned g.next
        have hnot := h.next_not_mem hx r.kind.slot
        by_cases hs : r.kind.slot = .owned
        · rw [hs] at this hnot ⊢
          simpa [Node.children, show g.next ∉ x.owned from hnot] using this
        · simpa [Node.children, hs, Ne.symm hs] using this
      rw [if_pos ho, howned]
      by_cases hk : r.kind.isClassifier = true
      · simp [ho, hk, NodeKind.slot_of_isClassifier hk, hfilter, hb.kind?_new]
      · by_cases hs : r.kind.slot = .owned <;> simp [hk, hs, hfilter, hb.kind?_new]
    · simp [ho, hfilter]

/-- A new element. -/
lemma Regular.gains_built (h : g.Regular) (ha : g.Addable r) (hb : g.Built r g')
    (htag : r.kind = .taggedValue → r.name ≠ some generatedTag) :
    g.Gains (.ofNew g.next r) g' where
  ages := hb.ages
  kind hk hk' := by
    rw [hb.kind?_old (isLive_of_kind? hk), hk] at hk'
    exact (Option.some.inj hk').symm
  stays _ _ := hb.stays fun hk hname => absurd hname (htag hk)
  classifiers := hb.classifiersIn h.toLinked ha
  component := by
    intro n p name hn
    constructor
    · rintro ⟨y, hy, hk, ho, hname⟩
      rcases hb.cases_bare hy with ⟨rfl, rfl⟩ | ⟨x, hx, hbare, hxo⟩
      · exact absurd ⟨rfl, hk⟩ hn
      · obtain ⟨hk', hname', _⟩ := Node.bare_congr hbare
        exact ⟨x, hx, hk' ▸ hk, hxo ▸ ho, hname' ▸ hname⟩
    · rintro ⟨x, hx, hk, ho, hname⟩
      obtain ⟨y, hy, hbare, hyo⟩ := hb.old_bare hx
      obtain ⟨hk', hname', _⟩ := Node.bare_congr hbare
      exact ⟨y, hy, hk'.trans hk, hyo.trans ho, hname'.trans hname⟩
  link := by
    intro l
    constructor
    · rintro ⟨m, y, hy, hl⟩
      rcases hb.cases_bare hy with ⟨rfl, rfl⟩ | ⟨x, hx, hbare, -⟩
      · exact Or.inr hl
      · exact Or.inl ⟨m, x, hx, (Node.links_of_bare hbare l).mp hl⟩
    · rintro (⟨m, x, hx, hl⟩ | hl)
      · obtain ⟨y, hy, hbare, -⟩ := hb.old_bare hx
        exact ⟨m, y, hy, (Node.links_of_bare hbare l).mpr hl⟩
      · exact ⟨g.next, r, hb.new_node, hl⟩
  loose := by
    rintro n hn
    obtain ⟨y, title, hy, hmark, -⟩ := id hn
    rcases hb.cases_bare hy with ⟨rfl, rfl⟩ | ⟨x, hx, hbare, -⟩
    · exact Or.inr ⟨rfl, by simp [hmark]⟩
    · obtain ⟨hk, _, _, _, _, _, _, _, _, _, hst⟩ := Node.bare_congr hbare
      refine Or.inl (hn.back hy hx hk (by rw [hst]; exact List.Subset.refl _) fun st _ z hz => ?_)
      obtain ⟨z', hz', hb', -⟩ := hb.old_bare hz
      exact ⟨z', hz', (Node.bare_congr hb').2.1⟩

lemma Moved.classifiersIn {home : NodeId} (h : g.Linked) (hv : g.node? v = some r)
    (hk : r.kind.isClassifier = false) (hm : g.Moved v r (some home) g') (n : NodeId) :
    g'.classifiersIn n = g.classifiersIn n := by
  cases hx : g.node? n with
  | none =>
    have hx' : g'.node? n = none := by rw [hm.node, hx]; rfl
    simp [Graph.classifiersIn, hx, hx']
  | some x =>
    have hx' : g'.node? n = some (Node.relocated v r (some home) n x) := by rw [hm.node, hx]; rfl
    have hvk : (g.kind? v).any (·.isClassifier) = false := by rw [kind?_eq hv]; exact hk
    rw [classifiersIn_eq hx, classifiersIn_eq hx']
    simp only [hm.kind?]
    change (Node.children _ .owned).filter _ = (x.children .owned).filter _
    by_cases hs : r.kind.slot = .owned
    · have hlist := Node.children_relocated_slot v n r x (some home)
      rw [hs] at hlist
      have herase : ((x.children .owned).erase v).filter
            (fun m => (g.kind? m).any (·.isClassifier)) =
          (x.children .owned).filter fun m => (g.kind? m).any (·.isClassifier) := by
        rw [(h.nodup hx .owned).erase_eq_filter, List.filter_filter]
        refine List.filter_congr fun m _ => ?_
        by_cases hmv : m = v <;> simp [hmv, hvk]
      rw [hlist]
      dsimp only
      split_ifs <;> simp [herase, hvk]
    · rw [Node.children_relocated_of_ne v n r x (some home) (Ne.symm hs)]

/-- An element that is no package and no classifier goes to another owner. -/
lemma Linked.gains_moved {home : NodeId} (h : g.Linked) (hv : g.node? v = some r)
    (hm : g.Moved v r (some home) g') (hk : r.kind.isSpace = false)
    (ht : r.kind ≠ .taggedValue) : g.Gains (.ofOld v r.kind) g' where
  ages := ⟨hm.next.ge, fun n _ hn => isLive_congr hm.node n ▸ hn⟩
  kind hk hk' := by
    rw [hm.kind?, hk] at hk'
    exact (Option.some.inj hk').symm
  stays hn hs := hm.stays hv ht (by
    rintro rfl
    rw [kind?_eq hv] at hn
    rw [← Option.some.inj hn, hk] at hs
    exact Bool.noConfusion hs)
  classifiers n := by
    rw [Growth.under_nil rfl, List.append_nil]
    exact hm.classifiersIn h hv (by simp_all [NodeKind.isSpace]) n
  component := by
    intro n p name hn
    constructor
    · rintro ⟨y, hy, hky, ho, hname⟩
      obtain ⟨x, hx, hb, hxo⟩ := hm.cases_bare hy
      obtain ⟨hk', hname', _⟩ := Node.bare_congr hb
      rw [if_neg] at hxo
      · exact ⟨x, hx, hk' ▸ hky, hxo ▸ ho, hname' ▸ hname⟩
      · rintro rfl
        obtain rfl := Option.some.inj (hv.symm.trans hx)
        exact hn ⟨rfl, hk' ▸ hky⟩
    · rintro ⟨x, hx, hkx, ho, hname⟩
      obtain ⟨y, hy, hb, hyo⟩ := hm.old_bare hx
      obtain ⟨hk', hname', _⟩ := Node.bare_congr hb
      rw [if_neg] at hyo
      · exact ⟨y, hy, hk'.trans hkx, hyo.trans ho, hname'.trans hname⟩
      · rintro rfl
        obtain rfl := Option.some.inj (hv.symm.trans hx)
        exact hn ⟨rfl, hkx⟩
  link := by
    intro l
    refine Iff.trans ?_ (or_iff_left id).symm
    refine holds_of_records (fun hy => Or.inr ?_) fun hx => Or.inr ?_
    · obtain ⟨x, hx, hb, -⟩ := hm.cases_bare hy
      exact ⟨x, hx, hb⟩
    · obtain ⟨y, hy, hb, -⟩ := hm.old_bare hx
      exact ⟨y, hy, hb⟩
  loose := by
    rintro n hn
    obtain ⟨y, title, hy, -⟩ := id hn
    obtain ⟨x, hx, hb, -⟩ := hm.cases_bare hy
    obtain ⟨hk, _, _, _, _, _, _, _, _, _, hst⟩ := Node.bare_congr hb
    refine Or.inl (hn.back hy hx hk (by rw [hst]; exact List.Subset.refl _) fun st _ z hz => ?_)
    obtain ⟨z', hz', hb', -⟩ := hm.old_bare hz
    exact ⟨z', hz', (Node.bare_congr hb').2.1⟩

/-- A record changes but says what it said, and bears the stereotypes it bore. -/
lemma Edited.gains (hv : g.node? v = some r) (he : g.Editable r y) (hed : g.Edited v y g')
    (hl : ∀ l, y.Links l ↔ r.Links l)
    (hst : r.kind.mark?.isSome = true → r.stereotypes ⊆ y.stereotypes) : g.Gains {} g' := by
  have hyname := he.name
  have same : ∀ {m x}, g.node? m = some x → ∃ x', g'.node? m = some x' ∧ x'.kind = x.kind ∧
      x'.owner = x.owner ∧ x'.name = x.name := by
    intro m x hx
    rw [hed.node]
    split_ifs with hm
    · subst hm
      obtain rfl := Option.some.inj (hv.symm.trans hx)
      exact ⟨y, rfl, he.place.kind, he.place.owner, hyname⟩
    · exact ⟨x, hx, rfl, rfl, rfl⟩
  have kinds := hed.kind? hv he.place.kind
  refine ⟨hed.ages hv, fun {n k k'} hn hn' => ?_, fun _ _ => (hed.spares hv he _).toStays, fun n => ?_, fun {n p name} _ => ?_,
    fun {l} => ?_, fun {n} hn => ?_⟩
  · rw [kinds, hn] at hn'
    exact (Option.some.inj hn').symm
  · rw [Growth.under_nil rfl, List.append_nil]
    unfold Graph.classifiersIn
    simp only [kinds, hed.node]
    split_ifs with hn
    · rw [hn, hv]
      change List.filter _ (y.children .owned) = List.filter _ (r.children .owned)
      rw [he.place.children]
    · rfl
  · constructor
    · rintro ⟨x', hx', hk, ho, hname⟩
      rw [hed.node] at hx'
      split_ifs at hx' with hm
      · obtain rfl := Option.some.inj hx'
        exact ⟨r, hm ▸ hv, he.place.kind ▸ hk, he.place.owner ▸ ho, hyname ▸ hname⟩
      · exact ⟨x', hx', hk, ho, hname⟩
    · rintro ⟨x, hx, hk, ho, hname⟩
      obtain ⟨x', hx', hk', ho', hname'⟩ := same hx
      exact ⟨x', hx', hk'.trans hk, ho'.trans ho, hname'.trans hname⟩
  · refine Iff.trans ⟨?_, ?_⟩ (or_iff_left id).symm
    · rintro ⟨m, x', hx', hlink⟩
      rw [hed.node] at hx'
      split_ifs at hx' with hm
      · obtain rfl := Option.some.inj hx'
        exact ⟨v, r, hv, (hl l).mp hlink⟩
      · exact ⟨m, x', hx', hlink⟩
    · rintro ⟨m, x, hx, hlink⟩
      by_cases hm : m = v
      · subst hm
        obtain rfl := Option.some.inj (hv.symm.trans hx)
        exact ⟨m, y, by rw [hed.node, if_pos rfl], (hl l).mpr hlink⟩
      · exact ⟨m, x, by rw [hed.node, if_neg hm, hx], hlink⟩
  · obtain ⟨x', title, hx', hmark, -⟩ := id hn
    obtain ⟨x, hx⟩ : ∃ x, g.node? n = some x := by
      by_cases hm : n = v
      · exact ⟨r, hm ▸ hv⟩
      · exact ⟨x', by rwa [hed.node, if_neg hm] at hx'⟩
    have hk : x'.kind = x.kind := by
      have := kinds n
      rw [kind?_eq hx', kind?_eq hx] at this
      exact Option.some.inj this
    refine Or.inl (hn.back hx' hx hk ?_ fun st _ z hz => ?_)
    · rw [hed.node] at hx'
      split_ifs at hx' with hm
      · subst hm
        obtain rfl := Option.some.inj (hv.symm.trans hx)
        obtain rfl := Option.some.inj hx'
        exact hst (by rw [← hk, hmark]; rfl)
      · rw [Option.some.inj (hx.symm.trans hx')]
        exact List.Subset.refl _
    · obtain ⟨z', hz', -, -, hname⟩ := same hz
      exact ⟨z', hz', hname⟩

/-- What goes with an element that is slight, or with a component that no edge mentions. -/
lemma Sound.doomed_isSlight (h : g.Sound) (hv : g.node? v = some r)
    (hk : r.kind.isSlight = true ∨ r.kind = .component)
    (hno : ∀ l, g.Holds l → v ∉ l.ends) (hm : m ∈ g.doomedWith v) :
    m = v ∨ ∃ k, g.kind? m = some k ∧ k.isSlight = true := by
  let X : NodeId → Prop := fun m => m = v ∨ ∃ k, g.kind? m = some k ∧ k.isSlight = true
  have light : ∀ {c k}, X c → g.kind? c = some k → k.isSlight = true ∨ k = .component := by
    rintro c k (rfl | ⟨k', hk', hs⟩) hc
    · rw [kind?_eq hv] at hc
      exact Option.some.inj hc ▸ hk
    · exact Or.inl (Option.some.inj (hc.symm.trans hk') ▸ hs)
  have no_classifier : ∀ {e x c}, g.node? e = some x → c ∈ x.classifiers → ¬X c := by
    intro e x c hx hc hX
    obtain ⟨rc, hrc⟩ := isLive_iff.mp (h.live hx c
      (Node.endpoints_subset_links _ (Node.classifiers_subset_endpoints _ hc)))
    have hcls := (h.proper hx).classifier c hc (kind?_eq hrc)
    revert hcls
    rcases light hX (kind?_eq hrc) with hs | hs
    · revert hs
      cases rc.kind <;> decide
    · rw [hs]
      decide
  have endpoint : ∀ {e x c l}, g.node? e = some x → c ∈ x.endpoints → x.Links l → c ∈ l.ends → ¬X c := by
    intro e x c l hx hc hl hin hX
    obtain ⟨rc, hrc⟩ := isLive_iff.mp (h.live hx c (Node.endpoints_subset_links _ hc))
    have hend := (h.proper hx).endpoint c hc (kind?_eq hrc)
    rcases hX with rfl | ⟨k, hk', hs⟩
    · exact hno l ⟨e, x, hx, hl⟩ hin
    · obtain rfl := Option.some.inj ((kind?_eq hrc).symm.trans hk')
      revert hend hs
      cases rc.kind <;> decide
  refine doomedWith_subset (X := X) ⟨?_, ?_, ?_, ?_, ?_, ?_⟩ (Or.inl rfl) hm
  · intro p rp c hX hrp hc
    obtain ⟨s, hs⟩ := Node.mem_parts.mp hc
    obtain ⟨rc, hrc, ho, -⟩ := (h.mem_children hrp s c).mp hs
    obtain ⟨rp', hrp', hmay⟩ := h.mayOwn hrc ho
    obtain rfl := Option.some.inj (hrp.symm.trans hrp')
    refine Or.inr ⟨_, kind?_eq hrc, ?_⟩
    revert hmay
    rcases light hX (kind?_eq hrp) with hs | hs
    · revert hs
      cases rp.kind <;> cases rc.kind <;> decide
    · rw [hs]
      cases rc.kind <;> decide
  · intro e x a _ hx hke ha
    obtain ⟨ra, hra, hmay⟩ := h.mayOwn hx (h.endsAtHome hx ha)
    refine Or.inr ⟨_, kind?_eq hra, ?_⟩
    rw [hke] at hmay
    revert hmay
    cases ra.kind <;> decide
  · intro e x c hx _ hc hX
    refine absurd hX (no_classifier hx ?_)
    simp only [Node.classifiers, List.mem_append, Option.mem_toList]
    tauto
  · intro e x hx hke hall
    obtain ⟨c, p, hc, hp⟩ := (h.proper hx).dependency hke
    have ends : ∀ {y}, y = c ∨ y = p → ¬X y := by
      intro y hy
      have hin : y ∈ x.endpoints := by
        simp only [Node.endpoints, hc, hp, List.mem_append, List.mem_singleton]
        tauto
      have hlinks : x.Links (.realizes c p) ∨ x.Links (.imports c p) := by
        revert hke
        unfold Node.Links
        rw [hc, hp]
        cases x.kind <;> simp [NodeKind.isDependency]
      rcases hlinks with hl | hl <;> exact endpoint hx hin hl (by simpa [Link.ends] using hy)
    rcases hall with ⟨-, hall⟩ | ⟨-, hall⟩
    · exact absurd (hall c (by simp [hc])) (ends (Or.inl rfl))
    · exact absurd (hall p (by simp [hp])) (ends (Or.inr rfl))
  · intro e x c hx hke hc hX
    have hcomplete := (h.proper hx).complete
    simp only [Node.isComplete, hke, Bool.and_eq_true, Option.isSome_iff_exists] at hcomplete
    obtain ⟨⟨n, hn⟩, ⟨o, ho⟩⟩ := hcomplete
    refine absurd hX (endpoint (l := .resides n o) hx ?_ ⟨hke, hn, ho⟩ ?_)
    · simp only [Node.endpoints, List.mem_append, Option.mem_toList]
      tauto
    · rw [hn, ho] at hc
      simpa [Link.ends, eq_comm] using hc
  · intro e x a c hx _ _ hc hX
    exact absurd hX (no_classifier hx (by simp [Node.classifiers, hc]))

/-- Deleting what is slight, or a component that no edge mentions. -/
lemma Sound.gains_removed (h : g.Sound) (hv : g.node? v = some r)
    (hk : r.kind.isSlight = true ∨ r.kind = .component)
    (hno : ∀ l, g.Holds l → v ∉ l.ends) :
    g.Gains (.ofOld v r.kind) (g.remove (g.doomedWith v)) := by
  have doomed := fun {m} hm => h.doomed_isSlight (m := m) hv hk hno hm
  have kept : ∀ {m x}, g.node? m = some x → x.kind.isSlight = false → m ≠ v →
      m ∉ g.doomedWith v := by
    intro m x hx hs hne hm
    obtain ⟨k, hkm, hsm⟩ := (doomed hm).resolve_left hne
    rw [kind?_eq hx] at hkm
    rw [Option.some.inj hkm, hsm] at hs
    exact Bool.noConfusion hs
  have kept_kind : ∀ {m x}, g.node? m = some x →
      x.kind.isSlight = false ∧ x.kind ≠ .component → m ∉ g.doomedWith v := by
    rintro m x hx ⟨hs, hne⟩
    refine kept hx hs ?_
    rintro rfl
    obtain rfl := Option.some.inj (hv.symm.trans hx)
    rcases hk with hk | hk
    · rw [hk] at hs
      exact Bool.noConfusion hs
    · exact hne hk
  have firm_space : ∀ {k : NodeKind}, k.isSpace = true → k.isSlight = false ∧ k ≠ .component := by
    intro k
    cases k <;> decide
  have firm_link : ∀ {x : Node} {l}, x.Links l → x.kind.isSlight = false ∧ x.kind ≠ .component := by
    intro x l hl
    cases l <;> rw [hl.1] <;> decide
  refine ⟨ages_remove, ?_, ?_, fun n => ?_, ?_, ?_, ?_⟩
  · intro n k k' hn hn'
    obtain ⟨y, hy, rfl⟩ := kind?_eq_some.mp hn'
    obtain ⟨-, x, hx, rfl⟩ := node?_remove_eq_some.mp hy
    exact Option.some.inj ((kind?_eq hx).symm.trans hn)
  · intro n k hn hs
    obtain ⟨x, hx, rfl⟩ := kind?_eq_some.mp hn
    exact .remove (kept_kind hx (firm_space hs))
  · rw [Growth.under_nil rfl, List.append_nil]
    by_cases hn : n ∈ g.doomedWith v
    · obtain ⟨x, hx⟩ := isLive_iff.mp (doomedWith_live hn)
      have hnone : (g.remove (g.doomedWith v)).classifiersIn n = [] := by
        simp [Graph.classifiersIn, node?_remove, hn]
      rw [hnone, h.classifiersIn_eq_nil (kind?_eq hx)]
      by_contra hs
      rw [Bool.not_eq_false] at hs
      exact kept_kind hx (firm_space hs) hn
    · cases hx : g.node? n with
      | none => simp [Graph.classifiersIn, node?_remove, hx]
      | some x =>
        have hx' := node?_remove_eq_some.mpr ⟨hn, x, hx, rfl⟩
        rw [classifiersIn_eq hx, classifiersIn_eq hx']
        change List.filter _ (x.owned.filter _) = _
        rw [List.filter_filter]
        refine List.filter_congr fun m hm => ?_
        obtain ⟨y, hy⟩ := isLive_iff.mp (h.children_live hx (s := .owned) hm)
        by_cases hd : m ∈ g.doomedWith v
        · have hnot : y.kind.isClassifier = false := by
            by_contra hc
            rw [Bool.not_eq_false] at hc
            exact kept_kind hy (firm_space (by simp [NodeKind.isSpace, hc])) hd
          simp [hd, kind?_eq hy, hnot]
        · simp [hd, kind?_remove hd]
  · intro n p name hn
    constructor
    · rintro ⟨y, hy, hky, ho, hname⟩
      obtain ⟨-, x, hx, rfl⟩ := node?_remove_eq_some.mp hy
      exact ⟨x, hx, hky, ho, hname⟩
    · rintro ⟨x, hx, hkx, ho, hname⟩
      refine ⟨_, node?_remove_eq_some.mpr ⟨kept hx (by rw [hkx]; rfl) ?_, x, hx, rfl⟩,
        hkx, ho, hname⟩
      rintro rfl
      obtain rfl := Option.some.inj (hv.symm.trans hx)
      exact hn ⟨rfl, hkx⟩
  · intro l
    refine Iff.trans ⟨?_, ?_⟩ (or_iff_left id).symm
    · rintro ⟨m, y, hy, hl⟩
      obtain ⟨-, x, hx, rfl⟩ := node?_remove_eq_some.mp hy
      refine ⟨m, x, hx, ?_⟩
      revert hl
      cases l <;> simp only [Node.Links, Node.forget, List.mem_filter] <;> tauto
    · rintro ⟨m, x, hx, hl⟩
      refine ⟨m, _, node?_remove_eq_some.mpr ⟨kept_kind hx (firm_link hl), x, hx, rfl⟩, ?_⟩
      have hends : ∀ y ∈ x.endpoints, y ∈ l.ends → y ∉ g.doomedWith v := by
        intro y hy hin hd
        obtain ⟨ry, hry⟩ := isLive_iff.mp (h.live hx y (Node.endpoints_subset_links _ hy))
        have hend := (h.proper hx).endpoint y hy (kind?_eq hry)
        refine kept hry ?_ ?_ hd
        · revert hend
          cases ry.kind <;> decide
        · rintro rfl
          exact hno l ⟨m, x, hx, hl⟩ hin
      revert hl hends
      cases l <;> simp +contextual [Node.Links, Node.forget, Link.ends, Node.endpoints]
  · rintro n hn
    obtain ⟨y, title, hy, hmark, -⟩ := id hn
    obtain ⟨hd, x, hx, rfl⟩ := node?_remove_eq_some.mp hy
    obtain ⟨x', title', hx', hmark', hm⟩ := hn
    obtain rfl := Option.some.inj (hy.symm.trans hx')
    refine Or.inl ⟨x, title', hx, hmark', ?_⟩
    rintro ⟨st, hin, z, hz, hname⟩
    apply hm
    have hst : st ∉ g.doomedWith v := by
      have := (h.proper hx).stereotype st hin (kind?_eq hz)
      exact kept_kind hz (by rw [this]; decide)
    exact ⟨st, by simp [Node.forget, hin, hst], _,
      node?_remove_eq_some.mpr ⟨hst, z, hz, rfl⟩, hname⟩

/-- A new association with its ends. -/
lemma Sound.gains_associated {c : NodeId} (h : g.Sound) (ha : g.Associated r c p name g') :
    g.Gains {} g' := by
  obtain ⟨re, ro, g₁, g₂, hb₁, hb₂, hb₃⟩ := ha.built
  have built : ∀ {g g' : Graph} {r : Node}, g.Regular → g.Addable r → g.Built r g' →
      r.kind = .association ∨ r.kind = .associationEnd → g.Gains {} g' := by
    intro g g' r hg hadd hb hk
    have hgains := hg.gains_built hadd hb
    rcases hk with hk | hk <;>
      rw [Growth.ofNew_of_isPlain (by rw [hk]; rfl)] at hgains <;>
      exact hgains fun ht => by rw [hk] at ht; cases ht
  have h₁ : g₁.Regular := h.toRegular.built ha.addable hb₁
  have h₂ : g₂.Regular := h₁.built hb₂.addable hb₂.toBuilt
  exact ((built h.toRegular ha.addable hb₁ (Or.inl ha.kind)).andThen
    (built h₁ hb₂.addable hb₂.toBuilt (Or.inr hb₂.kind))).andThen
    (built h₂ hb₃.addable hb₃.toBuilt (Or.inr hb₃.kind))

end steps

end Graph

end DeclGraph
