import DeclGraph.Proofs.Graph.Mutation

/-! What holds of every graph that imports lead to: elements are owned by elements of the right
kinds, and the members of a classifier are told apart by what they are and how they are named. -/

namespace DeclGraph

/-- What a classifier can have as a member. -/
inductive MemberRole where
  | operation
  | attr
  | inner
  deriving DecidableEq, Repr

namespace NodeKind

/-- The root and packages. -/
def isPackage : NodeKind → Bool
  | .model | .package => true
  | _ => false

def role? : NodeKind → Option MemberRole
  | .operation => some .operation
  | .attr => some .attr
  | .classType | .interfaceType | .dataType => some .inner
  | _ => none

/-- What has an owner in any case: all but packages, since the root is one, and residences. -/
def isOwned (k : NodeKind) : Bool := !k.isPackage && k ≠ .elementResidence

/-- What package clauses and declarations bring about. -/
def isDeclared (k : NodeKind) : Bool := k.isPackage || k.role?.isSome

/-- What edges and types lead to. -/
def isEndpoint (k : NodeKind) : Bool := k.isPackage || k.isClassifier || k = .component

/-- Whether elements of a kind are owned by those of another. -/
def mayOwn (owner : NodeKind) : NodeKind → Bool
  | .model | .elementResidence => false
  | .package | .stereotype | .component => owner.isPackage
  | .classType | .interfaceType | .dataType | .association | .generalization | .abstraction
  | .dependency => owner.isPackage || owner.isClassifier
  | .operation | .attr => owner.isClassifier
  | .parameter => owner = .operation
  | .associationEnd => owner = .association
  | .taggedValue => owner ≠ .taggedValue && owner ≠ .elementResidence

lemma role?_eq_inner {k : NodeKind} : k.role? = some .inner ↔ k.isClassifier = true := by
  cases k <;> simp [role?, isClassifier]

lemma mayOwn_taggedValue (k : NodeKind) : NodeKind.taggedValue.mayOwn k = false := by
  cases k <;> rfl

/-- Residences own nothing. -/
lemma mayOwn_elementResidence (k : NodeKind) : NodeKind.elementResidence.mayOwn k = false := by
  cases k <;> rfl

lemma mayOwn_taggedValue_of_isClassifier {k : NodeKind} (h : k.isClassifier = true) :
    k.mayOwn .taggedValue = true := by
  revert h
  cases k <;> decide

lemma not_isPackage_of_isClassifier {k : NodeKind} (h : k.isClassifier = true) :
    k.isPackage = false := by
  revert h
  cases k <;> decide

lemma slot_of_isClassifier {k : NodeKind} (hk : k.isClassifier = true) : k.slot = .owned := by
  revert hk
  cases k <;> decide

lemma isOwned_of_role {k : NodeKind} (h : k.role?.isSome = true) : k.isOwned = true := by
  revert h
  cases k <;> decide

/-- What is not declared owns nothing that is. -/
lemma isDeclared_of_mayOwn {p k : NodeKind} (h : p.mayOwn k = true) (hk : k.isDeclared = true) :
    p.isDeclared = true := by
  revert h hk
  cases k <;> cases p <;> decide

/-- Classifiers may own the same kinds. -/
lemma mayOwn_of_isClassifier {p q k : NodeKind} (h : p.mayOwn k = true)
    (hp : p.isClassifier = true) (hq : q.isClassifier = true) : q.mayOwn k = true := by
  have hpq : ∀ {p : NodeKind}, p.isClassifier = true →
      p = .classType ∨ p = .interfaceType ∨ p = .dataType := by
    intro p
    cases p <;> simp [isClassifier]
  rcases hpq hp with rfl | rfl | rfl <;> rcases hpq hq with rfl | rfl | rfl <;>
    cases k <;> exact h

/-- Classifiers may be owned by the same kinds. -/
lemma mayOwn_classifier {p k k' : NodeKind} (h : p.mayOwn k = true) (hk : k.isClassifier = true)
    (hk' : k'.isClassifier = true) : p.mayOwn k' = true := by
  revert h hk'
  cases k <;> first | exact absurd hk (by decide) | skip
  all_goals cases k' <;> first | exact fun h _ => h | exact fun _ h => absurd h (by decide)

end NodeKind

namespace Node

/-- The record with other stereotypes. -/
def stereotyped (r : Node) (sts : List NodeId) : Node := { r with stereotypes := sts }

/-- The elements that an element is typed by or connects. -/
def endpoints (r : Node) : List NodeId :=
  r.type.toList ++ r.general.toList ++ r.specific.toList ++ r.clients ++ r.suppliers ++
    r.resident.toList ++ r.container.toList

/-- Those of them that have to be classifiers. -/
def classifiers (r : Node) : List NodeId :=
  r.type.toList ++ r.general.toList ++ r.specific.toList ++ r.resident.toList

lemma classifiers_subset_endpoints (r : Node) : r.classifiers ⊆ r.endpoints := by
  intro y hy
  simp only [classifiers, endpoints, List.mem_append] at hy ⊢
  tauto

lemma container_mem_endpoints {r : Node} {c : NodeId} (h : r.container = some c) :
    c ∈ r.endpoints := by
  simp [endpoints, h]

lemma endpoints_congr {r r' : Node} (h : r.bare = r'.bare) : r.endpoints = r'.endpoints := by
  have hh := bare_congr h
  simp only [endpoints, hh]

/-- A record with what its kind calls for: components have names, and edges lead from one element to
one other. -/
def isComplete (r : Node) : Bool :=
  match r.kind with
  | .component => r.name.isSome
  | .generalization => r.specific.isSome && r.general.isSome
  | .dependency | .abstraction => r.clients.length = 1 && r.suppliers.length = 1
  | .elementResidence => r.resident.isSome && r.container.isSome
  | _ => true

lemma isComplete_of_isClassifier {r : Node} (h : r.kind.isClassifier = true) :
    r.isComplete = true := by
  unfold isComplete
  revert h
  cases r.kind <;> first | exact fun _ => rfl | exact fun h => absurd h (by decide)

lemma isComplete_redirect (r : Node) (old new : NodeId) :
    (r.redirect old new).isComplete = r.isComplete := by
  cases hk : r.kind <;> simp [isComplete, redirect, hk]

/-- An edge that keeps its end stays complete. -/
lemma isComplete_forget (r : Node) {doomed : List NodeId}
    (hd : r.kind.isDependency = true →
      allDoomed doomed r.clients = false ∧ allDoomed doomed r.suppliers = false)
    (h : r.isComplete = true) : (r.forget doomed).isComplete = true := by
  have kept : ∀ ns : List NodeId, ns.length = 1 → allDoomed doomed ns = false →
      (ns.filter (· ∉ doomed)).length = 1 := by
    intro ns hns hall
    obtain ⟨y, rfl⟩ := List.length_eq_one_iff.mp hns
    have hy : y ∉ doomed := by simpa [allDoomed] using hall
    simp [hy]
  cases hk : r.kind <;> simp only [isComplete, forget, hk] at h ⊢ <;> try exact h
  all_goals
    rw [Bool.and_eq_true, decide_eq_true_eq, decide_eq_true_eq] at h ⊢
    obtain ⟨hc, hs⟩ := hd (by rw [hk]; rfl)
    exact ⟨kept _ h.1 hc, kept _ h.2 hs⟩

/-- A record that refers to elements of the right kinds, given the kinds of the elements. -/
structure Proper (kind? : NodeId → Option NodeKind) (r : Node) : Prop where
  owner : ∀ {p k}, r.owner = some p → kind? p = some k → k.mayOwn r.kind = true
  stereotype : ∀ s ∈ r.stereotypes, ∀ {k}, kind? s = some k → k = .stereotype
  endpoint : ∀ y ∈ r.endpoints, ∀ {k}, kind? y = some k → k.isEndpoint = true
  classifier : ∀ y ∈ r.classifiers, ∀ {k}, kind? y = some k → k.isClassifier = true
  container : ∀ {c k}, r.container = some c → kind? c = some k → k = .component
  owned : r.kind.isOwned = true → ∃ p, r.owner = some p
  named : r.kind.role?.isSome = true → ∃ name, r.name = some name
  complete : r.isComplete = true

/-- A dependency leads from one element to one other. -/
lemma Proper.dependency {kind? : NodeId → Option NodeKind} {r : Node} (h : r.Proper kind?)
    (hk : r.kind.isDependency = true) : ∃ c p, r.clients = [c] ∧ r.suppliers = [p] := by
  have hcomplete : r.clients.length = 1 ∧ r.suppliers.length = 1 := by
    have hc := h.complete
    unfold isComplete at hc
    cases hr : r.kind <;> rw [hr] at hk hc <;>
      first | exact absurd hk (by decide) | simpa using hc
  obtain ⟨c, hc⟩ := List.length_eq_one_iff.mp hcomplete.1
  obtain ⟨p, hp⟩ := List.length_eq_one_iff.mp hcomplete.2
  exact ⟨c, p, hc, hp⟩

lemma endpoints_subset_links (r : Node) : r.endpoints ⊆ r.links := by
  intro y hy
  simp only [endpoints, links, List.mem_append] at hy ⊢
  tauto

lemma stereotypes_subset_links (r : Node) : r.stereotypes ⊆ r.links :=
  fun _ hy => List.mem_append_right _ hy

lemma Proper.congr {kind? kind?' : NodeId → Option NodeKind} {r : Node} (h : r.Proper kind?)
    (hk : ∀ y ∈ r.links, kind?' y = kind? y) : r.Proper kind?' where
  owner hp := by
    rw [hk _ (by simp [links, hp])]
    exact h.owner hp
  stereotype s hs := by
    rw [hk s (by simp [links, hs])]
    exact h.stereotype s hs
  endpoint y hy := by
    rw [hk y (r.endpoints_subset_links hy)]
    exact h.endpoint y hy
  classifier y hy := by
    rw [hk y (r.endpoints_subset_links (r.classifiers_subset_endpoints hy))]
    exact h.classifier y hy
  container hc := by
    rw [hk _ (r.endpoints_subset_links (container_mem_endpoints hc))]
    exact h.container hc
  owned := h.owned
  named := h.named
  complete := h.complete

/-- What a record refers to does not depend on its parts. -/
lemma Proper.of_bare {kind? : NodeId → Option NodeKind} {r r' : Node} (h : r.Proper kind?)
    (hb : r'.bare = r.bare) (ho : r'.owner = r.owner) : r'.Proper kind? := by
  have hh := bare_congr hb
  have hcls : r'.bare.classifiers = r.bare.classifiers := congrArg classifiers hb
  have hcont : r'.bare.container = r.bare.container := congrArg Node.container hb
  have hc : r'.bare.isComplete = r.bare.isComplete := congrArg isComplete hb
  refine ⟨?_, ?_, ?_, ?_, ?_, ?_, ?_, hc.trans h.complete⟩
  · rw [ho, hh.1]
    exact h.owner
  · rw [hh.2.2.2.2.2.2.2.2.2.2]
    exact h.stereotype
  · rw [endpoints_congr hb]
    exact h.endpoint
  · exact fun y hy => h.classifier y (hcls ▸ hy : y ∈ r.bare.classifiers)
  · exact fun hy => h.container (hcont ▸ hy : r.bare.container = _)
  · rw [hh.1, ho]
    exact h.owned
  · rw [hh.1, hh.2.1]
    exact h.named

/-- A record of an end of an association. -/
structure IsEnd (r : Node) (association : NodeId) (isNavigable : Bool) (type : NodeId)
    (name : Option String) : Prop where
  kind : r.kind = .associationEnd
  association : r.association = some association
  isNavigable : r.isNavigable = isNavigable
  type : r.type = some type
  name : r.name = name

lemma IsEnd.of_bare {r r' : Node} {a t : NodeId} {nav : Bool} {name : Option String}
    (h : r.IsEnd a nav t name) (hb : r'.bare = r.bare) : r'.IsEnd a nav t name := by
  obtain ⟨hk, hn, ht, -, -, -, -, -, -, ha, -⟩ := bare_congr hb
  have hnav : r'.bare.isNavigable = r.bare.isNavigable := by rw [hb]
  exact ⟨hk.trans h.kind, ha.trans h.association, Eq.trans hnav h.isNavigable, ht.trans h.type,
    hn.trans h.name⟩

end Node

namespace Graph

def kind? (g : Graph) (n : NodeId) : Option NodeKind := (g.node? n).map (·.kind)

/-- `m` is the member of `n` in a role under a name. -/
def IsMember (g : Graph) (n : NodeId) (role : MemberRole) (name : Option String) (m : NodeId) :
    Prop :=
  ∃ r, g.node? m = some r ∧ r.owner = some n ∧ r.kind.role? = some role ∧ r.name = name

/-- The members of an element are told apart by role and name. -/
def Distinct (g : Graph) (n : NodeId) : Prop :=
  ∀ {role name m m'}, g.IsMember n role name m → g.IsMember n role name m' → m = m'

/-- The association `a` leads from `c` to `p`. Its first end is the navigable one and has a name, the
other one has none. -/
structure Spans (g : Graph) (a e o c p : NodeId) (name : String) : Prop where
  association : ∃ r, g.node? a = some r ∧ r.kind = .association ∧ r.connections = [e, o]
  far : ∃ r, g.node? e = some r ∧ r.IsEnd a true p (some name)
  near : ∃ r, g.node? o = some r ∧ r.IsEnd a false c none

/-- Elements are owned and referred to by elements of the right kinds, and members are told apart. -/
structure Regular (g : Graph) : Prop extends Coherent g where
  root_kind : g.kind? root = some .model
  proper : ∀ {n r}, g.node? n = some r → r.Proper g.kind?
  distinct : ∀ {n k}, g.kind? n = some k → k.isClassifier = true → g.Distinct n

/-- Besides, associations are complete. -/
structure Sound (g : Graph) : Prop extends Regular g where
  spanned : ∀ {a}, g.kind? a = some .association → ∃ e o c p name, g.Spans a e o c p name

variable {g g' : Graph} {n m p c : NodeId} {r : Node} {k : NodeKind}

lemma kind?_eq (h : g.node? n = some r) : g.kind? n = some r.kind := by
  simp [kind?, h]

lemma kind?_eq_some : g.kind? n = some k ↔ ∃ r, g.node? n = some r ∧ r.kind = k := by
  simp [kind?]

lemma isLive_of_kind? (h : g.kind? n = some k) : g.isLive n = true := by
  obtain ⟨r, hr, _⟩ := kind?_eq_some.mp h
  exact isLive_of_node? hr

/-- What is kept among the tagged values of an element is one. -/
lemma Linked.kind?_taggedValue (h : g.Linked) (hr : g.node? n = some r) (ht : m ∈ r.taggedValues) :
    g.kind? m = some .taggedValue := by
  obtain ⟨x, hx, -, hslot⟩ := (h.mem_children hr .taggedValues m).mp ht
  rw [kind?_eq hx]
  revert hslot
  cases x.kind <;> decide

lemma isMember_iff {role : MemberRole} {name : Option String} (h : g.node? m = some r) :
    g.IsMember n role name m ↔ r.owner = some n ∧ r.kind.role? = some role ∧ r.name = name := by
  simp [IsMember, h]

lemma IsMember.isLive {role : MemberRole} {name : Option String} (h : g.IsMember n role name m) :
    g.isLive m = true := by
  obtain ⟨r, hr, _⟩ := h
  exact isLive_of_node? hr

/-- `m` lies in the part of the graph that `n` is the top of. -/
inductive Below (g : Graph) (n : NodeId) : NodeId → Prop
  | self : Below g n n
  | part {p c : NodeId} {r : Node} : Below g n p → g.node? c = some r → r.owner = some p → Below g n c

namespace Regular

lemma root_live (h : g.Regular) : g.isLive root = true := isLive_of_kind? h.root_kind

lemma mayOwn (h : g.Regular) (hr : g.node? n = some r) (hp : r.owner = some p) :
    ∃ rp, g.node? p = some rp ∧ rp.kind.mayOwn r.kind = true := by
  obtain ⟨rp, hrp⟩ := isLive_iff.mp (h.owner_live hr hp)
  exact ⟨rp, hrp, (h.proper hr).owner hp (kind?_eq hrp)⟩

/-- Packages lie below packages alone. -/
lemma isPackage_of_below (h : g.Regular) (hb : g.Below n m) (hk : g.kind? m = some k)
    (hp : k.isPackage = true) : ∃ k, g.kind? n = some k ∧ k.isPackage = true := by
  induction hb generalizing k with
  | self => exact ⟨k, hk, hp⟩
  | @part p c r _ hr ho ih =>
    obtain ⟨rp, hrp, hmay⟩ := h.mayOwn hr ho
    rw [kind?_eq hr] at hk
    obtain rfl := Option.some.inj hk
    refine ih (kind?_eq hrp) ?_
    revert hmay hp
    cases r.kind <;> cases rp.kind <;> decide

/-- Whatever goes with an element lies below it or is of no declared kind. -/
lemma doomedWith (h : g.Regular) (hm : m ∈ g.doomedWith n) :
    g.Below n m ∨ ∀ {k}, g.kind? m = some k → k.isDeclared = false := by
  refine doomedWith_subset (X := fun m => g.Below n m ∨
    ∀ {k}, g.kind? m = some k → k.isDeclared = false) ?_ (Or.inl .self) hm
  have undeclared : ∀ {e r}, g.node? e = some r → r.kind.isDeclared = false →
      ∀ {k}, g.kind? e = some k → k.isDeclared = false := by
    intro e r hr hk k hk'
    rw [kind?_eq hr] at hk'
    exact Option.some.inj hk' ▸ hk
  have association : ∀ {e r a}, g.node? e = some r → r.kind = .associationEnd →
      r.association = some a → ∀ {k}, g.kind? a = some k → k.isDeclared = false := by
    intro e r a hr hk ha k hka
    have := (h.proper hr).owner (h.endsAtHome hr ha) hka
    rw [hk] at this
    cases k <;> first | rfl | exact absurd this (by decide)
  refine ⟨?_, ?_, ?_, ?_, ?_, ?_⟩
  · intro p r c hp hr hc
    obtain ⟨s, hs⟩ := Node.mem_parts.mp hc
    obtain ⟨rc, hrc, ho, _⟩ := (h.mem_children hr s c).mp hs
    refine hp.imp (fun hb => hb.part hrc ho) fun hk => undeclared hrc ?_
    have hmay := (h.proper hrc).owner ho (kind?_eq hr)
    have hkp := hk (kind?_eq hr)
    by_contra hdec
    rw [Bool.not_eq_false] at hdec
    rw [NodeKind.isDeclared_of_mayOwn hmay hdec] at hkp
    exact Bool.noConfusion hkp
  · intro e r a _ hr hk ha
    exact Or.inr (association hr hk ha)
  · intro e r c hr hk _ _
    exact Or.inr (undeclared hr (by rw [hk]; rfl))
  · intro e r hr hk _
    refine Or.inr (undeclared hr ?_)
    revert hk
    cases r.kind <;> decide
  · intro e r c hr hk _ _
    exact Or.inr (undeclared hr (by rw [hk]; rfl))
  · intro e r a c hr hk ha _ _
    exact Or.inr (association hr hk ha)

/-- The lists of the records can be followed. -/
lemma stocked (h : g.Regular) : g.Stocked where
  part hr _ _ := h.children_live hr
  stereotype hr st hst := by
    obtain ⟨x, hx⟩ := isLive_iff.mp (h.live hr st (Node.stereotypes_subset_links _ hst))
    exact ⟨x, hx, (h.proper hr).stereotype st hst (kind?_eq hx)⟩

end Regular

end Graph

end DeclGraph
