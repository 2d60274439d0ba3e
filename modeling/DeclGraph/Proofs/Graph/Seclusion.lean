import DeclGraph.Proofs.Graph.Groundwork
import DeclGraph.Proofs.Graph.Soundness
import DeclGraph.Proofs.Invariance

/-! What a graph's profile brings along stays as it is while operations work on elements outside of
the profile package: nothing inside refers to what is outside, and nothing outside has its owner, its
parts or its association inside. -/

namespace DeclGraph

open DeclGraph.Graph

namespace Node

/-- The elements that a record ties its own to: the owner, the parts, and the association of an
end. -/
def kin (r : Node) : List NodeId := r.owner.toList ++ r.association.toList ++ r.parts

variable {r r' : Node} {m n : NodeId}

lemma mem_kin : m ∈ r.kin ↔ r.owner = some m ∨ r.association = some m ∨ ∃ s, m ∈ r.children s := by
  simp [kin, mem_parts]

lemma mem_kin_of_owner (h : r.owner = some m) : m ∈ r.kin := mem_kin.mpr (Or.inl h)

lemma mem_kin_of_association (h : r.association = some m) : m ∈ r.kin :=
  mem_kin.mpr (Or.inr (Or.inl h))

lemma mem_kin_of_child {s : Slot} (h : m ∈ r.children s) : m ∈ r.kin :=
  mem_kin.mpr (Or.inr (Or.inr ⟨s, h⟩))

lemma kin_congr (ho : r'.owner = r.owner) (ha : r'.association = r.association)
    (hc : ∀ s, r'.children s = r.children s) : m ∈ r'.kin ↔ m ∈ r.kin := by
  simp only [mem_kin, ho, ha, hc]

lemma kin_attach {s : Slot} (h : m ∈ (r.attach s n).kin) : m = n ∨ m ∈ r.kin := by
  have ha : (r.attach s n).association = r.association :=
    (bare_congr (bare_attach r s n)).2.2.2.2.2.2.2.2.2.1
  rw [mem_kin, owner_attach, ha] at h
  rcases h with ho | ha | ⟨t, ht⟩
  · exact Or.inr (mem_kin_of_owner ho)
  · exact Or.inr (mem_kin_of_association ha)
  · rw [children_attach] at ht
    split_ifs at ht with hs
    · rcases List.mem_append.mp ht with hold | hnew
      · exact Or.inr (mem_kin_of_child hold)
      · exact Or.inl (List.mem_singleton.mp hnew)
    · exact Or.inr (mem_kin_of_child ht)

lemma kin_detach {s : Slot} (h : m ∈ (r.detach s n).kin) : m ∈ r.kin := by
  have ha : (r.detach s n).association = r.association :=
    (bare_congr (bare_detach r s n)).2.2.2.2.2.2.2.2.2.1
  rw [mem_kin, owner_detach, ha] at h
  rw [mem_kin]
  apply h.imp_right
  apply Or.imp_right
  rintro ⟨t, ht⟩
  rw [children_detach] at ht
  split_ifs at ht with hs
  · exact ⟨s, List.mem_of_mem_erase ht⟩
  · exact ⟨t, ht⟩

lemma kin_forget {doomed : List NodeId} (h : m ∈ (r.forget doomed).kin) : m ∈ r.kin := by
  rw [mem_kin] at h ⊢
  apply h.imp_right
  apply Or.imp_right
  rintro ⟨s, hs⟩
  rw [children_forget] at hs
  exact ⟨s, (List.mem_filter.mp hs).1⟩

/-- A record without edges and stereotypes. -/
structure IsPlain (r : Node) : Prop where
  endpoints : r.endpoints = []
  stereotypes : r.stereotypes = []

namespace IsPlain

variable (h : r.IsPlain)
include h

lemma fields : r.type = none ∧ r.general = none ∧ r.specific = none ∧ r.clients = [] ∧
    r.suppliers = [] ∧ r.resident = none ∧ r.container = none := by
  have he := h.endpoints
  simp only [Node.endpoints, List.append_eq_nil_iff, Option.toList_eq_nil_iff] at he
  tauto

lemma redirect (old new : NodeId) : r.redirect old new = r := by
  obtain ⟨ht, hg, hs, hc, hsu, hr, hco⟩ := h.fields
  simp only [Node.redirect, ht, hg, hs, hc, hsu, hr, hco, Option.map_none, List.map_nil]
  cases r
  simp_all

lemma forget {doomed : List NodeId} (hd : ∀ m ∈ r.parts, m ∉ doomed) : r.forget doomed = r := by
  obtain ⟨ht, -, -, hc, hsu, -, -⟩ := h.fields
  have keep : ∀ s, (r.children s).filter (· ∉ doomed) = r.children s := by
    intro s
    apply List.filter_eq_self.mpr
    intro m hm
    exact decide_eq_true (hd m (mem_parts.mpr ⟨s, hm⟩))
  have h₁ := keep .owned
  have h₂ := keep .features
  have h₃ := keep .parameters
  have h₄ := keep .connections
  have h₅ := keep .taggedValues
  have hst := h.stereotypes
  simp only [children] at h₁ h₂ h₃ h₄ h₅
  simp only [Node.forget, ht, hc, hsu, hst, h₁, h₂, h₃, h₄, h₅, Option.filter_none,
    List.filter_nil]
  cases r
  simp_all

end IsPlain

end Node

namespace Graph

/-- An element that does not lie in the profile package of `g`. -/
class Outside (g : Graph) (n : NodeId) : Prop where
  not_inProfile : g.inProfile n ≠ .ok true

/-- The profile package of a graph is closed: its elements are plain and have their kin in it. The
root lies outside. -/
class Closed (g : Graph) : Prop where
  root : g.Outside root
  isLive : ∀ {n}, g.inProfile n = .ok true → g.isLive n = true
  plain : ∀ {n r}, g.inProfile n = .ok true → g.node? n = some r → r.IsPlain
  kin : ∀ {n r}, g.inProfile n = .ok true → g.node? n = some r → ∀ m ∈ r.kin,
    g.inProfile m = .ok true

/-- `g'` holds the profile package of `g` as it is there. -/
structure Secludes (g g' : Graph) : Prop where
  next : g.next ≤ g'.next
  node : ∀ {n}, g.inProfile n = .ok true → g'.node? n = g.node? n
  apart : ∀ {n r}, g.Outside n → g'.node? n = some r → ∀ m ∈ r.kin, g.Outside m

variable {g g' g'' : Graph} {n m : NodeId} {r : Node}

lemma inProfile_or_outside (g : Graph) (n : NodeId) : g.inProfile n = .ok true ∨ g.Outside n :=
  (em _).imp_right fun h => ⟨h⟩

instance [h : Closed g] : g.Outside root := h.root

/-- A graph secludes its own profile if what lies outside has its kin there. -/
lemma Secludes.refl (h : ∀ {n r}, g.Outside n → g.node? n = some r → ∀ m ∈ r.kin, g.Outside m) :
    g.Secludes g := ⟨le_rfl, fun _ => rfl, h⟩

lemma Secludes.modify (h : g.Secludes g') [hn : g.Outside n] {f : Node → Node}
    (hf : ∀ r : Node, (∀ m ∈ r.kin, g.Outside m) → ∀ m ∈ (f r).kin, g.Outside m) :
    g.Secludes (g'.modify n f) := by
  constructor
  · rw [next_modify]
    exact h.next
  · intro m hm
    rw [node?_modify, if_neg, h.node hm]
    rintro rfl
    exact hn.not_inProfile hm
  · intro m x hm hx
    rw [node?_modify] at hx
    split_ifs at hx
    · obtain ⟨y, hy, rfl⟩ := Option.map_eq_some_iff.mp hx
      exact hf y (h.apart hm hy)
    · exact h.apart hm hx

section closed

variable [hg : Closed g]

/-- What is not there yet will lie outside. -/
lemma Closed.outside_of_not_isLive (h : ¬g.isLive n = true) : g.Outside n :=
  ⟨fun hn => h (Closed.isLive hn)⟩

namespace Secludes

lemma outside_next (h : g.Secludes g') : g.Outside g'.next := by
  apply Closed.outside_of_not_isLive
  intro hlive
  exact absurd (lt_next hlive) (not_lt.mpr h.next)

lemma outside_of_endpoint (h : g.Secludes g') (hr : g'.node? n = some r) (hm : m ∈ r.endpoints) :
    g.Outside n := by
  rcases g.inProfile_or_outside n with hn | hn
  · rw [h.node hn] at hr
    rw [(Closed.plain hn hr).endpoints] at hm
    exact absurd hm List.not_mem_nil
  · exact hn

lemma add (h : g.Secludes g') (hr : ∀ m ∈ r.kin, g.Outside m) : g.Secludes (g'.add r).2 := by
  have hnext := h.outside_next
  constructor
  · rw [next_add]
    exact h.next.trans (Int.le_add_one le_rfl)
  · intro n hn
    rw [node?_add, if_neg, h.node hn]
    rintro rfl
    exact hnext.not_inProfile hn
  · intro n x hn hx
    rw [node?_add] at hx
    split_ifs at hx
    · rwa [← Option.some.inj hx]
    · exact h.apart hn hx

/-- What lies outside drags nothing inside along. -/
lemma dragClosed (h : g.Secludes g') : g'.DragClosed g.Outside where
  part p r c hp hr hc := h.apart hp hr c (List.mem_append_right _ hc)
  whole e r a he hr _ ha := h.apart he hr a (Node.mem_kin_of_association ha)
  generalization e r c hr _ hc _ := by
    apply h.outside_of_endpoint hr (m := c)
    rcases hc with hc | hc <;> simp [Node.endpoints, hc]
  dependency e r hr _ hc := by
    rcases hc with ⟨hne, -⟩ | ⟨hne, -⟩
    · obtain ⟨c, hc⟩ := List.exists_mem_of_ne_nil _ hne
      exact h.outside_of_endpoint hr (m := c) (by simp [Node.endpoints, hc])
    · obtain ⟨c, hc⟩ := List.exists_mem_of_ne_nil _ hne
      exact h.outside_of_endpoint hr (m := c) (by simp [Node.endpoints, hc])
  residence e r c hr _ hc _ := by
    apply h.outside_of_endpoint hr (m := c)
    rcases hc with hc | hc <;> simp [Node.endpoints, hc]
  typed e r a c hr _ ha hc _ := by
    have he : g.Outside e := h.outside_of_endpoint hr (m := c) (by simp [Node.endpoints, hc])
    exact h.apart he hr a (Node.mem_kin_of_association ha)

lemma remove (h : g.Secludes g') {doomed : List NodeId} (hd : ∀ m ∈ doomed, g.Outside m) :
    g.Secludes (g'.remove doomed) := by
  have hin : ∀ {m}, g.inProfile m = .ok true → m ∉ doomed := fun hm hmem =>
    (hd _ hmem).not_inProfile hm
  constructor
  · rw [next_remove]
    exact h.next
  · intro n hn
    rw [node?_remove, if_neg (hin hn), h.node hn]
    cases hr : g.node? n with
    | none => rfl
    | some r =>
      rw [Option.map_some, (Closed.plain hn hr).forget]
      intro m hm
      exact hin (Closed.kin hn hr m (List.mem_append_right _ hm))
  · intro n x hn hx
    rw [node?_remove] at hx
    split_ifs at hx
    obtain ⟨y, hy, rfl⟩ := Option.map_eq_some_iff.mp hx
    intro m hm
    exact h.apart hn hy m (Node.kin_forget hm)

lemma redirect (h : g.Secludes g') (old new : NodeId) :
    g.Secludes (g'.mapNodes fun n r => if n = old then r else r.redirect old new) := by
  constructor
  · rw [next_mapNodes]
    exact h.next
  · intro n hn
    rw [node?_mapNodes, h.node hn]
    cases hr : g.node? n with
    | none => rfl
    | some r => simp [(Closed.plain hn hr).redirect]
  · intro n x hn hx
    rw [node?_mapNodes] at hx
    obtain ⟨y, hy, rfl⟩ := Option.map_eq_some_iff.mp hx
    intro m hm
    apply h.apart hn hy m
    split_ifs at hm
    · exact hm
    · exact (Node.kin_congr rfl rfl fun s => by cases s <;> rfl).mp hm

end Secludes

end closed

end Graph

namespace GraphM

variable {α : Type} {g g' : Graph} {n : NodeId} {r : Node}

lemma yields_query {f : Graph → Except GraphFault α} {Q : α → Prop}
    (hf : ∀ {g' a}, g.Secludes g' → f g' = .ok a → Q a) : Yields g.Secludes (query f) Q := by
  constructor
  intro g' hg'
  unfold query
  cases ha : f g' with
  | ok a => exact ⟨hf hg' ha, hg'⟩
  | error e => exact hg'

instance maintains_get (n : NodeId) : Maintains g.Secludes (get n) := obeys_query _

section outside

variable [hn : g.Outside n]

lemma yields_get : Yields g.Secludes (get n) fun r => ∀ m ∈ r.kin, g.Outside m :=
  yields_query fun hg hr => hg.apart hn (get_eq_ok.mp hr)

lemma maintains_modify {f : Node → Node}
    (hf : ∀ r : Node, (∀ m ∈ r.kin, g.Outside m) → ∀ m ∈ (f r).kin, g.Outside m) :
    Maintains g.Secludes (modify (·.modify n f) : GraphM Unit) :=
  obeys_modify fun _ hg => hg.modify hf

lemma maintains_update {f : Node → Node}
    (hf : ∀ r : Node, (∀ m ∈ r.kin, g.Outside m) → ∀ m ∈ (f r).kin, g.Outside m) :
    Maintains g.Secludes (update n f) := by
  unfold update
  exact yields_get.next fun _ _ => maintains_modify hf

/-- Changes of a record that leave its kin. -/
lemma maintains_describe {f : Node → Node} (ho : ∀ r, (f r).owner = r.owner)
    (ha : ∀ r, (f r).association = r.association)
    (hc : ∀ r s, (f r).children s = r.children s) : Maintains g.Secludes (update n f) :=
  maintains_update fun r hr m hm => hr m ((Node.kin_congr (ho r) (ha r) (hc r)).mp hm)

lemma maintains_plain {f : Node → Node} (hf : ∀ r, (f r).wiring = r.wiring) :
    Maintains g.Secludes (update n f) :=
  maintains_describe (fun r => (Node.wiring_congr (hf r)).2.1.1)
    (fun r => (Node.wiring_congr (hf r)).2.2.2.1) fun r => (Node.wiring_congr (hf r)).2.1.2

instance maintains_setName (name : Option String) : Maintains g.Secludes (setName n name) :=
  maintains_plain fun _ => rfl

instance maintains_setVisibility (v : Visibility) : Maintains g.Secludes (setVisibility n v) :=
  maintains_plain fun _ => rfl

instance maintains_setMultiplicity (m : Option String) :
    Maintains g.Secludes (setMultiplicity n m) :=
  maintains_plain fun _ => rfl

instance maintains_setInitialValue (v : Option String) :
    Maintains g.Secludes (setInitialValue n v) :=
  maintains_plain fun _ => rfl

instance maintains_setAbstract (b : Bool) : Maintains g.Secludes (setAbstract n b) :=
  maintains_plain fun _ => rfl

instance maintains_setLeaf (b : Bool) : Maintains g.Secludes (setLeaf n b) :=
  maintains_plain fun _ => rfl

instance maintains_setRoot (b : Bool) : Maintains g.Secludes (setRoot n b) :=
  maintains_plain fun _ => rfl

instance maintains_setReadOnly (b : Bool) : Maintains g.Secludes (setReadOnly n b) :=
  maintains_plain fun _ => rfl

instance maintains_setNavigable (b : Bool) : Maintains g.Secludes (setNavigable n b) :=
  maintains_plain fun _ => rfl

instance maintains_addBaseClass (base : String) : Maintains g.Secludes (addBaseClass n base) := by
  apply maintains_plain
  intro r
  split_ifs <;> rfl

instance maintains_setType (type : Option NodeId) : Maintains g.Secludes (setType n type) := by
  have htype : Maintains g.Secludes (update n ({ · with type })) :=
    maintains_describe (fun _ => rfl) (fun _ => rfl) fun r s => by cases s <;> rfl
  unfold setType
  cases type with
  | none => exact htype
  | some t => exact .bind (obeys_query _) fun _ => htype

/-- A stereotype may lie in the profile. -/
instance maintains_addStereotype (st : NodeId) : Maintains g.Secludes (addStereotype n st) := by
  have hadd : Maintains g.Secludes (update n fun r =>
      if st ∈ r.stereotypes then r else { r with stereotypes := r.stereotypes ++ [st] }) := by
    apply maintains_describe
    · intro r
      split_ifs <;> rfl
    · intro r
      split_ifs <;> rfl
    · intro r s
      split_ifs <;> cases s <;> rfl
  unfold addStereotype get
  infer_instance

/-- An element outside moves to a place outside. -/
lemma maintains_move {home : Option NodeId} (hhome : ∀ p, home = some p → g.Outside p) :
    Maintains g.Secludes (setNamespace n home) := by
  have howner : Maintains g.Secludes (modify (·.modify n ({ · with owner := home })) :
      GraphM Unit) := by
    apply maintains_modify
    intro r hr m hm
    simp only [Node.mem_kin, Node.children_with_owner] at hm
    rcases hm with ho | hrest
    · exact hhome m ho
    · exact hr m (Node.mem_kin.mpr (Or.inr hrest))
  have hdetach (owner : NodeId) (slot : Slot) (_ : g.Outside owner) :
      Maintains g.Secludes (modify (·.modify owner (·.detach slot n)) : GraphM Unit) :=
    maintains_modify fun r hr m hm => hr m (Node.kin_detach hm)
  have hattach (owner : NodeId) (slot : Slot) (_ : g.Outside owner) :
      Maintains g.Secludes (update owner (·.attach slot n)) := by
    apply maintains_update
    intro r hr m hm
    rcases Node.kin_attach hm with rfl | hold
    · exact hn
    · exact hr m hold
  unfold setNamespace
  apply yields_get.next
  intro r hr
  cases ho : r.owner with
  | none =>
    cases home with
    | none => exact howner
    | some p => exact howner.bind fun _ => hattach p _ (hhome p rfl)
  | some owner =>
    have hleave := hdetach owner r.kind.slot (hr owner (Node.mem_kin_of_owner ho))
    cases home with
    | none => exact hleave.bind fun _ => howner
    | some p => exact hleave.bind fun _ => howner.bind fun _ => hattach p _ (hhome p rfl)

instance maintains_setNamespace (home : NodeId) [h : g.Outside home] :
    Maintains g.Secludes (setNamespace n (some home)) := by
  apply maintains_move
  rintro _ ⟨⟩
  exact h

end outside

/-! What is read from an element outside -/

section outside

variable [hn : g.Outside n]

lemma yields_children (slot : Slot) : Yields g.Secludes (query fun g' => (·.children slot) <$> g'.get n)
    fun ns => ∀ m ∈ ns, g.Outside m := by
  apply yields_query
  intro g' ns hg' hns m hm
  obtain ⟨r, hr, rfl⟩ := except_map_eq_ok.mp hns
  exact hg'.apart hn (get_eq_ok.mp hr) m (Node.mem_kin_of_child hm)

lemma yields_find (slot : Slot) (q : Node → Bool) :
    Yields g.Secludes (query fun g' => do return g'.findIn (← (·.children slot) <$> g'.get n) q)
      fun o => ∀ m, o = some m → g.Outside m := by
  apply yields_query
  intro g' o hg' ho m hm
  obtain ⟨ns, hns, hfind⟩ := except_bind_eq_ok.mp ho
  obtain ⟨r, hr, rfl⟩ := except_map_eq_ok.mp hns
  obtain rfl := Except.ok.inj hfind
  have hmem : m ∈ r.children slot := List.mem_of_find?_eq_some hm
  exact hg'.apart hn (get_eq_ok.mp hr) m (Node.mem_kin_of_child hmem)

lemma yields_followFirst (slot : Slot) (q : Node → Bool) :
    Yields g.Secludes (query fun g' => do g'.followFirst q (← (·.children slot) <$> g'.get n))
      fun o => ∀ m, o = some m → g.Outside m := by
  apply yields_query
  intro g' o hg' ho m hm
  obtain ⟨ns, hns, hfind⟩ := except_bind_eq_ok.mp ho
  obtain ⟨r, hr, rfl⟩ := except_map_eq_ok.mp hns
  obtain rfl := findIn_of_followFirst hfind
  have hmem : m ∈ r.children slot := List.mem_of_find?_eq_some hm
  exact hg'.apart hn (get_eq_ok.mp hr) m (Node.mem_kin_of_child hmem)

lemma yields_followAll (slot : Slot) (q : Node → Bool) :
    Yields g.Secludes (query fun g' => do g'.followAll q (← (·.children slot) <$> g'.get n))
      fun ns => ∀ m ∈ ns, g.Outside m := by
  apply yields_query
  intro g' ms hg' hms m hm
  obtain ⟨ns, hns, hselect⟩ := except_bind_eq_ok.mp hms
  obtain ⟨r, hr, rfl⟩ := except_map_eq_ok.mp hns
  obtain rfl := selectIn_of_followAll hselect
  have hmem : m ∈ r.children slot := (List.mem_filter.mp hm).1
  exact hg'.apart hn (get_eq_ok.mp hr) m (Node.mem_kin_of_child hmem)

lemma yields_taggedValueNode? (tag : String) : Yields g.Secludes (query (·.taggedValueNode? n tag))
    fun o => ∀ m, o = some m → g.Outside m := by
  apply yields_query
  intro g' o hg' ho m hm
  obtain ⟨r, hr, hfind⟩ := except_bind_eq_ok.mp ho
  obtain rfl := findIn_of_followFirst hfind
  have hmem : m ∈ r.children .taggedValues := List.mem_of_find?_eq_some hm
  exact hg'.apart hn (get_eq_ok.mp hr) m (Node.mem_kin_of_child hmem)

lemma yields_owner : Yields g.Secludes (query (·.namespaceOf n))
    fun o => ∀ m, o = some m → g.Outside m := by
  apply yields_query
  intro g' o hg' ho m hm
  obtain ⟨r, hr, rfl⟩ := except_map_eq_ok.mp ho
  exact hg'.apart hn (get_eq_ok.mp hr) m (Node.mem_kin_of_owner hm)

end outside

section closed

variable [Closed g]

lemma yields_add (kind : NodeKind) (name : Option String) :
    Yields g.Secludes (add kind name) g.Outside :=
  ⟨fun _ hg => ⟨hg.outside_next, hg.add fun m hm => by cases hm⟩⟩

lemma yields_create {kind : NodeKind} {name : Option String} {home : Option NodeId}
    (hhome : ∀ p, home = some p → g.Outside p) :
    Yields g.Secludes (create kind name home) g.Outside := by
  unfold create
  apply (yields_add kind name).bind
  intro n hn
  have hmove : Maintains g.Secludes (setNamespace n home) := maintains_move hhome
  exact .ite (hmove.yields_bind fun _ => .answer hn) (.answer hn)

lemma yields_createIn (kind : NodeKind) (name : Option String) (home : NodeId) [h : g.Outside home] :
    Yields g.Secludes (create kind name (some home)) g.Outside := by
  apply yields_create
  rintro _ ⟨⟩
  exact h

variable [hn : g.Outside n]

instance maintains_delete : Maintains g.Secludes (delete n) := by
  unfold delete
  apply (obeys_query _).bind
  intro _
  apply maintains_of_ends
  intro g' hg'
  exact hg'.remove fun m hm => doomedWith_subset hg'.dragClosed hn hm

instance maintains_setTaggedValue (tag value : String) :
    Maintains g.Secludes (setTaggedValue n tag value) := by
  have hset (tv : NodeId) (_ : g.Outside tv) : Maintains g.Secludes (do
      modify (·.modify tv ({ · with value := some value }))
      return tv : GraphM NodeId) := by
    have : Maintains g.Secludes (modify (·.modify tv ({ · with value := some value })) :
        GraphM Unit) :=
      maintains_modify fun _ hr m hm =>
        hr m ((Node.kin_congr rfl rfl fun s => by cases s <;> rfl).mp hm)
    infer_instance
  unfold setTaggedValue
  apply (yields_taggedValueNode? tag).next
  intro found hfound
  cases found with
  | none => exact (yields_createIn .taggedValue (some tag) n).next hset
  | some tv => exact hset tv (hfound tv rfl)

instance maintains_addDocumentation (doc : Option String) :
    Maintains g.Secludes (addDocumentation n doc) := by
  unfold addDocumentation
  cases doc.bind DocComment.clean <;> dsimp only <;> infer_instance

instance maintains_removeTaggedValues (tag : String) :
    Maintains g.Secludes (removeTaggedValues n tag) := by
  unfold removeTaggedValues
  apply yields_get.next
  intro r hr
  have hvictims : Yields g.Secludes
      (query (·.followAll (·.name = some tag) r.taggedValues))
      fun victims => ∀ m ∈ victims, g.Outside m := by
    apply yields_query
    intro g' victims _ hvictims m hm
    obtain rfl := selectIn_of_followAll hvictims
    have hmem : m ∈ r.children .taggedValues := (List.mem_filter.mp hm).1
    exact hr m (Node.mem_kin_of_child hmem)
  apply hvictims.next
  intro victims hout
  have : Maintains g.Secludes (victims.forM delete) :=
    maintains_forM fun m hm => by have := hout m hm; infer_instance
  infer_instance

instance maintains_replaceReferences (new : NodeId) [g.Outside new] :
    Maintains g.Secludes (replaceReferences n new) := by
  have hturn : Maintains g.Secludes
      (modify (·.mapNodes fun m r => if m = n then r else r.redirect n new) : GraphM Unit) :=
    obeys_modify fun _ hg => hg.redirect n new
  unfold replaceReferences
  apply yields_get.next
  intro r hr
  have hparts (slot : Slot) : Maintains g.Secludes (forIn (r.children slot) PUnit.unit fun part _ => do
      setNamespace part (some new)
      return .yield ⟨⟩ : GraphM PUnit) := by
    apply maintains_forIn
    intro part hpart _
    have : g.Outside part := hr part (Node.mem_kin_of_child hpart)
    infer_instance
  exact .bind inferInstance fun _ => hturn.bind fun _ => inferInstance

/-! Builders -/

instance maintains_removeParameter (parameter : NodeId) [g.Outside parameter] :
    Maintains g.Secludes (removeParameter n parameter) := by
  unfold removeParameter get
  infer_instance

instance maintains_removeClientDependency (client : NodeId) :
    Maintains g.Secludes (removeClientDependency client n) := by
  have : Maintains g.Secludes (update n fun r => { r with clients := r.clients.erase client }) :=
    maintains_describe (fun _ => rfl) (fun _ => rfl) fun r s => by cases s <;> rfl
  unfold removeClientDependency get
  infer_instance

lemma yields_buildOperation (name : Option String) :
    Yields g.Secludes (buildOperation n name) g.Outside :=
  yields_createIn .operation name n

lemma yields_buildAttribute (type : Option NodeId) (name : Option String) :
    Yields g.Secludes (buildAttribute n type name) g.Outside := by
  unfold buildAttribute
  apply (yields_createIn .attr name n).bind
  intro _ hm
  exact (maintains_setType type).yields_bind fun _ => .answer hm

instance maintains_buildParameter (type : Option NodeId) (name : Option String)
    (direction : Direction) : Maintains g.Secludes (buildParameter n type name direction) := by
  unfold buildParameter
  apply (yields_createIn .parameter name n).next
  intro m _
  have : Maintains g.Secludes (update m ({ · with direction := some direction })) :=
    maintains_plain fun _ => rfl
  infer_instance

/-- The edges of an element are built beside it; their other ends may lie in the profile. -/
lemma yields_buildBeside {kind : NodeKind} {name : Option String} {f : Node → Node}
    (hf : ∀ r m, m ∈ (f r).kin ↔ m ∈ r.kin) : Yields g.Secludes (do
      let m ← create kind name (← query (·.namespaceOf n))
      modify (·.modify m f)
      return m) g.Outside := by
  apply yields_owner.bind
  intro home hhome
  apply (yields_create hhome).bind
  intro m hm
  have hfill : Maintains g.Secludes (modify (·.modify m f) : GraphM Unit) :=
    maintains_modify fun r hr m hm => hr m ((hf r m).mp hm)
  exact hfill.yields_bind fun _ => .answer hm

lemma yields_buildGeneralization (parent : NodeId) :
    Yields g.Secludes (buildGeneralization n parent) g.Outside := by
  unfold buildGeneralization
  exact Obeys.yields_bind (obeys_query _) fun _ => yields_buildBeside fun r m =>
    Node.kin_congr rfl rfl fun s => by cases s <;> rfl

lemma yields_buildDependency (supplier : NodeId) (kind : NodeKind) (name : Option String) :
    Yields g.Secludes (buildDependency n supplier kind name) g.Outside := by
  unfold buildDependency
  apply Yields.ite
  · exact .failure _
  · exact Obeys.yields_bind (obeys_query _) fun _ => yields_buildBeside fun r m =>
      Node.kin_congr rfl rfl fun s => by cases s <;> rfl

instance maintains_buildEnd (type : NodeId) (isNavigable : Bool) :
    Maintains g.Secludes (buildEnd n type isNavigable) := by
  unfold buildEnd
  apply (yields_createIn .associationEnd none n).next
  intro m _
  have : Maintains g.Secludes (modify (·.modify m
      ({ · with association := some n, isNavigable })) : GraphM Unit) := by
    apply maintains_modify
    intro r hr m hm
    rcases Node.mem_kin.mp hm with ho | ha | ⟨s, hs⟩
    · exact hr m (Node.mem_kin_of_owner ho)
    · obtain rfl := Option.some.inj ha
      exact hn
    · exact hr m (Node.mem_kin_of_child (s := s) (by cases s <;> exact hs))
  infer_instance

lemma yields_buildAssociation (target : NodeId) (nt ns : Bool) (name : Option String) :
    Yields g.Secludes (buildAssociation target nt n ns name) g.Outside := by
  unfold buildAssociation
  apply yields_owner.bind
  intro home hhome
  apply (yields_create hhome).bind
  intro m hm
  exact Obeys.yields_bind inferInstance fun _ => Obeys.yields_bind inferInstance fun _ => .answer hm

omit hn in
instance maintains_buildResidence (resident container : NodeId) :
    Maintains g.Secludes (buildResidence resident container) := by
  unfold buildResidence
  apply (maintains_get resident).bind
  intro _
  apply (maintains_get container).bind
  intro _
  apply (yields_add .elementResidence none).next
  intro n _
  have : Maintains g.Secludes (modify (·.modify n
      ({ · with resident := some resident, container := some container })) : GraphM Unit) :=
    maintains_modify fun r hr m hm =>
      hr m ((Node.kin_congr rfl rfl fun s => by cases s <;> rfl).mp hm)
  infer_instance

omit hn in
/-- A stereotype that has to be made is put under the root. -/
instance maintains_resolve (registry : StereotypeRegistry) (name : String) (base : Option String) :
    Maintains g.Secludes (registry.resolve name base) := by
  unfold StereotypeRegistry.resolve
  apply obeys_get.bind
  intro g'
  cases (registry.remembered? name base).filter g'.isLive with
  | some st => exact obeys_pure _
  | none =>
    apply (obeys_query _).found
    · have hmade (st : NodeId) (_ : g.Outside st) : Maintains g.Secludes (do
          if let some b := base then addBaseClass st b
          let s := { registry with synthesized := registry.synthesized ++ [st] }
          return (.ok st, s.remember name base st) :
          GraphM (Except MissingStereotype NodeId × StereotypeRegistry)) := by
        cases base <;> dsimp only <;> infer_instance
      have hmake := (yields_createIn .stereotype (some name) root).next hmade
      infer_instance
    · infer_instance

end closed

end GraphM

end DeclGraph
