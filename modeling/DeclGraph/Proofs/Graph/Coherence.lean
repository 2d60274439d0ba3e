import DeclGraph.Proofs.Graph.Table

/-! Coherence of a graph: what a record refers to is live, and an element is in a list of parts
exactly if its record names the owner of that list and its kind selects the list. -/

namespace DeclGraph

namespace Node

/-- The handles in a record apart from those of its parts. -/
def links (r : Node) : List NodeId :=
  r.owner.toList ++ r.type.toList ++ r.general.toList ++ r.specific.toList ++ r.clients ++
    r.suppliers ++ r.resident.toList ++ r.container.toList ++ r.association.toList ++ r.stereotypes

/-- All handles in a record. -/
def references (r : Node) : List NodeId := r.links ++ r.parts

lemma mem_parts {r : Node} {c : NodeId} : c ∈ r.parts ↔ ∃ s, c ∈ r.children s := by
  constructor
  · intro h
    obtain ⟨s, _, hs⟩ := List.mem_flatMap.mp h
    exact ⟨s, hs⟩
  · rintro ⟨s, hs⟩
    exact List.mem_flatMap.mpr ⟨s, by cases s <;> decide, hs⟩

/-- Only generalizations, residences and ends of associations have the fields that are theirs. -/
structure FieldsFit (r : Node) : Prop where
  generalization : r.kind ≠ .generalization → r.general = none ∧ r.specific = none
  residence : r.kind ≠ .elementResidence → r.resident = none ∧ r.container = none
  associationEnd : r.kind ≠ .associationEnd → r.association = none

/-- A record has the place of another: the same kind, owner and parts. -/
structure SamePlace (r r' : Node) : Prop where
  kind : r'.kind = r.kind
  owner : r'.owner = r.owner
  children : ∀ s, r'.children s = r.children s

lemma SamePlace.refl (r : Node) : SamePlace r r := ⟨rfl, rfl, fun _ => rfl⟩

/-- A record without what refers to no other element and places it nowhere. -/
def wiring (r : Node) : Node :=
  { r with name := none, visibility := none, multiplicity := none, initialValue := none,
           value := none, direction := none, isNavigable := false, isAbstract := false,
           isLeaf := false, isRoot := false, isReadOnly := false, baseClasses := [] }

lemma wiring_congr {r r' : Node} (h : r'.wiring = r.wiring) :
    r'.kind = r.kind ∧ (r'.owner = r.owner ∧ ∀ s, r'.children s = r.children s) ∧
      r'.links = r.links ∧ r'.association = r.association ∧ (r.FieldsFit → r'.FieldsFit) := by
  simp only [wiring, Node.mk.injEq] at h
  obtain ⟨hk, -, ho, -, ht, -, -, -, -, -, -, -, -, -, hg, hs, hc, hsu, hr, hco, ha, hst, -, h₁, h₂,
    h₃, h₄, h₅⟩ := h
  refine ⟨hk, ⟨ho, ?_⟩, ?_, ha, ?_⟩
  · rintro (_ | _ | _ | _ | _)
    · exact h₁
    · exact h₂
    · exact h₃
    · exact h₄
    · exact h₅
  · simp only [links, ho, ht, hg, hs, hc, hsu, hr, hco, ha, hst]
  · rintro ⟨f₁, f₂, f₃⟩
    constructor
    · rwa [hk, hg, hs]
    · rwa [hk, hr, hco]
    · rwa [hk, ha]

lemma children_attach (r : Node) (s t : Slot) (c : NodeId) :
    (r.attach s c).children t =
      if t = s ∧ c ∉ r.children s then r.children s ++ [c] else r.children t := by
  unfold attach
  by_cases h : c ∈ r.children s <;> by_cases ht : t = s <;> simp [h, ht]

lemma children_detach (r : Node) (s t : Slot) (c : NodeId) :
    (r.detach s c).children t = if t = s then (r.children s).erase c else r.children t := by
  simp [detach]

lemma children_forget (r : Node) (doomed : List NodeId) (s : Slot) :
    (r.forget doomed).children s = (r.children s).filter (· ∉ doomed) := by
  cases s <;> rfl

end Node

namespace Graph

/-- Records refer to live elements. -/
def Intact (g : Graph) : Prop :=
  ∀ {n r}, g.node? n = some r → ∀ m ∈ r.references, g.isLive m = true

/-- The lists of all records can be followed: parts are live, and so are stereotypes, which are
that. -/
class Stocked (g : Graph) : Prop where
  part : ∀ {n r}, g.node? n = some r → ∀ s, ∀ c ∈ r.children s, g.isLive c = true
  stereotype : ∀ {n r}, g.node? n = some r → ∀ st ∈ r.stereotypes,
    ∃ x, g.node? st = some x ∧ x.kind = .stereotype

/-- Elements and lists of parts agree, and records refer to live elements. -/
structure Linked (g : Graph) : Prop where
  live : ∀ {n r}, g.node? n = some r → ∀ m ∈ r.links, g.isLive m = true
  mem_children : ∀ {p r}, g.node? p = some r → ∀ s c,
    c ∈ r.children s ↔ ∃ rc, g.node? c = some rc ∧ rc.owner = some p ∧ rc.kind.slot = s
  nodup : ∀ {p r}, g.node? p = some r → ∀ s, (r.children s).Nodup
  fit : ∀ {n r}, g.node? n = some r → r.FieldsFit

/-- The end of an association is owned by it. -/
def EndsAtHome (g : Graph) : Prop :=
  ∀ {n r a}, g.node? n = some r → r.association = some a → r.owner = some a

structure Coherent (g : Graph) : Prop extends Linked g where
  endsAtHome : g.EndsAtHome

/-- No handle comes to life again, and none is given out twice. -/
structure Ages (g g' : Graph) : Prop where
  next : g.next ≤ g'.next
  live : ∀ n, n < g.next → g'.isLive n = true → g.isLive n = true

lemma Ages.refl (g : Graph) : Ages g g := ⟨le_rfl, fun _ _ => id⟩

lemma Ages.trans {g₁ g₂ g₃ : Graph} (h : Ages g₁ g₂) (h' : Ages g₂ g₃) : Ages g₁ g₃ :=
  ⟨h.next.trans h'.next, fun n hn hl => h.live n hn (h'.live n (hn.trans_le h.next) hl)⟩

namespace Linked

variable {g g' : Graph} {n m p c : NodeId} {r rc : Node}

lemma owner_live (h : g.Linked) (hn : g.node? n = some r) (ho : r.owner = some p) :
    g.isLive p = true :=
  h.live hn p (by simp [Node.links, ho])

lemma children_live (h : g.Linked) (hp : g.node? p = some r) {s : Slot} (hc : c ∈ r.children s) :
    g.isLive c = true := by
  obtain ⟨rc, hrc, _⟩ := (h.mem_children hp s c).mp hc
  exact isLive_of_node? hrc

lemma references_live (h : g.Linked) (hn : g.node? n = some r) (hm : m ∈ r.references) :
    g.isLive m = true := by
  rcases List.mem_append.mp hm with hl | hp
  · exact h.live hn m hl
  · obtain ⟨s, hs⟩ := Node.mem_parts.mp hp
    exact h.children_live hn hs

lemma intact (h : g.Linked) : g.Intact := fun hn _ hm => h.references_live hn hm

lemma next_not_mem (h : g.Linked) (hp : g.node? p = some r) (s : Slot) : g.next ∉ r.children s :=
  fun hc => ne_next (h.children_live hp hc) rfl

/-- Records that keep their places and refer to live elements keep a graph linked. -/
lemma map (h : g.Linked) {F : NodeId → Node → Node}
    (hg : ∀ m, g'.node? m = (g.node? m).map (F m))
    (hF : ∀ m r, g.node? m = some r → r.SamePlace (F m r) ∧ (F m r).FieldsFit ∧
      ∀ x ∈ (F m r).links, g.isLive x = true) : g'.Linked := by
  have back : ∀ {m r'}, g'.node? m = some r' → ∃ r, g.node? m = some r ∧ F m r = r' := by
    intro m r' hm
    rw [hg] at hm
    exact Option.map_eq_some_iff.mp hm
  have live : ∀ x, g.isLive x = true → g'.isLive x = true := by
    intro x hx
    obtain ⟨rx, hrx⟩ := isLive_iff.mp hx
    exact isLive_of_node? (r := F x rx) (by rw [hg, hrx]; rfl)
  refine ⟨?_, ?_, ?_, ?_⟩
  · intro m r' hm x hx
    obtain ⟨r, hr, rfl⟩ := back hm
    exact live x ((hF m r hr).2.2 x hx)
  · intro p r' hp s c
    obtain ⟨r, hr, rfl⟩ := back hp
    rw [(hF p r hr).1.children, h.mem_children hr]
    constructor
    · rintro ⟨rc, hrc, ho, hs⟩
      have hc := (hF c rc hrc).1
      exact ⟨F c rc, by rw [hg, hrc]; rfl, hc.owner.trans ho, by rw [hc.kind]; exact hs⟩
    · rintro ⟨rc', hrc', ho, hs⟩
      obtain ⟨rc, hrc, rfl⟩ := back hrc'
      have hc := (hF c rc hrc).1
      exact ⟨rc, hrc, hc.owner.symm.trans ho, by rw [← hc.kind]; exact hs⟩
  · intro p r' hp s
    obtain ⟨r, hr, rfl⟩ := back hp
    rw [(hF p r hr).1.children]
    exact h.nodup hr s
  · intro m r' hm
    obtain ⟨r, hr, rfl⟩ := back hm
    exact (hF m r hr).2.1

end Linked

namespace Coherent

variable {g g' : Graph} {n : NodeId} {r : Node}

lemma map (h : g.Coherent) {F : NodeId → Node → Node}
    (hg : ∀ m, g'.node? m = (g.node? m).map (F m))
    (hF : ∀ m r, g.node? m = some r → r.SamePlace (F m r) ∧ (F m r).FieldsFit ∧
      (∀ x ∈ (F m r).links, g.isLive x = true) ∧
      ∀ a, (F m r).association = some a → r.owner = some a) : g'.Coherent := by
  refine ⟨h.toLinked.map hg fun m r hr => ⟨(hF m r hr).1, (hF m r hr).2.1, (hF m r hr).2.2.1⟩, ?_⟩
  intro m r' a hm ha
  rw [hg] at hm
  obtain ⟨r, hr, rfl⟩ := Option.map_eq_some_iff.mp hm
  exact (hF m r hr).1.owner.trans ((hF m r hr).2.2.2 a ha)

/-- Changing one record, in place. -/
lemma modify (h : g.Coherent) (hr : g.node? n = some r) {f : Node → Node}
    (hp : r.SamePlace (f r)) (hfit : (f r).FieldsFit)
    (hl : ∀ x ∈ (f r).links, x ∈ r.links ∨ g.isLive x = true)
    (ha : ∀ a, (f r).association = some a → r.owner = some a) : (g.modify n f).Coherent := by
  refine h.map (F := fun m x => if m = n then f x else x) ?_ ?_
  · intro m
    rw [node?_modify]
    split_ifs <;> simp
  · intro m x hx
    split_ifs with hm
    · subst hm
      obtain rfl := Option.some.inj (hr.symm.trans hx)
      exact ⟨hp, hfit, fun y hy => (hl y hy).elim (h.live hr y) id, ha⟩
    · exact ⟨Node.SamePlace.refl x, h.fit hx, h.live hx, fun a => h.endsAtHome hx⟩

/-- Changing what refers to no other element and places the element nowhere. -/
lemma modify_plain (h : g.Coherent) (n : NodeId) {f : Node → Node}
    (hf : ∀ r, (f r).wiring = r.wiring) : (g.modify n f).Coherent := by
  refine h.map (F := fun m x => if m = n then f x else x) ?_ ?_
  · intro m
    rw [node?_modify]
    split_ifs <;> simp
  · intro m x hx
    split_ifs
    · obtain ⟨hk, hs, hl, ha, hfit⟩ := Node.wiring_congr (hf x)
      exact ⟨⟨hk, hs.1, hs.2⟩, hfit (h.fit hx), by rw [hl]; exact h.live hx,
        by rw [ha]; exact fun a => h.endsAtHome hx⟩
    · exact ⟨Node.SamePlace.refl x, h.fit hx, h.live hx, fun a => h.endsAtHome hx⟩

end Coherent

end Graph

end DeclGraph
