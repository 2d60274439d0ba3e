import DeclGraph.Proofs.Graph.Soundness

/-! What elements are told apart by: their place and name, what they connect, what resides by them, or
the field they stand for. -/

namespace DeclGraph

open DeclGraph.Graph

inductive Key where
  /-- An element of a family under an owner. -/
  | place (family : NodeKind) (owner : Option NodeId) (name : Option String)
  | edge (kind : NodeKind) (source target : NodeId)
  | residence (resident : NodeId)
  /-- An association from one classifier to another, with the name of its navigable end. -/
  | field (source target : NodeId) (name : String)

namespace NodeKind

/-- The families whose elements are told apart by owner and name. Those of features need no mention,
since features are members of classifiers. -/
def family? : NodeKind → Option NodeKind
  | .package => some .package
  | .component => some .component
  | .classType | .interfaceType | .dataType => some .classType
  | .taggedValue => some .taggedValue
  | _ => none

/-- Associations and their ends, which are made together. -/
def isJoint : NodeKind → Bool
  | .association | .associationEnd => true
  | _ => false

/-- What is told apart by no key. -/
def isKeyless : NodeKind → Bool
  | .model | .operation | .attr | .parameter | .stereotype | .associationEnd => true
  | _ => false

lemma slot_of_family? {k f : NodeKind} (h : k.family? = some f) : k.slot = f.slot := by
  revert h
  cases k <;> cases f <;> decide

/-- The families are of one kind each, but for that of classifiers. -/
lemma eq_of_family? {k f : NodeKind} (h : k.family? = some f) (hf : f ≠ .classType) : k = f := by
  revert h hf
  cases k <;> cases f <;> decide

lemma family?_eq_classType {k : NodeKind} : k.family? = some .classType ↔ k.isClassifier = true := by
  cases k <;> decide

end NodeKind

namespace Graph

/-- A record with a stereotype of a name. -/
def Marked (g : Graph) (r : Node) (name : String) : Prop :=
  ∃ st ∈ r.stereotypes, ∃ x, g.node? st = some x ∧ x.name = some name

/-- A record of an edge between two elements. Dependencies count if they are marked as what the
importer builds. -/
def Connects (g : Graph) (r : Node) (c p : NodeId) : Prop :=
  match r.kind with
  | .generalization => r.specific = some c ∧ r.general = some p
  | .abstraction => c ∈ r.clients ∧ p ∈ r.suppliers ∧ g.Marked r Profile.realizeStereotype
  | .dependency => c ∈ r.clients ∧ p ∈ r.suppliers ∧ g.Marked r Profile.importStereotype
  | _ => False

/-- A record of an element that is told apart by a key. What lies in the profile package does not
count as classifiers. -/
def Fits (g : Graph) (r : Node) : Key → Prop
  | .place k p name =>
    r.kind.family? = some k ∧ r.owner = p ∧ r.name = name ∧ (k = .classType → p ≠ some profilePackage)
  | .edge k c p => r.kind = k ∧ g.Connects r c p
  | .residence c => r.kind = .elementResidence ∧ r.resident = some c
  | .field _ _ _ => False

/-- The element `n` is told apart by a key: by its record, or as an association. -/
inductive Bears (g : Graph) (n : NodeId) : Key → Prop
  | record {r : Node} {key : Key} : g.node? n = some r → g.Fits r key → Bears g n key
  | association {e o c p : NodeId} {name : String} : g.Spans n e o c p name →
      Bears g n (.field c p name)

/-- No element is told apart by a key. -/
def Free (g : Graph) (key : Key) : Prop := ∀ m, ¬g.Bears m key

/-- What is told apart by one key in `g'` was so in `g`. -/
def Admits (g g' : Graph) : Prop :=
  ∀ {m m' key}, g'.Bears m key → g'.Bears m' key → m = m' ∨ g.Bears m key ∧ g.Bears m' key

/-- No element is told apart by a key that it was not told apart by before. -/
structure Releases (g g' : Graph) : Prop where
  back : ∀ {m key}, g'.Bears m key → g.Bears m key

variable {g g' g'' : Graph} {n m a e o c p : NodeId} {r x y : Node} {key : Key} {name : Option String}

lemma not_fits_of_isKeyless (hk : r.kind.isKeyless = true) : ¬g.Fits r key := by
  cases key <;> revert hk <;> cases hr : r.kind <;>
    simp [Fits, Connects, NodeKind.isKeyless, NodeKind.family?, hr]

lemma Bears.isLive (h : g.Bears n key) : g.isLive n = true := by
  cases h with
  | record hr _ => exact isLive_of_node? hr
  | association hs =>
    obtain ⟨r, hr, _⟩ := hs.association
    exact isLive_of_node? hr

namespace Releases

lemma refl (g : Graph) : g.Releases g := ⟨id⟩

lemma trans (h : g.Releases g') (h' : g'.Releases g'') : g.Releases g'' :=
  ⟨fun hm => h.back (h'.back hm)⟩

lemma admits (h : g.Releases g') : g.Admits g' := fun hm hm' => Or.inr ⟨h.back hm, h.back hm'⟩

lemma free (h : g.Releases g') (hf : g.Free key) : g'.Free key := fun m hm => hf m (h.back hm)

end Releases

/-- One element may get keys that are free. -/
lemma admits_of_claim (v : NodeId)
    (h : ∀ {m key}, g'.Bears m key → g.Bears m key ∨ m = v ∧ g.Free key) : g.Admits g' := by
  intro m m' key hm hm'
  rcases h hm with hold | ⟨rfl, hfree⟩ <;> rcases h hm' with hold' | ⟨rfl, hfree'⟩
  · exact Or.inr ⟨hold, hold'⟩
  · exact absurd hold (hfree' m)
  · exact absurd hold' (hfree m')
  · exact Or.inl rfl

end Graph

end DeclGraph
