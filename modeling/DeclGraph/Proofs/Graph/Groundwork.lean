import DeclGraph.Import.Classifier
import DeclGraph.Proofs.Graph.Linkage
import DeclGraph.Proofs.Outcome

/-! The groundwork of a model: packages, components and classifiers with what is told about them.
Laying it down makes no edges between classifiers and no features, and gives no other name or kind
to what is there. -/

namespace DeclGraph

open DeclGraph.Graph

/-- What a model consists of before any reference is resolved. -/
def NodeKind.groundwork : List NodeKind :=
  [.package, .component, .classType, .interfaceType, .stereotype, .taggedValue, .elementResidence]

instance : Fact (NodeKind.package ∈ NodeKind.groundwork) := ⟨by decide⟩

instance : Fact (NodeKind.component ∈ NodeKind.groundwork) := ⟨by decide⟩

instance : Fact (NodeKind.stereotype ∈ NodeKind.groundwork) := ⟨by decide⟩

instance : Fact (NodeKind.taggedValue ∈ NodeKind.groundwork) := ⟨by decide⟩

instance : Fact (NodeKind.elementResidence ∈ NodeKind.groundwork) := ⟨by decide⟩

instance (kind : ClassifierKind) : Fact (kind.nodeKind ∈ NodeKind.groundwork) :=
  ⟨by cases kind <;> decide⟩

/-- Another record for the same element, which is marked with more stereotypes if at all. -/
structure Node.SameElement (r r' : Node) : Prop where
  kind : r'.kind = r.kind
  name : r'.name = r.name
  stereotypes : r.stereotypes ⊆ r'.stereotypes

lemma Node.SameElement.of_bare {r r' : Node} (h : r'.bare = r.bare) : r.SameElement r' := by
  obtain ⟨hk, hn, -, -, -, -, -, -, -, -, hst⟩ := Node.bare_congr h
  exact ⟨hk, hn, hst ▸ List.Subset.refl _⟩

namespace Graph

variable {g g' g'' : Graph} {n : NodeId} {r : Node} {f : Node → Node}

/-- `g'` is what `g` has become while groundwork was laid down: what is there was there before or
belongs to the groundwork. -/
structure Lays (g g' : Graph) : Prop where
  next : g.next ≤ g'.next
  node : ∀ {n r'}, g'.node? n = some r' →
    (∃ r, g.node? n = some r ∧ r'.kind = r.kind ∧ r'.name = r.name) ∨
      g.next ≤ n ∧ r'.kind ∈ NodeKind.groundwork

/-- All elements are still there and are marked as they were. -/
structure Keeps (g g' : Graph) : Prop where
  node : ∀ {n r}, g.node? n = some r → ∃ r', g'.node? n = some r' ∧ r.SameElement r'

/-- Elements are of the kinds that they were of, and stereotypes have their names. -/
structure Titles (g g' : Graph) : Prop where
  next : g.next ≤ g'.next
  node : ∀ {n r'}, g'.node? n = some r' → g.next ≤ n ∨
    ∃ r, g.node? n = some r ∧ r'.kind = r.kind ∧ (r.kind = .stereotype → r'.name = r.name)

lemma Lays.titles (h : g.Lays g') : g.Titles g' := by
  refine ⟨h.next, fun {n r'} hr' => ?_⟩
  rcases h.node hr' with ⟨r, hr, hk, hn⟩ | ⟨hnew, -⟩
  exacts [Or.inr ⟨r, hr, hk, fun _ => hn⟩, Or.inl hnew]

instance : IsPreorder Graph Titles where
  refl g := ⟨le_rfl, fun hr => Or.inr ⟨_, hr, rfl, fun _ => rfl⟩⟩
  trans g g' g'' h h' := by
    refine ⟨h.next.trans h'.next, fun {n r''} hr'' => ?_⟩
    rcases h'.node hr'' with hnew | ⟨r', hr', hk', hn'⟩
    · exact Or.inl (h.next.trans hnew)
    · refine (h.node hr').imp_right ?_
      rintro ⟨r, hr, hk, hn⟩
      exact ⟨r, hr, hk'.trans hk, fun hst => (hn' (hk.trans hst)).trans (hn hst)⟩

instance : IsPreorder Graph Lays where
  refl g := ⟨le_rfl, fun hr => Or.inl ⟨_, hr, rfl, rfl⟩⟩
  trans g g' g'' h h' := by
    refine ⟨h.next.trans h'.next, fun {n r''} hr'' => ?_⟩
    rcases h'.node hr'' with ⟨r', hr', hk', hn'⟩ | ⟨hnew, hk'⟩
    · rcases h.node hr' with ⟨r, hr, hk, hn⟩ | ⟨hnew, hk⟩
      · exact Or.inl ⟨r, hr, hk'.trans hk, hn'.trans hn⟩
      · exact Or.inr ⟨hnew, hk' ▸ hk⟩
    · exact Or.inr ⟨h.next.trans hnew, hk'⟩

instance : IsPreorder Graph Keeps where
  refl g := ⟨fun hr => ⟨_, hr, rfl, rfl, List.Subset.refl _⟩⟩
  trans g g' g'' h h' := by
    refine ⟨fun {n r} hr => ?_⟩
    obtain ⟨r', hr', hsame⟩ := h.node hr
    obtain ⟨r'', hr'', hsame'⟩ := h'.node hr'
    exact ⟨r'', hr'', hsame'.kind.trans hsame.kind, hsame'.name.trans hsame.name,
      List.Subset.trans hsame.stereotypes hsame'.stereotypes⟩

lemma Lays.of_back (hnext : g'.next = g.next)
    (h : ∀ {n r'}, g'.node? n = some r' → ∃ r, g.node? n = some r ∧ r'.kind = r.kind ∧
      r'.name = r.name) : g.Lays g' :=
  ⟨hnext.ge, fun hr => Or.inl (h hr)⟩

/-- What may become of a graph when elements are described and belong to the groundwork if they are
new. -/
class Tolerates (R : Graph → Graph → Prop) : Prop extends IsPreorder Graph R where
  add : ∀ (g : Graph) {r : Node}, r.kind ∈ NodeKind.groundwork → R g (g.add r).2
  modify : ∀ (g : Graph) (n : NodeId) {f : Node → Node}, (∀ r : Node, r.SameElement (f r)) →
    R g (g.modify n f)

/-- Elements of any kind may be new. -/
class Accepts (R : Graph → Graph → Prop) : Prop extends Tolerates R where
  add_any : ∀ (g : Graph) (r : Node), R g (g.add r).2

instance : Tolerates Lays where
  add g r hk := by
    refine ⟨by simp, fun {n r'} hr' => ?_⟩
    rw [node?_add] at hr'
    split_ifs at hr' with hn
    · obtain rfl := Option.some.inj hr'
      exact Or.inr ⟨hn.ge, hk⟩
    · exact Or.inl ⟨r', hr', rfl, rfl⟩
  modify g n f hf := by
    refine .of_back (by simp) fun {m r'} hr' => ?_
    rw [node?_modify] at hr'
    split_ifs at hr' with hm
    · obtain ⟨r, hr, rfl⟩ := Option.map_eq_some_iff.mp hr'
      exact ⟨r, hr, (hf r).kind, (hf r).name⟩
    · exact ⟨r', hr', rfl, rfl⟩

lemma keeps_add (g : Graph) (r : Node) : g.Keeps (g.add r).2 := by
  refine ⟨fun {n x} hx => ⟨x, ?_, rfl, rfl, List.Subset.refl _⟩⟩
  rw [node?_add, if_neg (ne_next (isLive_of_node? hx)), hx]

instance : Accepts Keeps where
  add g r _ := keeps_add g r
  add_any := keeps_add
  modify g n f hf := by
    refine ⟨fun {m x} hx => ?_⟩
    rw [node?_modify, hx]
    split_ifs
    · exact ⟨f x, rfl, hf x⟩
    · exact ⟨x, rfl, rfl, rfl, List.Subset.refl _⟩

lemma titles_add (g : Graph) (r : Node) : g.Titles (g.add r).2 := by
  refine ⟨by simp, fun {n r'} hr' => ?_⟩
  rw [node?_add] at hr'
  split_ifs at hr' with hn
  · exact Or.inl hn.ge
  · exact Or.inr ⟨r', hr', rfl, fun _ => rfl⟩

instance : Accepts Titles where
  add g r _ := titles_add g r
  add_any := titles_add
  modify g n _ hf := (Tolerates.modify (R := Lays) g n hf).titles

lemma lays_remove (g : Graph) (doomed : List NodeId) : g.Lays (g.remove doomed) := by
  refine .of_back (by simp) fun {n r'} hr' => ?_
  obtain ⟨-, r, hr, rfl⟩ := node?_remove_eq_some.mp hr'
  exact ⟨r, hr, rfl, rfl⟩

lemma lays_mapNodes (g : Graph) {f : NodeId → Node → Node}
    (hf : ∀ n r, (f n r).kind = r.kind ∧ (f n r).name = r.name) : g.Lays (g.mapNodes f) := by
  refine .of_back (by simp) fun {n r'} hr' => ?_
  rw [node?_mapNodes] at hr'
  obtain ⟨r, hr, rfl⟩ := Option.map_eq_some_iff.mp hr'
  exact ⟨r, hr, hf n r⟩

end Graph

namespace GraphM

variable {α : Type} {R : Graph → Graph → Prop} {n : NodeId} {f : Node → Node}

instance obeys_query [IsPreorder Graph R] (f : Graph → Except GraphFault α) :
    Obeys R (query f) := by
  refine ⟨fun g => ?_⟩
  unfold query
  cases f g <;> exact refl_of R g

/-! What describes elements and adds some to the groundwork -/

section tolerates

variable [hR : Tolerates R]

lemma obeys_modifyNode (hf : ∀ r : Node, r.SameElement (f r)) :
    Obeys R (modify (·.modify n f) : GraphM Unit) :=
  obeys_modify fun g => Tolerates.modify g n hf

lemma obeys_update (hf : ∀ r : Node, r.SameElement (f r)) : Obeys R (update n f) := by
  unfold update get
  exact .bind inferInstance fun _ => obeys_modifyNode hf

instance obeys_add {kind : NodeKind} [hk : Fact (kind ∈ NodeKind.groundwork)]
    (name : Option String) : Obeys R (add kind name) :=
  ⟨fun g => Tolerates.add g hk.out⟩

instance obeys_setNamespace (home : Option NodeId) : Obeys R (setNamespace n home) := by
  have hdetach (owner : NodeId) (slot : Slot) :
      Obeys R (modify (·.modify owner (·.detach slot n)) : GraphM Unit) :=
    obeys_modifyNode fun _ => .of_bare (by simp)
  have howner : Obeys R (modify (·.modify n ({ · with owner := home })) : GraphM Unit) :=
    obeys_modifyNode fun _ => .of_bare rfl
  have hattach (owner : NodeId) (slot : Slot) : Obeys R (update owner (·.attach slot n)) :=
    obeys_update fun _ => .of_bare (by simp)
  unfold setNamespace get
  refine .bind inferInstance fun r => ?_
  cases r.owner <;> cases home <;> dsimp only <;> infer_instance

instance obeys_create {kind : NodeKind} [hk : Fact (kind ∈ NodeKind.groundwork)]
    (name : Option String) (home : Option NodeId) : Obeys R (create kind name home) := by
  unfold create
  infer_instance

instance obeys_setVisibility (v : Visibility) : Obeys R (setVisibility n v) :=
  obeys_update fun _ => ⟨rfl, rfl, List.Subset.refl _⟩

instance obeys_setAbstract (b : Bool) : Obeys R (setAbstract n b) :=
  obeys_update fun _ => ⟨rfl, rfl, List.Subset.refl _⟩

instance obeys_setLeaf (b : Bool) : Obeys R (setLeaf n b) :=
  obeys_update fun _ => ⟨rfl, rfl, List.Subset.refl _⟩

instance obeys_setRoot (b : Bool) : Obeys R (setRoot n b) :=
  obeys_update fun _ => ⟨rfl, rfl, List.Subset.refl _⟩

instance obeys_addBaseClass (base : String) : Obeys R (addBaseClass n base) := by
  refine obeys_update fun r => ?_
  split_ifs <;> exact ⟨rfl, rfl, List.Subset.refl _⟩

instance obeys_addStereotype (st : NodeId) : Obeys R (addStereotype n st) := by
  have : Obeys R (update n fun r =>
      if st ∈ r.stereotypes then r else { r with stereotypes := r.stereotypes ++ [st] }) := by
    refine obeys_update fun r => ?_
    split_ifs
    exacts [⟨rfl, rfl, List.Subset.refl _⟩, ⟨rfl, rfl, List.subset_append_left _ _⟩]
  unfold addStereotype get
  infer_instance

instance obeys_setTaggedValue (tag value : String) : Obeys R (setTaggedValue n tag value) := by
  have (tv : NodeId) :
      Obeys R (modify (·.modify tv ({ · with value := some value })) : GraphM Unit) :=
    obeys_modifyNode fun _ => ⟨rfl, rfl, List.Subset.refl _⟩
  unfold setTaggedValue
  exact .found inferInstance inferInstance inferInstance

instance obeys_addDocumentation (doc : Option String) : Obeys R (addDocumentation n doc) := by
  unfold addDocumentation
  cases doc.bind DocComment.clean <;> dsimp only <;> infer_instance

instance obeys_buildResidence (resident container : NodeId) :
    Obeys R (buildResidence resident container) := by
  have (n : NodeId) : Obeys R (modify (·.modify n
      ({ · with resident := some resident, container := some container })) : GraphM Unit) :=
    obeys_modifyNode fun _ => ⟨rfl, rfl, List.Subset.refl _⟩
  unfold buildResidence get
  infer_instance

instance obeys_resolve (registry : StereotypeRegistry) (name : String) (base : Option String) :
    Obeys R (registry.resolve name base) := by
  unfold StereotypeRegistry.resolve
  refine .bind obeys_get fun g => ?_
  cases (registry.remembered? name base).filter g.isLive with
  | some st => exact obeys_pure _
  | none =>
    refine .found inferInstance ?_ inferInstance
    cases base <;> dsimp only <;> infer_instance

instance obeys_setMultiplicity (m : Option String) : Obeys R (setMultiplicity n m) :=
  obeys_update fun _ => ⟨rfl, rfl, List.Subset.refl _⟩

instance obeys_setInitialValue (v : Option String) : Obeys R (setInitialValue n v) :=
  obeys_update fun _ => ⟨rfl, rfl, List.Subset.refl _⟩

instance obeys_setReadOnly (b : Bool) : Obeys R (setReadOnly n b) :=
  obeys_update fun _ => ⟨rfl, rfl, List.Subset.refl _⟩

instance obeys_setNavigable (b : Bool) : Obeys R (setNavigable n b) :=
  obeys_update fun _ => ⟨rfl, rfl, List.Subset.refl _⟩

instance obeys_setType (type : Option NodeId) : Obeys R (setType n type) := by
  have : Obeys R (update n ({ · with type })) :=
    obeys_update fun _ => ⟨rfl, rfl, List.Subset.refl _⟩
  unfold setType get
  cases type <;> dsimp only <;> infer_instance

end tolerates

/-! What adds features and edges -/

section accepts

-- the instance for a program is as long as the program
set_option synthInstance.maxSize 4096

variable [hR : Accepts R]

instance accepts_add (kind : NodeKind) (name : Option String) : Obeys R (add kind name) :=
  ⟨fun g => hR.add_any g _⟩

instance accepts_create (kind : NodeKind) (name : Option String) (home : Option NodeId) :
    Obeys R (create kind name home) := by
  unfold create
  infer_instance

instance obeys_buildGeneralization (child parent : NodeId) :
    Obeys R (buildGeneralization child parent) := by
  have (n : NodeId) : Obeys R (modify (·.modify n
      ({ · with specific := some child, general := some parent })) : GraphM Unit) :=
    obeys_modifyNode fun _ => ⟨rfl, rfl, List.Subset.refl _⟩
  unfold buildGeneralization get
  infer_instance

instance obeys_buildDependency (client supplier : NodeId) (kind : NodeKind)
    (name : Option String) : Obeys R (buildDependency client supplier kind name) := by
  have (n : NodeId) : Obeys R (modify (·.modify n fun r =>
      { r with clients := r.clients ++ [client], suppliers := r.suppliers ++ [supplier] }) :
      GraphM Unit) :=
    obeys_modifyNode fun _ => ⟨rfl, rfl, List.Subset.refl _⟩
  unfold buildDependency get
  infer_instance

instance obeys_buildEnd (association type : NodeId) (isNavigable : Bool) :
    Obeys R (buildEnd association type isNavigable) := by
  have (n : NodeId) : Obeys R (modify (·.modify n
      ({ · with association := some association, isNavigable })) : GraphM Unit) :=
    obeys_modifyNode fun _ => ⟨rfl, rfl, List.Subset.refl _⟩
  unfold buildEnd
  infer_instance

instance obeys_buildAssociation (target source : NodeId) (b b' : Bool) (name : Option String) :
    Obeys R (buildAssociation target b source b' name) := by
  unfold buildAssociation
  infer_instance

instance obeys_buildOperation (name : Option String) : Obeys R (buildOperation n name) :=
  accepts_create ..

instance obeys_buildAttribute (type : Option NodeId) (name : Option String) :
    Obeys R (buildAttribute n type name) := by
  unfold buildAttribute
  infer_instance

instance obeys_buildParameter (type : Option NodeId) (name : Option String) (d : Direction) :
    Obeys R (buildParameter n type name d) := by
  have (p : NodeId) : Obeys R (update p ({ · with direction := some d })) :=
    obeys_update fun _ => ⟨rfl, rfl, List.Subset.refl _⟩
  unfold buildParameter
  infer_instance

end accepts

/-! What takes elements away or puts others in their place -/

instance lays_delete : Obeys Lays (delete n) := by
  unfold delete get
  exact .bind inferInstance fun _ => obeys_modify fun g => lays_remove g _

instance lays_removeTaggedValues (tag : String) : Obeys Lays (removeTaggedValues n tag) := by
  unfold removeTaggedValues get
  infer_instance

instance lays_removeClientDependency (client dep : NodeId) :
    Obeys Lays (removeClientDependency client dep) := by
  have : Obeys Lays (update dep fun r => { r with clients := r.clients.erase client }) :=
    obeys_update fun _ => ⟨rfl, rfl, List.Subset.refl _⟩
  unfold removeClientDependency get
  infer_instance

instance lays_removeParameter (op p : NodeId) : Obeys Lays (removeParameter op p) := by
  unfold removeParameter get
  infer_instance

instance lays_replaceReferences (old new : NodeId) : Obeys Lays (replaceReferences old new) := by
  have : Obeys Lays (modify (·.mapNodes fun n r => if n = old then r else r.redirect old new) :
      GraphM Unit) := by
    refine obeys_modify fun g => lays_mapNodes g fun n r => ?_
    split_ifs <;> exact ⟨rfl, rfl⟩
  unfold replaceReferences get
  exact .bind inferInstance fun r => .bind inferInstance fun _ => .bind this fun _ => inferInstance

end GraphM

end DeclGraph
