import DeclGraph.Proofs.Graph.Groundwork
import DeclGraph.Proofs.Graph.Soundness

/-! Which elements come to a graph by its operations. Those that a session keeps account of come one
at a time, as the answer of the operation that makes them. -/

namespace DeclGraph

open DeclGraph.Graph

/-- The kinds of elements that a session keeps account of when they are new. -/
def NodeKind.isRegistered : NodeKind → Bool
  | .package | .component | .classType | .interfaceType | .operation | .attr | .association
  | .generalization | .abstraction | .dependency | .stereotype => true
  | .model | .dataType | .parameter | .associationEnd | .elementResidence | .taggedValue => false

/-- The kinds of elements that come along with others. -/
class NodeKind.Minor (kind : NodeKind) : Prop where
  not_isRegistered : kind.isRegistered = false

instance : NodeKind.Minor .parameter := ⟨rfl⟩

instance : NodeKind.Minor .associationEnd := ⟨rfl⟩

instance : NodeKind.Minor .elementResidence := ⟨rfl⟩

instance : NodeKind.Minor .taggedValue := ⟨rfl⟩

namespace Graph

/-- The elements of `g'` are those of `g`, some of `ns`, which are new, and minor ones. -/
structure Brings (ns : List NodeId) (g g' : Graph) : Prop where
  next : g.next ≤ g'.next
  new : ∀ n ∈ ns, g.next ≤ n
  kind : ∀ {n k}, g'.kind? n = some k → g.kind? n = some k ∨
    g.next ≤ n ∧ (n ∈ ns ∨ k.isRegistered = false)

variable {g g' g'' : Graph} {ns : List NodeId} {n : NodeId} {r : Node}

lemma Brings.trans (h : Brings ns g g') (h' : Brings [] g' g'') : Brings ns g g'' := by
  refine ⟨h.next.trans h'.next, h.new, ?_⟩
  intro n k hk
  rcases h'.kind hk with hk | ⟨hn, hin | hminor⟩
  · exact h.kind hk
  · exact absurd hin List.not_mem_nil
  · exact Or.inr ⟨h.next.trans hn, Or.inr hminor⟩

lemma Brings.after (h : Brings [] g g') (h' : Brings ns g' g'') : Brings ns g g'' := by
  refine ⟨h.next.trans h'.next, fun n hn => h.next.trans (h'.new n hn), ?_⟩
  intro n k hk
  rcases h'.kind hk with hk | ⟨hn, hk⟩
  · exact (h.kind hk).imp_right fun ⟨hn, hk⟩ => ⟨hn, Or.inr (hk.resolve_left List.not_mem_nil)⟩
  · exact Or.inr ⟨h.next.trans hn, hk⟩

instance : IsPreorder Graph (Brings []) where
  refl _ := ⟨le_rfl, nofun, Or.inl⟩
  trans _ _ _ h h' := h.trans h'

lemma Brings.of_kind (hnext : g'.next = g.next) (h : ∀ {n k}, g'.kind? n = some k → g.kind? n = some k) :
    Brings [] g g' := ⟨hnext.ge, nofun, fun hk => Or.inl (h hk)⟩

/-- No element comes back. -/
lemma Brings.ages (h : Brings ns g g') : g.Ages g' := by
  refine ⟨h.next, ?_⟩
  intro n hn hlive
  obtain ⟨r, hr⟩ := isLive_iff.mp hlive
  rcases h.kind (kind?_eq hr) with hk | ⟨hge, -⟩
  · exact isLive_of_kind? hk
  · exact absurd hn (not_lt.mpr hge)

lemma brings_add (g : Graph) (r : Node) : Brings [g.next] g (g.add r).2 := by
  refine ⟨?_, ?_, ?_⟩
  · rw [next_add]
    exact Int.le_add_one le_rfl
  · intro n hn
    exact (List.mem_singleton.mp hn).ge
  · intro n k hk
    rw [kind?, node?_add] at hk
    split_ifs at hk with hn
    · exact Or.inr ⟨hn.ge, Or.inl (List.mem_singleton.mpr hn)⟩
    · exact Or.inl hk

lemma brings_add_minor (g : Graph) (hr : r.kind.isRegistered = false) : Brings [] g (g.add r).2 := by
  refine ⟨(brings_add g r).next, nofun, ?_⟩
  intro n k hk
  rw [kind?, node?_add] at hk
  split_ifs at hk with hn
  · obtain rfl := Option.some.inj hk
    exact Or.inr ⟨hn.ge, Or.inr hr⟩
  · exact Or.inl hk

lemma brings_modify (g : Graph) {f : Node → Node} (hf : ∀ r : Node, (f r).kind = r.kind) :
    Brings [] g (g.modify n f) := by
  apply Brings.of_kind (next_modify n f)
  intro m k hk
  rw [kind?, node?_modify] at hk
  split_ifs at hk
  · rwa [Option.map_map, show (fun r : Node => r.kind) ∘ f = fun r => r.kind from funext hf] at hk
  · exact hk

lemma brings_remove (g : Graph) (doomed : List NodeId) : Brings [] g (g.remove doomed) := by
  apply Brings.of_kind (next_remove doomed)
  intro m k hk
  obtain ⟨r, hr, rfl⟩ := kind?_eq_some.mp hk
  obtain ⟨-, x, hx, rfl⟩ := node?_remove_eq_some.mp hr
  exact kind?_eq_some.mpr ⟨x, hx, rfl⟩

lemma brings_mapNodes (g : Graph) {f : NodeId → Node → Node}
    (hf : ∀ n r, (f n r).kind = r.kind) : Brings [] g (g.mapNodes f) := by
  apply Brings.of_kind (next_mapNodes f)
  intro m k hk
  obtain ⟨r, hr, rfl⟩ := kind?_eq_some.mp hk
  rw [node?_mapNodes] at hr
  obtain ⟨x, hx, rfl⟩ := Option.map_eq_some_iff.mp hr
  exact kind?_eq_some.mpr ⟨x, hx, (hf m x).symm⟩

end Graph

namespace GraphM

variable {α : Type} {n : NodeId} {x : GraphM NodeId}

/-- An operation makes the element that it answers, and besides minor ones only. -/
class Makes (x : GraphM NodeId) : Prop where
  ends : ∀ g, Ends (x g) (fun n g' => Brings [n] g g') fun _ => True

/-- An operation answers `n` and makes minor elements only. -/
class Returns (n : NodeId) (x : GraphM NodeId) : Prop where
  ends : ∀ g, Ends (x g) (fun m g' => m = n ∧ Brings [] g g') fun _ => True

instance returns_pure (n : NodeId) : Returns n (pure n : GraphM NodeId) :=
  ⟨fun g => ⟨rfl, refl_of (Brings []) g⟩⟩

instance returns_bind {y : GraphM α} {f : α → GraphM NodeId} [hy : Obeys (Brings []) y]
    [hf : ∀ a, Returns n (f a)] : Returns n (y >>= f) := by
  constructor
  intro g
  apply ((hy.ends g).mono (fun _ _ h => h) fun _ _ => trivial).bind
  intro a g' hg
  exact ((hf a).ends g').imp fun _ _ h => ⟨h.1, hg.trans h.2⟩

instance returns_ite {p : Prop} [Decidable p] {y : GraphM NodeId} [hx : Returns n x]
    [hy : Returns n y] : Returns n (if p then x else y) := by
  split_ifs
  exacts [hx, hy]

instance makes_bind {f : NodeId → GraphM NodeId} [hx : Makes x] [hf : ∀ n, Returns n (f n)] :
    Makes (x >>= f) := by
  constructor
  intro g
  apply (hx.ends g).bind
  intro n g' hg
  apply ((hf n).ends g').imp
  rintro _ g'' ⟨rfl, hg'⟩
  exact hg.trans hg'

instance makes_after {y : GraphM α} {f : α → GraphM NodeId} [hy : Obeys (Brings []) y]
    [hf : ∀ a, Makes (f a)] : Makes (y >>= f) := by
  constructor
  intro g
  apply ((hy.ends g).mono (fun _ _ h => h) fun _ _ => trivial).bind
  intro a g' hg
  exact ((hf a).ends g').imp fun _ _ h => hg.after h

instance makes_throw (e : GraphFault) : Makes (throw e : GraphM NodeId) := ⟨fun _ => trivial⟩

instance makes_ite {p : Prop} [Decidable p] {y : GraphM NodeId} [hx : Makes x] [hy : Makes y] :
    Makes (if p then x else y) := by
  split_ifs
  exacts [hx, hy]

/-! What makes no element that a session keeps account of -/

lemma brings_modifyNode {f : Node → Node} (hf : ∀ r : Node, (f r).kind = r.kind) :
    Obeys (Brings []) (modify (·.modify n f) : GraphM Unit) :=
  obeys_modify fun g => brings_modify g hf

lemma brings_update {f : Node → Node} (hf : ∀ r : Node, (f r).kind = r.kind) :
    Obeys (Brings []) (update n f) := by
  unfold update get
  exact .bind inferInstance fun _ => brings_modifyNode hf

instance brings_get (n : NodeId) : Obeys (Brings []) (get n) := obeys_query _

instance brings_addMinor (kind : NodeKind) [hk : kind.Minor] (name : Option String) :
    Obeys (Brings []) (add kind name) :=
  ⟨fun g => brings_add_minor g hk.not_isRegistered⟩

instance makes_add (kind : NodeKind) (name : Option String) : Makes (add kind name) :=
  ⟨fun g => brings_add g _⟩

instance brings_setNamespace (n : NodeId) (home : Option NodeId) :
    Obeys (Brings []) (setNamespace n home) := by
  have hattach (owner : NodeId) (slot : Slot) : Obeys (Brings []) (update owner (·.attach slot n)) :=
    brings_update fun r => (Node.bare_congr (Node.bare_attach r slot n)).1
  have hdetach (owner : NodeId) (slot : Slot) :
      Obeys (Brings []) (modify (·.modify owner (·.detach slot n)) : GraphM Unit) :=
    brings_modifyNode fun r => (Node.bare_congr (Node.bare_detach r slot n)).1
  have howner : Obeys (Brings []) (modify (·.modify n ({ · with owner := home })) : GraphM Unit) :=
    brings_modifyNode fun _ => rfl
  unfold setNamespace
  apply (brings_get n).bind
  intro r
  cases r.owner <;> cases home <;> dsimp only <;> infer_instance

instance brings_createMinor (kind : NodeKind) [kind.Minor] (name : Option String)
    (home : Option NodeId) : Obeys (Brings []) (create kind name home) := by
  unfold create
  infer_instance

instance makes_create (kind : NodeKind) (name : Option String) (home : Option NodeId) :
    Makes (create kind name home) := by
  unfold create
  infer_instance

instance brings_setName (name : Option String) : Obeys (Brings []) (setName n name) :=
  brings_update fun _ => rfl

instance brings_setVisibility (v : Visibility) : Obeys (Brings []) (setVisibility n v) :=
  brings_update fun _ => rfl

instance brings_setMultiplicity (m : Option String) : Obeys (Brings []) (setMultiplicity n m) :=
  brings_update fun _ => rfl

instance brings_setInitialValue (v : Option String) : Obeys (Brings []) (setInitialValue n v) :=
  brings_update fun _ => rfl

instance brings_setAbstract (b : Bool) : Obeys (Brings []) (setAbstract n b) :=
  brings_update fun _ => rfl

instance brings_setLeaf (b : Bool) : Obeys (Brings []) (setLeaf n b) :=
  brings_update fun _ => rfl

instance brings_setRoot (b : Bool) : Obeys (Brings []) (setRoot n b) :=
  brings_update fun _ => rfl

instance brings_setReadOnly (b : Bool) : Obeys (Brings []) (setReadOnly n b) :=
  brings_update fun _ => rfl

instance brings_setNavigable (b : Bool) : Obeys (Brings []) (setNavigable n b) :=
  brings_update fun _ => rfl

instance brings_setType (type : Option NodeId) : Obeys (Brings []) (setType n type) := by
  have : Obeys (Brings []) (update n ({ · with type })) := brings_update fun _ => rfl
  unfold setType
  cases type <;> dsimp only <;> infer_instance

instance brings_addStereotype (st : NodeId) : Obeys (Brings []) (addStereotype n st) := by
  have : Obeys (Brings []) (update n fun r =>
      if st ∈ r.stereotypes then r else { r with stereotypes := r.stereotypes ++ [st] }) := by
    apply brings_update
    intro r
    split_ifs <;> rfl
  unfold addStereotype
  infer_instance

instance brings_addBaseClass (base : String) : Obeys (Brings []) (addBaseClass n base) := by
  apply brings_update
  intro r
  split_ifs <;> rfl

instance brings_setTaggedValue (tag value : String) :
    Obeys (Brings []) (setTaggedValue n tag value) := by
  have (tv : NodeId) :
      Obeys (Brings []) (modify (·.modify tv ({ · with value := some value })) : GraphM Unit) :=
    brings_modifyNode fun _ => rfl
  unfold setTaggedValue
  exact .found inferInstance inferInstance inferInstance

instance brings_addDocumentation (doc : Option String) :
    Obeys (Brings []) (addDocumentation n doc) := by
  unfold addDocumentation
  cases doc.bind DocComment.clean <;> dsimp only <;> infer_instance

instance brings_delete : Obeys (Brings []) (delete n) := by
  unfold delete
  exact (brings_get n).bind fun _ => obeys_modify fun g => brings_remove g _

instance brings_removeTaggedValues (tag : String) : Obeys (Brings []) (removeTaggedValues n tag) := by
  unfold removeTaggedValues
  infer_instance

instance brings_replaceReferences (old new : NodeId) :
    Obeys (Brings []) (replaceReferences old new) := by
  have hturn : Obeys (Brings [])
      (modify (·.mapNodes fun n r => if n = old then r else r.redirect old new) : GraphM Unit) := by
    apply obeys_modify
    intro g
    apply brings_mapNodes
    intro n r
    split_ifs <;> rfl
  unfold replaceReferences
  exact (brings_get old).bind fun r => (brings_get new).bind fun _ => hturn.bind fun _ => inferInstance

instance brings_removeParameter (parameter : NodeId) :
    Obeys (Brings []) (removeParameter n parameter) := by
  unfold removeParameter
  infer_instance

instance brings_removeClientDependency (client : NodeId) :
    Obeys (Brings []) (removeClientDependency client n) := by
  have : Obeys (Brings []) (update n fun r => { r with clients := r.clients.erase client }) :=
    brings_update fun _ => rfl
  unfold removeClientDependency
  infer_instance

instance brings_buildParameter (type : Option NodeId) (name : Option String)
    (direction : Direction) : Obeys (Brings []) (buildParameter n type name direction) := by
  have (m : NodeId) : Obeys (Brings []) (update m ({ · with direction := some direction })) :=
    brings_update fun _ => rfl
  unfold buildParameter
  infer_instance

instance brings_buildEnd (type : NodeId) (isNavigable : Bool) :
    Obeys (Brings []) (buildEnd n type isNavigable) := by
  have (m : NodeId) : Obeys (Brings []) (modify (·.modify m
      ({ · with association := some n, isNavigable })) : GraphM Unit) :=
    brings_modifyNode fun _ => rfl
  unfold buildEnd
  infer_instance

instance brings_buildResidence (resident container : NodeId) :
    Obeys (Brings []) (buildResidence resident container) := by
  have (m : NodeId) : Obeys (Brings []) (modify (·.modify m
      ({ · with resident := some resident, container := some container })) : GraphM Unit) :=
    brings_modifyNode fun _ => rfl
  unfold buildResidence
  infer_instance

/-! Builders -/

instance makes_buildOperation (name : Option String) : Makes (buildOperation n name) := by
  unfold buildOperation
  infer_instance

instance makes_buildAttribute (type : Option NodeId) (name : Option String) :
    Makes (buildAttribute n type name) := by
  unfold buildAttribute
  infer_instance

instance makes_buildGeneralization (child parent : NodeId) :
    Makes (buildGeneralization child parent) := by
  have (m : NodeId) : Obeys (Brings []) (modify (·.modify m
      ({ · with specific := some child, general := some parent })) : GraphM Unit) :=
    brings_modifyNode fun _ => rfl
  unfold buildGeneralization
  infer_instance

instance makes_buildDependency (client supplier : NodeId) (kind : NodeKind)
    (name : Option String) : Makes (buildDependency client supplier kind name) := by
  have (m : NodeId) : Obeys (Brings []) (modify (·.modify m fun r =>
      { r with clients := r.clients ++ [client], suppliers := r.suppliers ++ [supplier] }) :
      GraphM Unit) :=
    brings_modifyNode fun _ => rfl
  unfold buildDependency
  infer_instance

instance makes_buildAssociation (target source : NodeId) (nt ns : Bool) (name : Option String) :
    Makes (buildAssociation target nt source ns name) := by
  unfold buildAssociation
  infer_instance

end GraphM

end DeclGraph
