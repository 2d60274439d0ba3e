import DeclGraph.Proofs.Graph.Atomicity
import DeclGraph.Proofs.Import.Registry
import DeclGraph.Proofs.Import.Traits

/-! Programs that add to the groundwork of a model and say nothing about what is there: resolving
names, looking for stereotypes and writing documentation. -/

namespace DeclGraph

open DeclGraph.Graph

instance (mode : ResolveMode) : Fact ((if mode = .interfaceOnly then NodeKind.interfaceType
    else .classType) ∈ NodeKind.groundwork) :=
  ⟨by cases mode <;> decide⟩

namespace Graph

variable {g g' : Graph} {n : NodeId} {r : Node} {f : Node → Node}

/-- What may become of a graph when its groundwork is added to and nothing is said about elements
that are there. -/
class Adding (R : Graph → Graph → Prop) : Prop extends IsPreorder Graph R where
  create : ∀ {kind : NodeKind}, kind ∈ NodeKind.groundwork → ∀ (name : Option String)
    (home : Option NodeId), Obeys R (GraphM.create kind name home)
  modify : ∀ (g : Graph) (n : NodeId) {f : Node → Node},
    (∀ r : Node, r.SameFace (f r) ∧ (f r).owned = r.owned) → R g (g.modify n f)

instance {R : Graph → Graph → Prop} [Tolerates R] : Adding R where
  create hk name home :=
    have : Fact _ := ⟨hk⟩
    GraphM.obeys_create name home
  modify g n f hf := by
    refine Tolerates.modify g n fun r => ⟨(hf r).1.kind, (hf r).1.name, fun st hst => ?_⟩
    have hsame : (f r).stereotypes.toFinset = r.stereotypes.toFinset :=
      congrArg Traits.stereotypes (hf r).1.traits
    rw [← List.mem_toFinset, hsame, List.mem_toFinset]
    exact hst

lemma Added.keepsFaces (h : g.Added r g') (hk : r.kind.slot ≠ .parameters) : g.KeepsFaces g' := by
  refine ⟨fun {n x} hx => ⟨_, ?_, x.sameFace_attached r.owner n hk g.next⟩⟩
  rw [h.node, if_neg (ne_next (isLive_of_node? hx)), hx]
  rfl

instance : Adding KeepsFaces where
  create {kind} hk name home := by
    have hslot : kind.slot ≠ .parameters := by
      revert hk
      cases kind <;> decide
    exact ⟨fun g => (GraphM.added_create g kind name home).keepsFaces hslot⟩
  modify g n f hf := by
    refine ⟨fun {m x} hx => ?_⟩
    rw [node?_modify, hx]
    split_ifs
    exacts [⟨f x, rfl, (hf x).1⟩, ⟨x, rfl, .refl x⟩]

end Graph

namespace GraphM

variable {R : Graph → Graph → Prop} {n : NodeId} {f : Node → Node}

section adding

variable [hR : Adding R]

lemma adding_modify (hf : ∀ r : Node, r.SameFace (f r) ∧ (f r).owned = r.owned) :
    Obeys R (modify (·.modify n f) : GraphM Unit) :=
  obeys_modify fun g => hR.modify g n hf

instance adding_create {kind : NodeKind} [hk : Fact (kind ∈ NodeKind.groundwork)]
    (name : Option String) (home : Option NodeId) : Obeys R (create kind name home) :=
  hR.create hk.out name home

instance adding_setTaggedValue (tag value : String) : Obeys R (setTaggedValue n tag value) := by
  have (tv : NodeId) :
      Obeys R (modify (·.modify tv ({ · with value := some value })) : GraphM Unit) :=
    adding_modify fun _ => ⟨⟨rfl, rfl, rfl, rfl, rfl⟩, rfl⟩
  unfold setTaggedValue
  exact .found inferInstance inferInstance inferInstance

instance adding_addDocumentation (doc : Option String) : Obeys R (addDocumentation n doc) := by
  unfold addDocumentation
  cases doc.bind DocComment.clean <;> dsimp only <;> infer_instance

instance adding_addBaseClass (base : String) : Obeys R (addBaseClass n base) := by
  unfold addBaseClass update get
  refine .bind inferInstance fun _ => adding_modify fun r => ?_
  split_ifs <;> exact ⟨⟨rfl, rfl, rfl, rfl, rfl⟩, rfl⟩

instance adding_resolve (registry : StereotypeRegistry) (name : String) (base : Option String) :
    Obeys R (registry.resolve name base) := by
  unfold StereotypeRegistry.resolve
  refine .bind obeys_get fun g => ?_
  cases (registry.remembered? name base).filter g.isLive with
  | some st => exact obeys_pure _
  | none =>
    refine .found inferInstance ?_ inferInstance
    cases base <;> dsimp only <;> infer_instance

instance adding_buildResidence (resident container : NodeId) :
    Obeys R (buildResidence resident container) := by
  have hcreate : Obeys R (create .elementResidence none none) := hR.create (by decide) none none
  have hadd : Obeys R (add .elementResidence none) := hcreate
  have (n : NodeId) : Obeys R (modify (·.modify n
      ({ · with resident := some resident, container := some container })) : GraphM Unit) :=
    adding_modify fun _ => ⟨⟨rfl, rfl, rfl, rfl, rfl⟩, rfl⟩
  unfold buildResidence get
  infer_instance

end adding

end GraphM

namespace ImportM

variable {α : Type} {u : UnitContext}

section adding

variable {R : Graph → Graph → Prop} [hR : Adding R]

instance adding_query (f : Graph → Except GraphFault α) :
    Obeys (UnitState.Relates R) (query f) := by
  refine ⟨fun s => ?_⟩
  unfold query
  cases f s.graph <;> exact refl_of (UnitState.Relates R) s

instance adding_change {m : GraphM α} [hm : Obeys R m] :
    Obeys (UnitState.Relates R) (change m) :=
  obeys_change hm fun _ _ hg => hg

instance adding_emit (e : Event) : Obeys (UnitState.Relates R) (emit e) :=
  obeys_modify fun s => refl_of R s.graph

instance adding_register (n : NodeId) : Obeys (UnitState.Relates R) (register n) :=
  obeys_modify fun s => refl_of R s.graph

instance adding_modifyScopes (f : ScopeStack → ScopeStack) :
    Obeys (UnitState.Relates R) (modifyScopes f) :=
  obeys_modify fun s => refl_of R s.graph

instance adding_warn (code message : String) :
    Obeys (UnitState.Relates R) (warn u code message) :=
  .bind (obeys_modify fun s => refl_of R s.graph) fun _ => adding_emit _

instance adding_stereotype (name : String) (base : Option String) :
    Obeys (UnitState.Relates R) (stereotype name base) := by
  refine ⟨fun s => show R s.graph _ from ?_⟩
  have hresolve : Obeys R (s.registry.resolve name base) := inferInstance
  rw [(final_stereotype name base s).1]
  exact hresolve.final s.graph

instance adding_packageBelow (n : NodeId) (segments : List String) :
    Obeys (UnitState.Relates R) (packageBelow n segments) := by
  induction segments generalizing n with
  | nil => exact obeys_pure n
  | cons segment rest ih =>
    unfold packageBelow
    exact .found inferInstance inferInstance inferInstance

instance adding_getPackage (name : String) : Obeys (UnitState.Relates R) (getPackage name) :=
  adding_packageBelow ..

instance adding_contextFor (name : String) : Obeys (UnitState.Relates R) (contextFor name) := by
  have : Obeys (UnitState.Relates R) scopeNamespaces := by
    unfold scopeNamespaces
    infer_instance
  unfold contextFor
  split <;> infer_instance

instance adding_forceCreate (simple : String) (mode : ResolveMode) (package : Option NodeId)
    (context : String) : Obeys (UnitState.Relates R) (forceCreate simple mode package context) := by
  unfold forceCreate
  infer_instance

/-- Whatever a name is and whatever comes of it, resolving it adds elements at most. -/
instance adding_resolveWith (policy : UnresolvedPolicy) (name : String) (mode : ResolveMode)
    (context : String) : Obeys (UnitState.Relates R) (resolveWith u policy name mode context) := by
  unfold resolveWith
  refine .bind inferInstance fun ⟨chain, simple, package⟩ => ?_
  refine .found inferInstance ?_ inferInstance
  cases policy <;> infer_instance

instance adding_resolveName (name : String) (mode : ResolveMode) (context : String) :
    Obeys (UnitState.Relates R) (resolve u name mode context) :=
  adding_resolveWith ..

end adding

end ImportM

end DeclGraph
