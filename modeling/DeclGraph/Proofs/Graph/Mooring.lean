import DeclGraph.Proofs.Graph.Groundwork
import DeclGraph.Proofs.Graph.Step
import DeclGraph.Proofs.Graph.Refusal
import DeclGraph.Proofs.Invariance

/-! What becomes of calls with handles that name nothing, whether the elements are gone or have never
been there. As long as the ends of associations are left in them, a call answers or is refused,
whatever calls came before it and whether these failed or not. An end that has been moved out of its
association outlives it, and then leads to a record that is missing. -/

namespace DeclGraph

open DeclGraph.Graph

namespace Node

/-- Another record of the same kind with the same owner, association and parts. -/
structure SameTies (r r' : Node) : Prop where
  kind : r'.kind = r.kind
  owner : r'.owner = r.owner
  association : r'.association = r.association
  children : ∀ s, r'.children s = r.children s

/-- A record with nothing but its kind, its owner, its association and its parts. -/
def ties (r : Node) : Node :=
  { kind := r.kind, name := none, owner := r.owner, association := r.association, owned := r.owned,
    features := r.features, parameters := r.parameters, connections := r.connections,
    taggedValues := r.taggedValues }

lemma SameTies.of_ties {r r' : Node} (h : r'.ties = r.ties) : r.SameTies r' := by
  refine ⟨congrArg (·.kind) h, congrArg (·.owner) h, congrArg (·.association) h, fun s => ?_⟩
  cases s
  exacts [congrArg (·.owned) h, congrArg (·.features) h, congrArg (·.parameters) h,
    congrArg (·.connections) h, congrArg (·.taggedValues) h]

end Node

namespace Graph

variable {g g' : Graph} {n m e a : NodeId} {r : Node} {home : Option NodeId}

/-- An end has an association, which has it among its connections if it owns it. -/
def Tied (g : Graph) : Prop :=
  ∀ ⦃e r a⦄, g.node? e = some r → r.association = some a → r.kind = .associationEnd ∧
    ∃ ra, g.node? a = some ra ∧ ra.kind = .association ∧ (r.owner = some a → e ∈ ra.connections)

/-- Every end is in its association. -/
structure Moored (g : Graph) : Prop where
  tied : g.Tied
  endsAtHome : g.EndsAtHome

/-- The elements are the same, with their kinds and associations, and the lists of those that are
moved are still right. -/
structure Shifts (g g' : Graph) : Prop where
  tied : g.Tied → g'.Tied
  back : ∀ {m x'}, g'.node? m = some x' →
    ∃ x, g.node? m = some x ∧ x'.kind = x.kind ∧ x'.association = x.association
  live : ∀ {m}, g.isLive m = true → g'.isLive m = true

instance : IsPreorder Graph Shifts where
  refl _ := ⟨id, fun hx => ⟨_, hx, rfl, rfl⟩, id⟩
  trans _ _ _ h h' := by
    refine ⟨h'.tied ∘ h.tied, fun hx => ?_, h'.live ∘ h.live⟩
    obtain ⟨y, hy, hk, ha⟩ := h'.back hx
    obtain ⟨z, hz, hk', ha'⟩ := h.back hy
    exact ⟨z, hz, hk.trans hk', ha.trans ha'⟩

namespace Shifts

lemma kind? (h : g.Shifts g') {k : NodeKind} (hm : g.kind? m = some k) : g'.kind? m = some k := by
  obtain ⟨x', hx'⟩ := isLive_iff.mp (h.live (isLive_of_kind? hm))
  obtain ⟨x, hx, hk, -⟩ := h.back hx'
  rw [kind?_eq hx', hk, ← kind?_eq hx, hm]

/-- Ends that stay where they were are still in their associations. -/
lemma moored (h : g.Shifts g') (hg : g.Moored) (hkeep : g.KeepsEnds g') : g'.Moored := by
  refine ⟨h.tied hg.tied, fun {e r' a} hr' ha => ?_⟩
  obtain ⟨r, hr, -, hra⟩ := h.back hr'
  exact hkeep e (mem_handles.mpr (isLive_of_node? hr)) r hr r' hr' a (hra.symm.trans ha)

end Shifts

/-! Changes of records -/

lemma shifts_map {F : NodeId → Node → Node} (hg' : ∀ m, g'.node? m = (g.node? m).map (F m))
    (hF : ∀ m (x : Node), x.SameTies (F m x)) : g.Shifts g' := by
  refine ⟨fun h e x' a hx' ha => ?_, fun {m x'} hx' => ?_, fun {m} hm => isLive_congr hg' m ▸ hm⟩
  · rw [hg'] at hx'
    obtain ⟨x, hx, rfl⟩ := Option.map_eq_some_iff.mp hx'
    obtain ⟨hk, y, hy, hka, hin⟩ := h hx ((hF e x).association.symm.trans ha)
    refine ⟨(hF e x).kind.trans hk, F a y, by rw [hg', hy]; rfl, (hF a y).kind.trans hka, ?_⟩
    have hsame : (F a y).connections = y.connections := (hF a y).children .connections
    rw [hsame]
    exact fun ho => hin ((hF e x).owner.symm.trans ho)
  · rw [hg'] at hx'
    obtain ⟨x, hx, rfl⟩ := Option.map_eq_some_iff.mp hx'
    exact ⟨x, hx, (hF m x).kind, (hF m x).association⟩

lemma node?_modify_map (n : NodeId) (f : Node → Node) (m : NodeId) :
    (g.modify n f).node? m = (g.node? m).map fun x => if m = n then f x else x := by
  rw [node?_modify]
  split_ifs <;> simp

lemma shifts_modify {f : Node → Node} (hf : ∀ r : Node, r.SameTies (f r)) :
    g.Shifts (g.modify n f) :=
  shifts_map (node?_modify_map n f) fun m x => by
    split_ifs
    exacts [hf x, .of_ties rfl]

/-- An element that moves is in the list of its new owner; no other list loses anything else. -/
lemma Moved.shifts (hm : g.Moved n r home g') (hr : g.node? n = some r) : g.Shifts g' := by
  have hbare (m : NodeId) (x : Node) := Node.bare_congr (Node.bare_relocated n m r x home)
  have hback : ∀ {m x'}, g'.node? m = some x' →
      ∃ x, g.node? m = some x ∧ x' = Node.relocated n r home m x := by
    intro m x' hx'
    rw [hm.node] at hx'
    obtain ⟨x, hx, rfl⟩ := Option.map_eq_some_iff.mp hx'
    exact ⟨x, hx, rfl⟩
  refine ⟨fun h e x' a hx' ha => ?_, fun {m x'} hx' => ?_,
    fun {m} hl => isLive_congr hm.node m ▸ hl⟩
  swap
  · obtain ⟨x, hx, rfl⟩ := hback hx'
    exact ⟨x, hx, (hbare m x).1, (hbare m x).2.2.2.2.2.2.2.2.2.1⟩
  obtain ⟨x, hx, rfl⟩ := hback hx'
  obtain ⟨hk, y, hy, hka, hin⟩ := h hx ((hbare e x).2.2.2.2.2.2.2.2.2.1.symm.trans ha)
  refine ⟨(hbare e x).1.trans hk, Node.relocated n r home a y, by rw [hm.node, hy]; rfl,
    (hbare a y).1.trans hka, fun ho => ?_⟩
  rw [Node.owner_relocated] at ho
  change e ∈ (Node.relocated n r home a y).children .connections
  by_cases hen : e = n
  · subst hen
    obtain rfl := Option.some.inj (hr.symm.trans hx)
    have hslot : r.kind.slot = .connections := by rw [hk]; rfl
    rw [if_pos rfl] at ho
    rw [← hslot, Node.children_relocated_slot]
    dsimp only
    split_ifs <;> simp_all
  · rw [if_neg hen] at ho
    have hold : e ∈ y.children .connections := hin ho
    by_cases hslot : r.kind.slot = .connections
    · rw [← hslot] at hold ⊢
      rw [Node.children_relocated_slot]
      dsimp only
      split_ifs <;> simp_all [List.mem_erase_of_ne]
    · rwa [Node.children_relocated_of_ne _ _ _ _ _ (Ne.symm hslot)]

namespace Moored

lemma modify (h : g.Moored) {f : Node → Node} (hf : ∀ r : Node, r.SameTies (f r)) :
    (g.modify n f).Moored := by
  refine ⟨(shifts_modify hf).tied h.tied, fun {e x' a} hx' ha => ?_⟩
  rw [node?_modify_map] at hx'
  obtain ⟨x, hx, rfl⟩ := Option.map_eq_some_iff.mp hx'
  split_ifs at ha ⊢
  · exact (hf x).owner.trans (h.endsAtHome hx ((hf x).association.symm.trans ha))
  · exact h.endsAtHome hx ha

/-- What is no end may move. -/
lemma moved (h : g.Moored) (hr : g.node? n = some r) (ha : r.association = none)
    (hm : g.Moved n r home g') : g'.Moored := by
  refine ⟨(hm.shifts hr).tied h.tied, fun {e x' a} hx' hxa => ?_⟩
  rw [hm.node] at hx'
  obtain ⟨x, hx, rfl⟩ := Option.map_eq_some_iff.mp hx'
  have hbare := Node.bare_congr (Node.bare_relocated n e r x home)
  have hassoc : x.association = some a := hbare.2.2.2.2.2.2.2.2.2.1.symm.trans hxa
  rw [Node.owner_relocated]
  split_ifs with hen
  · subst hen
    obtain rfl := Option.some.inj (hr.symm.trans hx)
    simp [ha] at hassoc
  · exact h.endsAtHome hx hassoc

/-- A new element that is no end, or that is one and has been put into its association. -/
lemma built (h : g.Moored) (hb : g.Built r g') (hr : ∀ a, r.association = some a →
    r.kind = .associationEnd ∧ r.owner = some a ∧ g.kind? a = some .association) : g'.Moored := by
  have attached (a : NodeId) (y : Node) :
      (if r.owner = some a then y.attach r.kind.slot g.next else y).kind = y.kind ∧
      ∀ e ∈ y.connections,
        e ∈ (if r.owner = some a then y.attach r.kind.slot g.next else y).connections := by
    split_ifs
    · refine ⟨(Node.bare_congr (Node.bare_attach y r.kind.slot g.next)).1, fun e he => ?_⟩
      change e ∈ Node.children _ .connections
      rw [Node.children_attach]
      split_ifs with hs
      · exact List.mem_append_left _ (hs.1 ▸ he)
      · exact he
    · exact ⟨rfl, fun _ => id⟩
  have hold {e x'} (hx' : g'.node? e = some x') : (e = g.next ∧ x' = r) ∨
      ∃ x, g.node? e = some x ∧ x'.kind = x.kind ∧ x'.owner = x.owner ∧
        x'.association = x.association := by
    rcases hb.node_cases hx' with hnew | ⟨x, hx, rfl⟩
    · exact .inl hnew
    · refine .inr ⟨x, hx, ?_⟩
      split_ifs
      · have hbare := Node.bare_congr (Node.bare_attach x r.kind.slot g.next)
        exact ⟨hbare.1, Node.owner_attach .., hbare.2.2.2.2.2.2.2.2.2.1⟩
      · exact ⟨rfl, rfl, rfl⟩
  constructor
  · intro e x' a hx' ha
    rcases hold hx' with ⟨rfl, rfl⟩ | ⟨x, hx, hk, ho, hxa⟩
    · obtain ⟨hk, ho, hassoc⟩ := hr a ha
      obtain ⟨y, hy, hka⟩ := kind?_eq_some.mp hassoc
      refine ⟨hk, _, hb.old_node hy, (attached a y).1.trans hka, fun _ => ?_⟩
      change g.next ∈ Node.children _ .connections
      rw [if_pos ho, hk, Node.children_attach]
      change g.next ∈ if Slot.connections = Slot.connections ∧ g.next ∉ y.children .connections
        then y.children .connections ++ [g.next] else y.children .connections
      split_ifs with hin
      · simp
      · simpa using hin
    · obtain ⟨hkx, y, hy, hka, hin⟩ := h.tied hx (hxa.symm.trans ha)
      exact ⟨hk.trans hkx, _, hb.old_node hy, (attached a y).1.trans hka,
        fun hoa => (attached a y).2 e (hin (ho.symm.trans hoa))⟩
  · intro e x' a hx' ha
    rcases hold hx' with ⟨rfl, rfl⟩ | ⟨x, hx, hk, ho, hxa⟩
    · exact (hr a ha).2.1
    · exact ho.trans (h.endsAtHome hx (hxa.symm.trans ha))

lemma add (h : g.Moored) (kind : NodeKind) (name : Option String) :
    (g.add { kind, name }).2.Moored := by
  refine h.built (r := { kind, name }) ⟨next_add _, fun m => ?_⟩ (by simp)
  rw [node?_add]
  simp

/-- Ends go with their associations. -/
lemma delete (h : g.Moored) : (g.remove (g.doomedWith n)).Moored := by
  constructor
  · intro e x' a hx' ha
    obtain ⟨he, x, hx, rfl⟩ := node?_remove_eq_some.mp hx'
    have ha : x.association = some a := ha
    obtain ⟨hk, y, hy, hka, hin⟩ := h.tied hx ha
    have hin := hin (h.endsAtHome hx ha)
    have hpart : e ∈ g.partsOf a :=
      mem_partsOf.mpr ⟨y, hy, mem_dependentParts.mpr (.inl (Node.mem_parts.mpr ⟨.connections, hin⟩))⟩
    have hstays : a ∉ g.doomedWith n := fun hd =>
      he (withParts_doomedWith a hd e hpart (isLive_of_node? hx))
    refine ⟨hk, y.forget _, node?_remove_eq_some.mpr ⟨hstays, y, hy, rfl⟩, hka, fun _ => ?_⟩
    exact List.mem_filter.mpr ⟨hin, decide_eq_true he⟩
  · intro e x' a hx' ha
    obtain ⟨-, x, hx, rfl⟩ := node?_remove_eq_some.mp hx'
    have ho : x.owner = some a := h.endsAtHome hx ha
    exact ho

/-- The other end of an association can be looked for. -/
lemma refuses_nextEnd? (h : g.Moored) : Refuses g (g.nextEnd? n) := by
  refine .bind_ok inferInstance fun r hr => ?_
  cases ha : r.association with
  | none => exact refuses_ok none
  | some a =>
    obtain ⟨-, ra, hra, -, -⟩ := h.tied (get_eq_ok.mp hr) ha
    simp only [follow_of_node? hra, except_ok_bind]
    exact refuses_ok _

end Moored

lemma moored_new (name : String) (profile : Profile) : (new name profile).Moored :=
  ⟨fun _ _ _ hr ha => by simp [(plain_new hr).1] at ha, (coherent_new name profile).endsAtHome⟩

end Graph

-- the instance for a program is as long as the program
set_option synthInstance.maxSize 4096

namespace GraphM

variable {g : Graph} {n : NodeId} {α : Type} {f : Node → Node} {x : GraphM α}

/-! Moves -/

lemma shifts_update (hf : ∀ r : Node, (f r).ties = r.ties) : Obeys Shifts (update n f) := by
  unfold update
  exact .bind (obeys_query _) fun _ => obeys_modify fun _ => shifts_modify fun r => .of_ties (hf r)

instance shifts_setType (type : Option NodeId) : Obeys Shifts (setType n type) := by
  have : Obeys Shifts (update n ({ · with type })) := shifts_update fun _ => rfl
  have (m : NodeId) : Obeys Shifts (get m) := obeys_query _
  unfold setType
  cases type <;> dsimp only <;> infer_instance

instance shifts_addStereotype (st : NodeId) : Obeys Shifts (addStereotype n st) := by
  have : Obeys Shifts (update n fun r => if st ∈ r.stereotypes then r
      else { r with stereotypes := r.stereotypes ++ [st] }) :=
    shifts_update fun r => by split_ifs <;> rfl
  have (m : NodeId) : Obeys Shifts (get m) := obeys_query _
  unfold addStereotype
  infer_instance

instance shifts_setNamespace (home : Option NodeId) : Obeys Shifts (setNamespace n home) := by
  refine ⟨fun g => ?_⟩
  cases hr : g.node? n with
  | some r => exact (moved_setNamespace hr home).shifts hr
  | none =>
    rw [setNamespace_unknown hr]
    exact refl_of Shifts g

instance shifts_replaceReferences (old new : NodeId) : Obeys Shifts (replaceReferences old new) := by
  have (m : NodeId) : Obeys Shifts (get m) := obeys_query _
  have : Obeys Shifts (modify (·.mapNodes fun n r => if n = old then r else r.redirect old new) :
      GraphM Unit) :=
    obeys_modify fun _ => shifts_map (node?_mapNodes _) fun m r => by
      split_ifs
      exacts [.of_ties rfl, .of_ties rfl]
  unfold replaceReferences
  infer_instance

/-! Everything else -/

/-- Programs that leave every end in its association, or take it along. -/
abbrev Moors (x : GraphM α) : Prop := Maintains Graph.Moored x

lemma moors_modify (hf : ∀ r : Node, r.SameTies (f r)) :
    Moors (modify (·.modify n f) : GraphM Unit) :=
  obeys_modify fun _ hg => hg.modify hf

lemma moors_update (hf : ∀ r : Node, r.SameTies (f r)) : Moors (update n f) := by
  unfold update
  exact .bind (obeys_query _) fun _ => moors_modify hf

lemma moors_describe (hf : ∀ r : Node, (f r).ties = r.ties) : Moors (update n f) :=
  moors_update fun r => .of_ties (hf r)

instance moors_get : Moors (get n) := obeys_query _

instance moors_discard [h : Moors x] : Moors (discard x) :=
  ⟨fun g hg => final_discard x g ▸ h.final g hg⟩

/-- A new element is of its kind, and it is not in an association yet. -/
lemma ends_create_moored (hg : g.Moored) (kind : NodeKind) (name : Option String)
    (home : Option NodeId) :
    Ends (create kind name home g) (fun n t => t.Moored ∧ t.kind? n = some kind) Graph.Moored := by
  have hnew : (g.add { kind, name }).2.node? g.next = some { kind, name } := by
    rw [node?_add, if_pos rfl]
  have hadd := hg.add kind name
  refine Ends.bind_ok (t := (g.add { kind, name }).2) (a := g.next) rfl ?_
  cases home with
  | none => exact ⟨hadd, kind?_eq hnew⟩
  | some p =>
    have hm := moved_setNamespace hnew (some p)
    have hends := Ends.of_final (E := fun t : Graph => t.Moored ∧ t.kind? g.next = some kind)
      ⟨hadd.moved hnew rfl hm, (hm.shifts hnew).kind? (kind?_eq hnew)⟩
    exact Ends.bind (hends.mono (fun _ _ => id) fun _ => And.left) fun _ _ h => h

instance moors_add (kind : NodeKind) (name : Option String) : Moors (add kind name) :=
  ⟨fun _ hg => hg.add kind name⟩

instance moors_create (kind : NodeKind) (name : Option String) (home : Option NodeId) :
    Moors (create kind name home) :=
  maintains_of_ends fun _ hg => (ends_create_moored hg kind name home).imp fun _ _ => And.left

instance moors_delete : Moors (delete n) := by
  refine ⟨fun g hg => ?_⟩
  by_cases hn : g.isLive n = true
  · rw [delete_ok hn]
    exact hg.delete
  · rw [delete_unknown hn]
    exact hg

instance moors_set (field : PlainField) : Moors (field.set n) := by
  cases field <;> exact moors_describe fun _ => rfl

instance moors_setType (type : Option NodeId) : Moors (setType n type) := by
  have : Moors (update n ({ · with type })) := moors_describe fun _ => rfl
  unfold setType
  cases type <;> dsimp only <;> infer_instance

instance moors_addStereotype (st : NodeId) : Moors (addStereotype n st) := by
  have : Moors (update n fun r => if st ∈ r.stereotypes then r
      else { r with stereotypes := r.stereotypes ++ [st] }) :=
    moors_describe fun r => by split_ifs <;> rfl
  unfold addStereotype
  infer_instance

instance moors_addBaseClass (base : String) : Moors (addBaseClass n base) :=
  moors_describe fun r => by split_ifs <;> rfl

instance moors_setTaggedValue (tag value : String) : Moors (setTaggedValue n tag value) := by
  have (tv : NodeId) : Moors (modify (·.modify tv ({ · with value := some value })) : GraphM Unit) :=
    moors_modify fun _ => .of_ties rfl
  unfold setTaggedValue
  exact .bind (obeys_query _) fun found => found.casesOn inferInstance inferInstance

instance moors_removeTaggedValues (tag : String) : Moors (removeTaggedValues n tag) := by
  unfold removeTaggedValues
  infer_instance

instance moors_buildOperation (name : Option String) : Moors (buildOperation n name) :=
  moors_create ..

instance moors_buildAttribute (type : Option NodeId) (name : Option String) :
    Moors (buildAttribute n type name) := by
  unfold buildAttribute
  infer_instance

instance moors_buildParameter (type : Option NodeId) (name : Option String) (d : Direction) :
    Moors (buildParameter n type name d) := by
  have (p : NodeId) : Moors (update p ({ · with direction := some d })) :=
    moors_describe fun _ => rfl
  unfold buildParameter
  infer_instance

instance moors_removeParameter (op p : NodeId) : Moors (removeParameter op p) := by
  unfold removeParameter
  infer_instance

instance moors_buildGeneralization (child parent : NodeId) :
    Moors (buildGeneralization child parent) := by
  have (n : NodeId) : Moors (modify (·.modify n
      ({ · with specific := some child, general := some parent })) : GraphM Unit) :=
    moors_modify fun _ => .of_ties rfl
  unfold buildGeneralization
  infer_instance

instance moors_buildDependency (client supplier : NodeId) (kind : NodeKind)
    (name : Option String) : Moors (buildDependency client supplier kind name) := by
  have (n : NodeId) : Moors (modify (·.modify n fun r => { r with
      clients := r.clients ++ [client], suppliers := r.suppliers ++ [supplier] }) : GraphM Unit) :=
    moors_modify fun _ => .of_ties rfl
  unfold buildDependency
  infer_instance

instance moors_removeClientDependency (client dep : NodeId) :
    Moors (removeClientDependency client dep) := by
  have : Moors (update dep fun r => { r with clients := r.clients.erase client }) :=
    moors_describe fun _ => rfl
  unfold removeClientDependency
  infer_instance

instance moors_buildResidence (resident container : NodeId) :
    Moors (buildResidence resident container) := by
  have (n : NodeId) : Moors (modify (·.modify n
      ({ · with resident := some resident, container := some container })) : GraphM Unit) :=
    moors_modify fun _ => .of_ties rfl
  unfold buildResidence
  infer_instance

/-- An end is put into its association before it refers to it. -/
lemma ends_buildEnd_moored {a : NodeId} (hg : g.Moored) (ha : g.kind? a = some .association)
    (type : NodeId) (isNavigable : Bool) :
    Ends (buildEnd a type isNavigable g) (fun _ t => t.Moored ∧ t.kind? a = some .association)
      Graph.Moored := by
  obtain ⟨g', hrun, hb⟩ := create_ok g .associationEnd none (some a) fun p hp =>
    Option.some.inj hp ▸ isLive_of_kind? ha
  have hfilled := hb.modify (f := ({ · with association := some a, isNavigable })) rfl rfl
  have hmoored := hg.built hfilled fun b hb => by
    obtain rfl := Option.some.inj hb
    exact ⟨rfl, rfl, ha⟩
  have hassoc := (hfilled.kind?_old (isLive_of_kind? ha)).trans ha
  have hset := Ends.of_final (E := fun t : Graph => t.Moored ∧ t.kind? a = some .association)
    ⟨(moors_setType (n := g.next) (some type)).final _ hmoored,
      ((shifts_setType (n := g.next) (some type)).final _).kind? hassoc⟩
  unfold buildEnd
  exact Ends.bind_ok hrun (Ends.bind_ok rfl (hset.mono (fun _ _ => id) fun _ => And.left))

instance moors_buildAssociation (target source : NodeId) (b b' : Bool) (name : Option String) :
    Moors (buildAssociation target b source b' name) := by
  refine maintains_of_ends fun g hg => ?_
  have hquery : Moors (query (·.namespaceOf source)) := obeys_query _
  unfold buildAssociation
  refine (hquery.maintained hg).bind fun home g₁ hg₁ => ?_
  refine (ends_create_moored hg₁ .association name home).bind fun a g₂ ⟨hg₂, ha⟩ => ?_
  refine (ends_buildEnd_moored hg₂ ha target b).bind fun _ g₃ ⟨hg₃, ha₃⟩ => ?_
  exact (ends_buildEnd_moored hg₃ ha₃ source b').bind fun _ g₄ ⟨hg₄, _⟩ => hg₄

end GraphM

end DeclGraph
