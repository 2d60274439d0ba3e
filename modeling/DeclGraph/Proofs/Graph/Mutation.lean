import DeclGraph.Proofs.Graph.Builders
import DeclGraph.Proofs.Graph.Fresh

/-! The operations that change a graph, as data, and what every sequence of them keeps: records
refer to live elements, lists of parts agree with owners, and deleted elements stay deleted. -/

namespace DeclGraph

open DeclGraph.Graph

/-- The fields that can be set at will, since they refer to no other element. -/
inductive PlainField where
  | name (name : Option String)
  | visibility (visibility : Visibility)
  | multiplicity (multiplicity : Option String)
  | initialValue (initialValue : Option String)
  | isAbstract (isAbstract : Bool)
  | isLeaf (isLeaf : Bool)
  | isRoot (isRoot : Bool)
  | isReadOnly (isReadOnly : Bool)
  | isNavigable (isNavigable : Bool)

def PlainField.set (n : NodeId) : PlainField → GraphM Unit
  | .name x => .setName n x
  | .visibility x => .setVisibility n x
  | .multiplicity x => .setMultiplicity n x
  | .initialValue x => .setInitialValue n x
  | .isAbstract x => .setAbstract n x
  | .isLeaf x => .setLeaf n x
  | .isRoot x => .setRoot n x
  | .isReadOnly x => .setReadOnly n x
  | .isNavigable x => .setNavigable n x

/-- A call of an operation that changes a graph. -/
inductive Mutation where
  | create (kind : NodeKind) (name : Option String) (home : Option NodeId)
  | setNamespace (n : NodeId) (home : Option NodeId)
  | delete (n : NodeId)
  | replaceReferences (old new : NodeId)
  | set (n : NodeId) (field : PlainField)
  | setType (n : NodeId) (type : Option NodeId)
  | addStereotype (n stereotype : NodeId)
  | addBaseClass (stereotype : NodeId) (baseClass : String)
  | setTaggedValue (n : NodeId) (tag value : String)
  | removeTaggedValues (n : NodeId) (tag : String)
  | buildOperation (classifier : NodeId) (name : Option String)
  | buildAttribute (classifier : NodeId) (type : Option NodeId) (name : Option String)
  | buildParameter (operation : NodeId) (type : Option NodeId) (name : Option String)
      (direction : Direction)
  | removeParameter (operation parameter : NodeId)
  | buildGeneralization (child parent : NodeId)
  | buildDependency (client supplier : NodeId) (kind : NodeKind) (name : Option String)
  | removeClientDependency (client dependency : NodeId)
  | buildAssociation (target : NodeId) (targetNavigable : Bool) (source : NodeId)
      (sourceNavigable : Bool) (name : Option String)
  | buildResidence (resident container : NodeId)

namespace Mutation

/-- The handles that a call is given. -/
def handles : Mutation → List NodeId
  | .create _ _ home => home.toList
  | .setNamespace n home => n :: home.toList
  | .delete n | .set n _ | .addBaseClass n _ | .setTaggedValue n _ _ | .removeTaggedValues n _
  | .buildOperation n _ => [n]
  | .setType n type | .buildAttribute n type _ | .buildParameter n type _ _ => n :: type.toList
  | .replaceReferences n m | .addStereotype n m | .removeParameter n m | .buildGeneralization n m
  | .buildDependency n m _ _ | .removeClientDependency n m | .buildAssociation n _ m _ _
  | .buildResidence n m => [n, m]

def run : Mutation → GraphM Unit
  | .create kind name home => discard <| .create kind name home
  | .setNamespace n home => .setNamespace n home
  | .delete n => .delete n
  | .replaceReferences old new => .replaceReferences old new
  | .set n field => field.set n
  | .setType n type => .setType n type
  | .addStereotype n stereotype => .addStereotype n stereotype
  | .addBaseClass stereotype baseClass => .addBaseClass stereotype baseClass
  | .setTaggedValue n tag value => discard <| .setTaggedValue n tag value
  | .removeTaggedValues n tag => discard <| .removeTaggedValues n tag
  | .buildOperation c name => discard <| .buildOperation c name
  | .buildAttribute c type name => discard <| .buildAttribute c type name
  | .buildParameter op type name direction => discard <| .buildParameter op type name direction
  | .removeParameter op p => .removeParameter op p
  | .buildGeneralization child parent => discard <| .buildGeneralization child parent
  | .buildDependency client supplier kind name =>
    discard <| .buildDependency client supplier kind name
  | .removeClientDependency client dep => .removeClientDependency client dep
  | .buildAssociation target tn source sn name =>
    discard <| .buildAssociation target tn source sn name
  | .buildResidence resident container => discard <| .buildResidence resident container

/-- The graph after a call, whether it fails or not. -/
def apply (c : Mutation) (g : Graph) : Graph := finalState (c.run g)

/-- The graph after some calls. -/
def applyAll (calls : List Mutation) (g : Graph) : Graph := calls.foldl (fun g c => c.apply g) g

end Mutation

/-- No association end that stays is moved out of its association. -/
def Graph.KeepsEnds (g g' : Graph) : Prop :=
  ∀ e ∈ g.handles, ∀ r ∈ g.node? e, ∀ r' ∈ g'.node? e, ∀ a ∈ r.association, r'.owner = some a

instance (g g' : Graph) : Decidable (g.KeepsEnds g') := by
  unfold Graph.KeepsEnds
  infer_instance

/-- Every call is given live handles and leaves the ends of associations where they are. -/
def Mutation.Admissible : Graph → List Mutation → Prop
  | _, [] => True
  | g, c :: calls =>
    (∀ n ∈ c.handles, g.isLive n = true) ∧ g.KeepsEnds (c.apply g) ∧ Admissible (c.apply g) calls

instance Mutation.decidableAdmissible :
    (g : Graph) → (calls : List Mutation) → Decidable (Mutation.Admissible g calls)
  | _, [] => isTrue trivial
  | g, c :: calls =>
    have := Mutation.decidableAdmissible (c.apply g) calls
    inferInstanceAs (Decidable ((∀ n ∈ c.handles, g.isLive n = true) ∧ g.KeepsEnds (c.apply g) ∧
      Mutation.Admissible (c.apply g) calls))

namespace Graph

/-- What a call leaves of a coherent graph: no handle comes to life again, and the graph is coherent
if the ends of associations stayed where they were. -/
structure Kept (g g' : Graph) : Prop where
  ages : Ages g g'
  coherent : g.KeepsEnds g' → g'.Coherent

/-- Elements moved about and edges turned, without a new element and without a loss. -/
structure Reworked (g g' : Graph) : Prop where
  linked : g'.Linked
  next : g'.next = g.next
  association : ∀ m, (g'.node? m).map (·.association) = (g.node? m).map (·.association)

variable {g g' g'' : Graph} {n m : NodeId} {r : Node} {home : Option NodeId}

namespace Reworked

lemma refl (h : g.Linked) : Reworked g g := ⟨h, rfl, fun _ => rfl⟩

lemma trans (h : Reworked g g') (h' : Reworked g' g'') : Reworked g g'' :=
  ⟨h'.linked, h'.next.trans h.next, fun m => (h'.association m).trans (h.association m)⟩

lemma isLive (h : Reworked g g') (m : NodeId) : g'.isLive m = g.isLive m := by
  have := congrArg Option.isSome (h.association m)
  simpa [Graph.isLive] using this

/-- The ends stay at home if the moves leave them there. -/
lemma kept (h : Reworked g g') : Kept g g' := by
  refine ⟨⟨h.next.ge, fun n _ hn => h.isLive n ▸ hn⟩, fun hkeep => ⟨h.linked, ?_⟩⟩
  intro n r' a hr' ha
  have hassoc := h.association n
  rw [hr', Option.map_some] at hassoc
  obtain ⟨r, hr, hra⟩ := Option.map_eq_some_iff.mp hassoc.symm
  exact hkeep n (mem_handles.mpr (isLive_of_node? hr)) r hr r' hr' a (hra.trans ha)

end Reworked

lemma Linked.reworked_move (h : g.Linked) (hr : g.node? n = some r)
    (hp : ∀ p, home = some p → g.isLive p = true) (hm : g.Moved n r home g') : Reworked g g' := by
  refine ⟨h.relocate hr hp hm, hm.next, ?_⟩
  intro m
  rw [hm.node, Option.map_map]
  congr 1
  funext x
  exact (Node.bare_congr (Node.bare_relocated n m r x home)).2.2.2.2.2.2.2.2.2.1

lemma ages_modify (n : NodeId) (f : Node → Node) : Ages g (g.modify n f) := by
  refine ⟨by simp, fun m _ hm => ?_⟩
  obtain ⟨x, hx⟩ := isLive_iff.mp hm
  rw [node?_modify] at hx
  split_ifs at hx
  · obtain ⟨y, hy, _⟩ := Option.map_eq_some_iff.mp hx
    exact isLive_of_node? hy
  · exact isLive_of_node? hx

lemma mem_links_redirect {old new y : NodeId} (hy : y ∈ (r.redirect old new).links) :
    y ∈ r.links ∨ y = new := by
  have option : ∀ o : Option NodeId,
      (∃ z, o = some z ∧ (if z = old then new else z) = y) → o = some y ∨ y = new := by
    rintro o ⟨z, rfl, rfl⟩
    split_ifs
    exacts [Or.inr rfl, Or.inl rfl]
  have list : ∀ l : List NodeId,
      (∃ z, z ∈ l ∧ (if z = old then new else z) = y) → y ∈ l ∨ y = new := by
    rintro l ⟨z, hz, rfl⟩
    split_ifs
    exacts [Or.inr rfl, Or.inl hz]
  simp only [Node.links, Node.redirect, List.mem_append, Option.mem_toList,
    Option.map_eq_some_iff, List.mem_map] at hy ⊢
  rcases hy with ((((((((hy | hy) | hy) | hy) | hy) | hy) | hy) | hy) | hy) | hy
  · exact Or.inl (by tauto)
  · exact (option _ hy).imp_left (by tauto)
  · exact (option _ hy).imp_left (by tauto)
  · exact (option _ hy).imp_left (by tauto)
  · exact (list _ hy).imp_left (by tauto)
  · exact (list _ hy).imp_left (by tauto)
  · exact (option _ hy).imp_left (by tauto)
  · exact (option _ hy).imp_left (by tauto)
  · exact Or.inl (by tauto)
  · exact Or.inl (by tauto)

/-- Turning the references to one live element to another keeps everything in its place. -/
lemma Linked.redirect {old new : NodeId} (h : g.Linked) (hnew : g.isLive new = true) :
    Reworked g (g.mapNodes fun n r => if n = old then r else r.redirect old new) := by
  refine ⟨h.map (node?_mapNodes _) ?_, by simp, ?_⟩
  · intro m x hx
    have hfit := h.fit hx
    split_ifs
    · exact ⟨Node.SamePlace.refl x, hfit, h.live hx⟩
    · refine ⟨⟨rfl, rfl, fun s => by cases s <;> rfl⟩, ⟨?_, ?_, hfit.associationEnd⟩, ?_⟩
      · intro hk
        obtain ⟨hg, hs⟩ := hfit.generalization hk
        simp [Node.redirect, hg, hs]
      · intro hk
        obtain ⟨hr, hc⟩ := hfit.residence hk
        simp [Node.redirect, hr, hc]
      · intro y hy
        rcases mem_links_redirect hy with hy | rfl
        · exact h.live hx y hy
        · exact hnew
  · intro m
    rw [node?_mapNodes, Option.map_map]
    congr 1
    funext x
    simp only [Function.comp_apply]
    split_ifs <;> rfl

/-- Applying a stereotype to a live element. -/
lemma Linked.addStereotype (h : g.Linked) {st : NodeId} (hn : g.isLive n = true)
    (hst : g.isLive st = true) :
    Ends (GraphM.addStereotype n st g) (fun _ => Reworked g) (Reworked g) := by
  obtain ⟨rs, hrs⟩ := isLive_iff.mp hst
  rw [GraphM.addStereotype_run, hrs]
  dsimp only
  split_ifs with hk
  · rw [GraphM.update_ok _ hn]
    refine ⟨h.map (F := fun m x => if m = n then
      if st ∈ x.stereotypes then x else { x with stereotypes := x.stereotypes ++ [st] } else x)
      ?_ ?_, by simp, ?_⟩
    · intro m
      rw [node?_modify]
      split_ifs <;> simp
    · intro m x hx
      have hfit := h.fit hx
      have hlive := h.live hx
      split_ifs
      · exact ⟨Node.SamePlace.refl x, hfit, hlive⟩
      · refine ⟨⟨rfl, rfl, fun s => by cases s <;> rfl⟩,
          ⟨hfit.generalization, hfit.residence, hfit.associationEnd⟩, ?_⟩
        intro y hy
        simp only [Node.links, List.mem_append, Option.mem_toList, List.mem_singleton] at hlive hy
        rcases hy with hy | hy | rfl
        · exact hlive y (by tauto)
        · exact hlive y (by tauto)
        · exact hst
      · exact ⟨Node.SamePlace.refl x, hfit, hlive⟩
    · intro m
      rw [node?_modify]
      split_ifs
      · rw [Option.map_map]
        congr 1
        funext x
        simp only [Function.comp_apply]
        split_ifs <;> rfl
      · rfl
  · exact Reworked.refl h

lemma Linked.setNamespace (h : g.Linked) (hn : g.isLive n = true)
    (hp : ∀ p, home = some p → g.isLive p = true) :
    Ends (GraphM.setNamespace n home g) (fun _ => Reworked g) (Reworked g) := by
  obtain ⟨r, hr⟩ := isLive_iff.mp hn
  obtain ⟨g', hrun, hm⟩ := GraphM.setNamespace_ok hr hp
  rw [hrun]
  exact h.reworked_move hr hp hm

lemma Linked.replaceReferences {old new : NodeId} (h : g.Linked) (hold : g.isLive old = true)
    (hnew : g.isLive new = true) :
    Ends (GraphM.replaceReferences old new g) (fun _ => Reworked g) (Reworked g) := by
  obtain ⟨r, hr⟩ := isLive_iff.mp hold
  obtain ⟨rn, hrn⟩ := isLive_iff.mp hnew
  unfold GraphM.replaceReferences
  refine Ends.bind_ok (GraphM.get_ok hr) (Ends.bind_ok (GraphM.get_ok hrn) ?_)
  refine Ends.bind (Ends.modified (Q := fun _ => Reworked g) (h.redirect hnew)) fun _ g₁ h₁ => ?_
  refine Ends.bind (Q := fun _ => Reworked g) (Ends.loop ?_ h₁) fun _ g₂ h₂ =>
    Ends.bind (Q := fun _ => Reworked g) (Ends.loop ?_ h₂) fun _ g₃ h₃ => Ends.answer h₃
  · intro slot _ g₁ h₁
    refine Ends.bind (Q := fun _ => Reworked g) (Ends.loop ?_ h₁) fun _ g₂ h₂ =>
      Ends.answer ⟨rfl, h₂⟩
    intro part hpart g₁ h₁
    have hlive : g₁.isLive part = true := (h₁.isLive part).trans (h.children_live hr hpart)
    have hhome : ∀ p, some new = some p → g₁.isLive p = true := fun p hp =>
      Option.some.inj hp ▸ (h₁.isLive new).trans hnew
    have hmove := h₁.linked.setNamespace hlive hhome
    exact Ends.bind (hmove.mono (fun _ _ => h₁.trans) fun _ => h₁.trans) fun _ _ h₂ =>
      Ends.answer ⟨rfl, h₂⟩
  · intro st hst g₁ h₁
    have hlive : g₁.isLive st = true :=
      (h₁.isLive st).trans (h.live hr st (by simp [Node.links, hst]))
    have hadd := h₁.linked.addStereotype ((h₁.isLive new).trans hnew) hlive
    exact Ends.bind (hadd.mono (fun _ _ => h₁.trans) fun _ => h₁.trans) fun _ _ h₂ =>
      Ends.answer ⟨rfl, h₂⟩

/-- `g'` is coherent and came from `g` without giving out a handle twice. -/
structure Grown (g g' : Graph) : Prop where
  coherent : g'.Coherent
  ages : Ages g g'

namespace Grown

lemma refl (h : g.Coherent) : Grown g g := ⟨h, Ages.refl g⟩

lemma trans (h : Grown g g') (h' : Grown g' g'') : Grown g g'' :=
  ⟨h'.coherent, h.ages.trans h'.ages⟩

lemma kept (h : Grown g g') : Kept g g' := ⟨h.ages, fun _ => h.coherent⟩

lemma built (h : g.Coherent) (hb : g.Built r g') (hparts : ∀ s, r.children s = [])
    (hfit : r.FieldsFit) (hlinks : ∀ y ∈ r.links, g.isLive y = true)
    (ha : ∀ a, r.association = some a → r.owner = some a) : Grown g g' :=
  ⟨h.built hb hparts hfit hlinks ha, hb.ages⟩

lemma modify_plain (h : g.Coherent) (n : NodeId) {f : Node → Node}
    (hf : ∀ r, (f r).wiring = r.wiring) : Grown g (g.modify n f) :=
  ⟨h.modify_plain n hf, ages_modify n f⟩

/-- Deleting a handle, live or not. -/
lemma delete (h : g.Coherent) (n : NodeId) :
    Ends (GraphM.delete n g) (fun _ => Grown g) (Grown g) := by
  by_cases hn : g.isLive n = true
  · rw [GraphM.delete_ok hn]
    exact ⟨h.remove (doomedWith_closed hn h.toLinked), ages_remove⟩
  · rw [GraphM.delete_unknown hn]
    exact refl h

lemma update_plain (h : g.Coherent) (n : NodeId) {f : Node → Node}
    (hf : ∀ r, (f r).wiring = r.wiring) :
    Ends (GraphM.update n f g) (fun _ => Grown g) (Grown g) := by
  rw [GraphM.update_run]
  cases g.node? n with
  | none => exact refl h
  | some r => exact modify_plain h n hf

lemma setType (h : g.Coherent) (hn : g.isLive n = true) {type : Option NodeId}
    (ht : ∀ t, type = some t → g.isLive t = true) :
    Ends (GraphM.setType n type g) (fun _ => Grown g) (Grown g) := by
  obtain ⟨r, hr⟩ := isLive_iff.mp hn
  rw [GraphM.setType_ok hn ht]
  have hfit := h.fit hr
  refine ⟨h.modify hr ⟨rfl, rfl, fun s => by cases s <;> rfl⟩
    ⟨hfit.generalization, hfit.residence, hfit.associationEnd⟩ ?_
    fun a (ha : r.association = some a) => h.endsAtHome hr ha, ages_modify n _⟩
  intro y hy
  simp only [Node.links, List.mem_append, Option.mem_toList] at hy ⊢
  by_cases hty : type = some y
  · exact Or.inr (ht y hty)
  · exact Or.inl (by tauto)

lemma setTaggedValue (h : g.Coherent) (hn : g.isLive n = true) (tag value : String) :
    Ends (GraphM.setTaggedValue n tag value g) (fun _ => Grown g) (Grown g) := by
  obtain ⟨r, hr⟩ := isLive_iff.mp hn
  rcases GraphM.setTaggedValue_ok h.toLinked hr tag value with ⟨tv, _, hrun⟩ | ⟨_, g', hrun, hb⟩
  · rw [hrun]
    exact modify_plain h tv fun _ => rfl
  · rw [hrun]
    exact built h hb (fun s => by cases s <;> rfl) ⟨by simp, by simp, by simp⟩
      (by simpa [Node.links] using hn) (by simp)

lemma removeTaggedValues (h : g.Coherent) (hn : g.isLive n = true) (tag : String) :
    Ends (GraphM.removeTaggedValues n tag g) (fun _ => Grown g) (Grown g) := by
  obtain ⟨r, hr⟩ := isLive_iff.mp hn
  rw [GraphM.removeTaggedValues_run h.toLinked hr]
  refine Ends.bind (Ends.forM (P := Grown g) ?_ (refl h)) fun _ _ h' => Ends.answer h'
  intro tv _ g₁ h₁
  exact (delete h₁.coherent tv).mono (fun _ _ => h₁.trans) fun _ => h₁.trans

lemma removeParameter (h : g.Coherent) (hn : g.isLive n = true) (p : NodeId) :
    Ends (GraphM.removeParameter n p g) (fun _ => Grown g) (Grown g) := by
  obtain ⟨r, hr⟩ := isLive_iff.mp hn
  rw [GraphM.removeParameter_run hr]
  split_ifs
  · exact delete h p
  · exact refl h

lemma removeClientDependency {client : NodeId} (h : g.Coherent) (hn : g.isLive n = true) :
    Ends (GraphM.removeClientDependency client n g) (fun _ => Grown g) (Grown g) := by
  obtain ⟨r, hr⟩ := isLive_iff.mp hn
  have hfit := h.fit hr
  let f : Node → Node := fun r => { r with clients := r.clients.erase client }
  have h₁ : Grown g (g.modify n f) := by
    refine ⟨h.modify hr ⟨rfl, rfl, fun s => by cases s <;> rfl⟩
      ⟨hfit.generalization, hfit.residence, hfit.associationEnd⟩ ?_
      fun a (ha : r.association = some a) => h.endsAtHome hr ha, ages_modify n f⟩
    intro y hy
    simp only [f, Node.links, List.mem_append, Option.mem_toList] at hy ⊢
    have := fun hc : y ∈ r.clients.erase client => List.mem_of_mem_erase hc
    exact Or.inl (by tauto)
  have hr₁ : (g.modify n f).node? n = some (f r) := by rw [node?_modify, if_pos rfl, hr]; rfl
  unfold GraphM.removeClientDependency
  refine Ends.bind_ok (GraphM.update_ok f hn) (Ends.bind_ok (GraphM.get_ok hr₁) ?_)
  split_ifs
  · exact (delete h₁.coherent n).mono (fun _ _ => h₁.trans) fun _ => h₁.trans
  · exact Ends.answer h₁

end Grown

end Graph

namespace Mutation

variable {g g' : Graph} {α : Type} {x : GraphM α}

lemma kept_of_grown (h : Ends (x g) (fun _ => Grown g) (Grown g)) : Kept g (finalState (x g)) :=
  (h.mono (fun _ _ => Grown.kept) fun _ => Grown.kept).final

lemma kept_of_reworked (h : Ends (x g) (fun _ => Reworked g) (Reworked g)) :
    Kept g (finalState (x g)) :=
  (h.mono (fun _ _ => Reworked.kept) fun _ => Reworked.kept).final

/-- A builder that adds one element. -/
lemma kept_of_built {x : GraphM NodeId} {r : Node} (h : g.Coherent)
    (hx : ∃ g', x g = .ok g.next g' ∧ g.Built r g') (hparts : ∀ s, r.children s = [])
    (hfit : r.FieldsFit) (hlinks : ∀ y ∈ r.links, g.isLive y = true)
    (ha : ∀ a, r.association = some a → r.owner = some a) : Kept g (finalState (discard x g)) := by
  obtain ⟨g', hrun, hb⟩ := hx
  rw [final_discard, hrun]
  exact (Grown.built h hb hparts hfit hlinks ha).kept

/-- What one call keeps. -/
lemma kept (h : g.Coherent) (c : Mutation) (hl : ∀ n ∈ c.handles, g.isLive n = true) :
    Kept g (c.apply g) := by
  have owner_live : ∀ {n r}, g.node? n = some r → ∀ o, r.owner = some o → g.isLive o = true :=
    fun hr o ho => h.owner_live hr ho
  cases c with
  | create kind name home =>
    simp only [handles, Option.mem_toList] at hl
    refine kept_of_built h (GraphM.create_ok g kind name home hl)
      (fun s => by cases s <;> rfl) ⟨by simp, by simp, by simp⟩ ?_ (by simp)
    simpa [Node.links] using hl
  | setNamespace n home =>
    simp only [handles, List.mem_cons, Option.mem_toList, forall_eq_or_imp] at hl
    exact kept_of_reworked (h.toLinked.setNamespace hl.1 hl.2)
  | delete n => exact kept_of_grown (Grown.delete h n)
  | replaceReferences old new =>
    simp only [handles, List.mem_cons, List.not_mem_nil, or_false, forall_eq_or_imp,
      forall_eq] at hl
    exact kept_of_reworked (h.toLinked.replaceReferences hl.1 hl.2)
  | set n field =>
    apply kept_of_grown
    cases field <;> exact Grown.update_plain h n fun _ => rfl
  | setType n type =>
    simp only [handles, List.mem_cons, Option.mem_toList, forall_eq_or_imp] at hl
    exact kept_of_grown (Grown.setType h hl.1 hl.2)
  | addStereotype n st =>
    simp only [handles, List.mem_cons, List.not_mem_nil, or_false, forall_eq_or_imp,
      forall_eq] at hl
    exact kept_of_reworked (h.toLinked.addStereotype hl.1 hl.2)
  | addBaseClass st b =>
    apply kept_of_grown
    refine Grown.update_plain h st fun r => ?_
    split_ifs <;> rfl
  | setTaggedValue n tag value =>
    rw [apply, run, final_discard]
    exact kept_of_grown (Grown.setTaggedValue h (hl n (by simp [handles])) tag value)
  | removeTaggedValues n tag =>
    rw [apply, run, final_discard]
    exact kept_of_grown (Grown.removeTaggedValues h (hl n (by simp [handles])) tag)
  | buildOperation c name =>
    have hc := hl c (by simp [handles])
    exact kept_of_built h (GraphM.buildOperation_ok _ hc) (fun s => by cases s <;> rfl)
      ⟨by simp, by simp, by simp⟩ (by simpa [Node.links] using hc) (by simp)
  | buildAttribute c type name =>
    simp only [handles, List.mem_cons, Option.mem_toList, forall_eq_or_imp] at hl
    refine kept_of_built h (GraphM.buildAttribute_ok _ hl.1 hl.2) (fun s => by cases s <;> rfl)
      ⟨by simp, by simp, by simp⟩ ?_ (by simp)
    simpa [Node.links] using hl
  | buildParameter op type name direction =>
    simp only [handles, List.mem_cons, Option.mem_toList, forall_eq_or_imp] at hl
    refine kept_of_built h (GraphM.buildParameter_ok hl.1 hl.2) (fun s => by cases s <;> rfl)
      ⟨by simp, by simp, by simp⟩ ?_ (by simp)
    simpa [Node.links] using hl
  | removeParameter op p =>
    exact kept_of_grown (Grown.removeParameter h (hl op (by simp [handles])) p)
  | buildGeneralization child parent =>
    have hc := hl child (by simp [handles])
    have hp := hl parent (by simp [handles])
    obtain ⟨r, hr⟩ := isLive_iff.mp hc
    refine kept_of_built h (GraphM.buildGeneralization_ok hr hp (owner_live hr))
      (fun s => by cases s <;> rfl) ⟨by simp, by simp, by simp⟩ ?_ (by simp)
    simpa [Node.links, or_imp, forall_and, hc, hp] using owner_live hr
  | buildDependency client supplier kind name =>
    have hc := hl client (by simp [handles])
    have hs := hl supplier (by simp [handles])
    obtain ⟨r, hr⟩ := isLive_iff.mp hc
    by_cases hk : kind.isDependency = true
    · have hne : kind ≠ .generalization ∧ kind ≠ .elementResidence ∧ kind ≠ .associationEnd := by
        refine ⟨?_, ?_, ?_⟩ <;> rintro rfl <;> simp [NodeKind.isDependency] at hk
      refine kept_of_built h (GraphM.buildDependency_ok _ hk hr hs (owner_live hr))
        (fun s => by cases s <;> rfl) ⟨by simp, by simp, by simp⟩ ?_ (by simp)
      simpa [Node.links, or_imp, forall_and, hc, hs] using owner_live hr
    · rw [apply, run, final_discard, GraphM.buildDependency_wrongKind hk]
      exact (Grown.refl h).kept
  | removeClientDependency client dep =>
    exact kept_of_grown (Grown.removeClientDependency h (hl dep (by simp [handles])))
  | buildAssociation target tn source sn name =>
    have ht := hl target (by simp [handles])
    have hs := hl source (by simp [handles])
    obtain ⟨r, hr⟩ := isLive_iff.mp hs
    obtain ⟨g₁, g₂, g₃, hrun, hb₁, hb₂, hb₃⟩ :=
      GraphM.buildAssociation_ok name tn sn ht hr (owner_live hr)
    rw [apply, run, final_discard, hrun]
    have hassoc : g₁.isLive g.next = true := isLive_of_node? hb₁.new_node
    have h₁ : Grown g g₁ := Grown.built h hb₁ (fun s => by cases s <;> rfl)
      ⟨by simp, by simp, by simp⟩ (by simpa [Node.links] using owner_live hr) (by simp)
    have h₂ : Grown g₁ g₂ := Grown.built h₁.coherent hb₂ (fun s => by cases s <;> rfl)
      ⟨by simp, by simp, by simp⟩ (by simp [Node.links, hassoc, hb₁.live ht]) (by simp)
    have h₃ : Grown g₂ g₃ := Grown.built h₂.coherent hb₃ (fun s => by cases s <;> rfl)
      ⟨by simp, by simp, by simp⟩
      (by simp [Node.links, hb₂.live hassoc, hb₂.live (hb₁.live hs)]) (by simp)
    exact ((h₁.trans h₂).trans h₃).kept
  | buildResidence resident container =>
    have hr := hl resident (by simp [handles])
    have hc := hl container (by simp [handles])
    exact kept_of_built h (GraphM.buildResidence_ok hr hc) (fun s => by cases s <;> rfl)
      ⟨by simp, by simp, by simp⟩ (by simpa [Node.links] using ⟨hr, hc⟩) (by simp)

/-- What some calls keep. -/
lemma grown_applyAll (h : g.Coherent) (calls : List Mutation) (ha : Admissible g calls) :
    Grown g (applyAll calls g) := by
  induction calls generalizing g with
  | nil => exact Grown.refl h
  | cons c calls ih =>
    have hk := kept h c ha.1
    have hc : Grown g (c.apply g) := ⟨hk.coherent ha.2.1, hk.ages⟩
    exact hc.trans (ih hc.coherent ha.2.2)

lemma applyAll_append (xs ys : List Mutation) (g : Graph) :
    applyAll (xs ++ ys) g = applyAll ys (applyAll xs g) := by
  simp [applyAll]

lemma admissible_append {xs ys : List Mutation} (h : Admissible g (xs ++ ys)) :
    Admissible g xs ∧ Admissible (applyAll xs g) ys := by
  induction xs generalizing g with
  | nil => exact ⟨trivial, h⟩
  | cons c xs ih =>
    obtain ⟨hl, hk, hrest⟩ := h
    exact ⟨⟨hl, hk, (ih hrest).1⟩, (ih hrest).2⟩

end Mutation

/-- What all sequences of admissible calls keep, from a new graph on: records refer to live elements
alone, an element is in the list of its owner that its kind selects, once, and in no other list, and
an element that was deleted stays so. -/
theorem representation_invariant (name : String) (profile : Profile) (calls : List Mutation)
    (h : Mutation.Admissible (.new name profile) calls) :
    let after := fun calls => Mutation.applyAll calls (.new name profile)
    (∀ n r, (after calls).node? n = some r → ∀ m ∈ r.references, (after calls).isLive m = true) ∧
      (∀ c rc p rp, (after calls).node? c = some rc → (after calls).node? p = some rp → ∀ s,
        (rp.children s).count c = if rc.owner = some p ∧ s = rc.kind.slot then 1 else 0) ∧
      ∀ xs ys zs n, calls = xs ++ ys ++ zs → (after xs).isLive n = true →
        (after (xs ++ ys)).isLive n = false → (after calls).isLive n = false := by
  intro after
  have hnew := coherent_new name profile
  have hg : (after calls).Coherent := (Mutation.grown_applyAll hnew calls h).coherent
  refine ⟨fun n r hr m hm => hg.references_live hr hm, ?_, ?_⟩
  · intro c rc p rp hc hp s
    have hmem : c ∈ rp.children s ↔ rc.owner = some p ∧ s = rc.kind.slot := by
      rw [hg.mem_children hp, hc]
      simp [eq_comm (a := s)]
    by_cases hcs : c ∈ rp.children s
    · rw [if_pos (hmem.mp hcs)]
      exact List.count_eq_one_of_mem (hg.nodup hp s) hcs
    · rw [if_neg (hmem.not.mp hcs)]
      exact List.count_eq_zero_of_not_mem hcs
  · rintro xs ys zs n rfl hlive hdead
    obtain ⟨hxy, hz⟩ := Mutation.admissible_append h
    obtain ⟨hx, hy⟩ := Mutation.admissible_append hxy
    have hgx := Mutation.grown_applyAll hnew xs hx
    have hgy := Mutation.grown_applyAll hgx.coherent ys hy
    have hgz := Mutation.grown_applyAll (Mutation.grown_applyAll hnew _ hxy).coherent zs hz
    have hnext : n < (after (xs ++ ys)).next := by
      simp only [after, Mutation.applyAll_append]
      exact (lt_next hlive).trans_le hgy.ages.next
    by_contra hn
    rw [Bool.not_eq_false] at hn
    simp only [after, Mutation.applyAll_append xs ys, Mutation.applyAll_append _ zs]
      at hn hdead hnext
    simp only [Mutation.applyAll_append] at hgz
    rw [hgz.ages.live n hnext hn] at hdead
    exact Bool.noConfusion hdead

/-- An association that went with the class at one of its ends. -/
theorem representation_invariant_of_association :
    let calls : List Mutation := [.create .classType (some "A") (some root),
      .create .classType (some "B") (some root), .buildAssociation 4 true 5 false none,
      .setTaggedValue 4 "documentation" "text"]
    let start := Graph.new "m" ⟨"p", ["long"], []⟩
    Mutation.Admissible start (calls ++ [.delete 4] ++ []) ∧
      (Mutation.applyAll calls start).isLive 6 = true ∧
      (Mutation.applyAll (calls ++ [.delete 4] ++ []) start).isLive 6 = false := by
  intro calls start
  have ha : Mutation.Admissible start (calls ++ [.delete 4] ++ []) := by decide +kernel
  have hl : (Mutation.applyAll calls start).isLive 6 = true := by decide +kernel
  have hd : (Mutation.applyAll (calls ++ [.delete 4]) start).isLive 6 = false := by decide +kernel
  exact ⟨ha, hl, (representation_invariant "m" _ _ ha).2.2 calls [.delete 4] [] 6 rfl hl hd⟩

end DeclGraph
