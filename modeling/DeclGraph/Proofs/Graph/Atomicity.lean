import DeclGraph.Proofs.Graph.Takeover

/-! Calls that fail. Most look at all they are given before they write, and leave the graph as it was.
The others are done in part: what they have built by then stays, and may have an owner that is not
there. -/

namespace DeclGraph

open DeclGraph.Graph

variable {g g' : Graph} {n m p : NodeId} {r : Node} {f : GraphFault} {kind : NodeKind}
  {name : Option String} {home type : Option NodeId} {α β : Type}

lemma exists_error_of_not_succeeds {ε σ : Type} {r : EStateM.Result ε σ α}
    (h : succeeds r = false) : ∃ e, r = .error e (finalState r) := by
  cases r with
  | ok a s => exact absurd h (by simp [succeeds])
  | error e s => exact ⟨e, rfl⟩

/-- A run fails, if at all, before it has changed anything. -/
def FailsFirst (x : GraphM α) (g : Graph) : Prop := Ends (x g) (fun _ _ => True) (· = g)

namespace FailsFirst

variable {x : GraphM α} {y : α → GraphM β} {a : α}

lemma ok (h : x g = .ok a g') : FailsFirst x g := by
  simp only [FailsFirst, h, Ends]

lemma error (h : x g = .error f g) : FailsFirst x g := by
  simp only [FailsFirst, h, Ends]

lemma unchanged (h : FailsFirst x g) (hx : x g = .error f g') : g' = g := by
  simpa only [FailsFirst, hx, Ends] using h

lemma query {q : Graph → Except GraphFault α} (h : ∀ a, q g = .ok a → FailsFirst (y a) g) :
    FailsFirst (GraphM.query q >>= y) g := by
  cases hq : q g with
  | ok a =>
    have hrun := bind_run (f := y) (GraphM.query_ok hq)
    simpa only [FailsFirst, hrun] using h a hq
  | error e =>
    have hrun : GraphM.query q g = .error e g := by simp only [GraphM.query, hq]
    exact .error (bind_failed hrun)

lemma get {y : Node → GraphM β} (h : ∀ r, g.node? n = some r → FailsFirst (y r) g) :
    FailsFirst (GraphM.get n >>= y) g := by
  cases hn : g.node? n with
  | none => exact .error (bind_failed (by rw [GraphM.get_run, hn]))
  | some r => simpa only [FailsFirst, bind_run (GraphM.get_ok hn)] using h r hn

lemma discard (h : FailsFirst x g) : FailsFirst (Functor.discard x) g :=
  Ends.map (S := fun _ _ => True) h

lemma update (n : NodeId) (h : Node → Node) : FailsFirst (GraphM.update n h) g :=
  .get fun _ _ => .ok rfl

lemma delete (n : NodeId) : FailsFirst (GraphM.delete n) g :=
  .get fun _ _ => .ok rfl

lemma setType (n : NodeId) (type : Option NodeId) : FailsFirst (GraphM.setType n type) g := by
  unfold GraphM.setType
  cases type with
  | none => exact .update n _
  | some t => exact .get fun _ _ => .update n _

/-- An element is built beside another, and its record is filled in. -/
lemma beside (hg : g.Intact) {h : NodeId → Node → Node} (hr : g.node? n = some r) :
    FailsFirst (do
      let m ← GraphM.create kind name r.owner
      modify (·.modify m (h m))
      return m) g := by
  have howner : ∀ p, r.owner = some p → g.isLive p = true := fun p hp =>
    hg hr p (by simp [Node.references, Node.links, hp])
  obtain ⟨g', hrun, -⟩ := GraphM.create_ok g kind name r.owner howner
  exact .ok (bind_run hrun)

end FailsFirst

namespace Graph

/-- `g'` is `g` with a new element that has the record `r`, in the list of its owner if there is
one, which can be the element itself. -/
structure Added (g : Graph) (r : Node) (g' : Graph) : Prop where
  next : g'.next = g.next + 1
  node : ∀ m, g'.node? m = (if m = g.next then some r else g.node? m).map fun x =>
    if r.owner = some m then x.attach r.kind.slot g.next else x

lemma Added.changed (h : g.Added r g') : ∃ m, g'.node? m ≠ g.node? m := by
  refine ⟨g.next, ?_⟩
  rw [h.node, node?_next]
  simp

lemma kind?_modify {h : Node → Node} (hk : ∀ r, (h r).kind = r.kind) (m : NodeId) :
    (g.modify n h).kind? m = g.kind? m := by
  rw [kind?, kind?, node?_modify]
  split_ifs
  · rw [Option.map_map]
    exact congrArg (Option.map · _) (funext hk)
  · rfl

lemma represented_new (name : String) (profile : Profile) : (new name profile).Represented := by
  have hnone : Mutation.Admissible (new name profile) [] := trivial
  exact represented_applyAll name profile hnone

end Graph

namespace GraphM

/-- An element is added even if the owner that it is to have is not there. -/
lemma added_create (g : Graph) (kind : NodeKind) (name : Option String) (home : Option NodeId) :
    g.Added { kind, name, owner := home } (finalState (create kind name home g)) := by
  let g₁ := (g.add { kind, name }).2
  have hadd : add kind name g = .ok g.next g₁ := rfl
  have hlast : ∀ x : GraphM Unit,
      finalState ((do x; return g.next : GraphM NodeId) g₁) = finalState (x g₁) := by
    intro x
    change finalState (EStateM.bind x _ g₁) = _
    unfold EStateM.bind
    cases x g₁ <;> rfl
  cases home with
  | none =>
    have hrun : create kind name none g = .ok g.next g₁ := rfl
    rw [hrun]
    exact ⟨Graph.next_add _, fun m => by simp [finalState, g₁, Graph.node?_add]⟩
  | some p =>
    have hrun : create kind name (some p) g =
        (do setNamespace g.next (some p); return g.next : GraphM NodeId) g₁ := bind_run hadd
    have hr : g₁.node? g.next = some { kind, name } := by simp [g₁, Graph.node?_add]
    have hmoved := moved_setNamespace hr (some p)
    rw [hrun, hlast]
    refine ⟨hmoved.next.trans (Graph.next_add _), fun m => ?_⟩
    rw [hmoved.node]
    by_cases hm : m = g.next
    · subst hm
      simp [hr, Node.relocated]
    · simp only [g₁, Graph.node?_add, hm, if_false]
      congr 1
      funext x
      simp [Node.relocated, hm]

lemma added_of_failed (h : create kind name home g = .error f g') :
    g.Added { kind, name, owner := home } g' := by
  simpa only [h, finalState] using added_create g kind name home

lemma added_of_created (h : create kind name home g = .ok n g') :
    g.Added { kind, name, owner := home } g' := by
  simpa only [h, finalState] using added_create g kind name home

lemma bind_eq_error {x : GraphM α} {y : α → GraphM β} : (x >>= y) g = .error f g' ↔
    x g = .error f g' ∨ ∃ a g₁, x g = .ok a g₁ ∧ y a g₁ = .error f g' := by
  change EStateM.bind x y g = _ ↔ _
  unfold EStateM.bind
  cases x g <;> simp

lemma update_eq_ok {h : Node → Node} (hrun : update n h g = .ok () g') :
    g.isLive n = true ∧ g' = g.modify n h := by
  rw [update_run] at hrun
  cases hn : g.node? n with
  | none =>
    rw [hn] at hrun
    cases hrun
  | some r =>
    rw [hn] at hrun
    cases hrun
    exact ⟨isLive_of_node? hn, rfl⟩

lemma setType_eq_ok (hrun : setType n type g = .ok () g') :
    g.isLive n = true ∧ g' = g.modify n ({ · with type }) := by
  cases type with
  | none => exact update_eq_ok hrun
  | some t =>
    cases ht : g.node? t with
    | none =>
      have hfail : setType n (some t) g = .error (.unknownHandle t) g :=
        bind_failed (by rw [get_run, ht])
      rw [hfail] at hrun
      cases hrun
    | some r =>
      have hset : setType n (some t) g = update n ({ · with type := some t }) g :=
        bind_run (get_ok ht)
      exact update_eq_ok (hset.symm.trans hrun)

/-- What is to have a type that is not there stays without one. -/
lemma added_of_failed_typed {rest : NodeId → GraphM β}
    (hrest : ∀ n g, g.isLive n = true → succeeds (rest n g) = true)
    (h : (do let n ← create kind name home; setType n type; rest n : GraphM β) g = .error f g') :
    g.Added { kind, name, owner := home } g' := by
  rcases bind_eq_error.mp h with hcreate | ⟨n, g₁, hcreate, h⟩
  · exact added_of_failed hcreate
  rcases bind_eq_error.mp h with htype | ⟨_, g₂, htype, h⟩
  · rw [(FailsFirst.setType n type).unchanged htype]
    exact added_of_created hcreate
  · obtain ⟨hn, rfl⟩ := setType_eq_ok htype
    have hdone := hrest n (g₁.modify n ({ · with type })) ((isLive_modify n _ n).trans hn)
    rw [h] at hdone
    cases hdone

/-- An end that is to have a type that is not there stays without one. -/
lemma ends_buildEnd {a t : NodeId} {isNavigable : Bool} (ha : g.isLive a = true) :
    Ends (buildEnd a t isNavigable g) (fun _ g' => ∀ m, g.isLive m = true → g'.isLive m = true)
      (g.Built { kind := .associationEnd, owner := some a, association := some a, isNavigable }) := by
  obtain ⟨g₁, hrun, hb⟩ := create_under g .associationEnd none ha
  have hb' := hb.modify (f := ({ · with association := some a, isNavigable })) rfl rfl
  unfold buildEnd
  refine Ends.bind_ok hrun (Ends.bind_ok (modify_run _ _) ?_)
  cases hset : setType g.next (some t) (g₁.modify g.next fun r =>
      { r with association := some a, isNavigable }) with
  | ok _ g₂ =>
    obtain ⟨-, rfl⟩ := setType_eq_ok hset
    exact fun m hm => (isLive_modify _ _ m).trans (hb'.live hm)
  | error e g₂ =>
    rw [(FailsFirst.setType _ _).unchanged hset]
    exact hb'

end GraphM

namespace Mutation

/-- A call that has written by the time it looks at the handle that is not there. -/
def Late (g : Graph) : Mutation → Prop
  | .create .. | .buildOperation .. | .buildAttribute .. | .buildParameter .. => True
  | .setNamespace n _ | .removeTaggedValues n _ | .buildAssociation _ _ n _ _ => g.isLive n = true
  | _ => False

/-- What such a call leaves when it fails: an element that is not finished, or not in the list of an
owner, or some of the tagged values. -/
def Leaves (g g' : Graph) : Mutation → Prop
  | .create kind name home => g.Added { kind, name, owner := home } g'
  | .buildOperation c name => g.Added { kind := .operation, name, owner := some c } g'
  | .buildAttribute c _ name => g.Added { kind := .attr, name, owner := some c } g'
  | .buildParameter op _ name _ => g.Added { kind := .parameter, name, owner := some op } g'
  | .setNamespace n home => ∃ r p, g.node? n = some r ∧ home = some p ∧ ¬g.isLive p = true ∧
      g.Moved n r home g'
  | .removeTaggedValues n tag => ∃ r, g.node? n = some r ∧
      ∃ t ∈ g.selectIn r.taggedValues (·.name = some tag), ¬g'.isLive t = true
  | .buildAssociation _ targetNavigable source _ name => ∃ r g₁, g.node? source = some r ∧
      g.Built { kind := .association, name, owner := r.owner } g₁ ∧
      g₁.Built { kind := .associationEnd, owner := some g.next, association := some g.next,
                 isNavigable := targetNavigable } g'
  | _ => g' = g

/-- What is left differs from what there was. -/
lemma Leaves.changed (hg : g.Intact) {c : Mutation} (hc : c.Late g) (h : c.Leaves g g') :
    ∃ m, g'.node? m ≠ g.node? m := by
  cases c with
  | create | buildOperation | buildAttribute | buildParameter => exact Added.changed h
  | setNamespace n home =>
    obtain ⟨r, p, hr, rfl, hp, hm⟩ := h
    refine ⟨n, fun heq => hp ?_⟩
    rw [hm.node, hr, Option.map_some, Option.some.injEq] at heq
    have howner := Node.owner_relocated n n r r (some p)
    rw [heq, if_pos rfl] at howner
    exact hg hr p (by simp [Node.references, Node.links, howner])
  | removeTaggedValues n tag =>
    obtain ⟨r, -, t, ht, hgone⟩ := h
    refine ⟨t, fun heq => hgone ?_⟩
    rw [Graph.isLive, heq]
    obtain ⟨x, hx, -⟩ := (Option.any_eq_true _ _).mp (List.mem_filter.mp ht).2
    exact isLive_of_node? hx
  | buildAssociation =>
    obtain ⟨r, g₁, hr, h₁, h₂⟩ := h
    refine ⟨g.next, fun heq => ?_⟩
    have hlive := h₂.live (isLive_of_node? h₁.new_node)
    rw [Graph.isLive, heq, node?_next] at hlive
    exact Bool.noConfusion hlive
  | _ => exact hc.elim

lemma leaves_setNamespace (hn : g.isLive n = true)
    (h : GraphM.setNamespace n home g = .error f g') : (setNamespace n home).Leaves g g' := by
  obtain ⟨r, hr⟩ := isLive_iff.mp hn
  have hmoved : g.Moved n r home g' := by
    simpa only [h, finalState] using GraphM.moved_setNamespace hr home
  by_contra hnone
  have hlive : ∀ p, home = some p → g.isLive p = true := by
    intro p hp
    by_contra hdead
    exact hnone ⟨r, p, hr, hp, hdead, hmoved⟩
  obtain ⟨_, hrun, -⟩ := GraphM.setNamespace_ok hr hlive
  rw [hrun] at h
  cases h

/-- The end that is to have a type that is not there stays without one, and without its fellow. -/
lemma leaves_buildAssociation {target source : NodeId} {tn sn : Bool} (hg : g.Intact)
    (hs : g.isLive source = true)
    (h : GraphM.buildAssociation target tn source sn name g = .error f g') :
    (buildAssociation target tn source sn name).Leaves g g' := by
  obtain ⟨r, hr⟩ := isLive_iff.mp hs
  have howner : ∀ p, r.owner = some p → g.isLive p = true := fun p hp =>
    hg hr p (by simp [Node.references, Node.links, hp])
  obtain ⟨g₁, hrun₁, hb₁⟩ := GraphM.create_ok g .association name r.owner howner
  have hn := isLive_of_node? hb₁.new_node
  have hends : Ends (GraphM.buildAssociation target tn source sn name g) (fun _ _ => True)
      (g₁.Built { kind := .associationEnd, owner := some g.next, association := some g.next,
                  isNavigable := tn }) := by
    unfold GraphM.buildAssociation
    refine Ends.bind_ok (GraphM.namespace_run hr) (Ends.bind_ok hrun₁ ?_)
    refine (GraphM.ends_buildEnd hn).bind fun _ g₂ hlive => ?_
    obtain ⟨g₃, hrun₃, -⟩ := GraphM.buildEnd_ok sn (hlive _ hn) (hlive _ (hb₁.live hs))
    exact Ends.bind_ok hrun₃ trivial
  rw [h] at hends
  exact ⟨r, g₁, hr, hb₁, hends⟩

/-- What went with a tagged value can be another one that is to be deleted. -/
lemma ends_deletes {victims : List NodeId} (hv : ∀ v ∈ victims, g.isLive v = true) :
    Ends (victims.forM GraphM.delete g) (fun _ _ => True)
      (fun g' => ∃ v ∈ victims, ¬g'.isLive v = true) := by
  cases victims with
  | nil => trivial
  | cons v vs =>
    have hfirst := GraphM.delete_ok (hv v (by simp))
    have hgone : ¬(g.remove (g.doomedWith v)).isLive v = true := fun h =>
      (isLive_remove.mp h).2 (self_mem_doomedWith (hv v (by simp)))
    have hrest : Ends (vs.forM GraphM.delete (g.remove (g.doomedWith v)))
        (fun _ g => ¬g.isLive v = true) (fun g => ¬g.isLive v = true) := by
      refine Ends.forM (P := fun g : Graph => ¬g.isLive v = true) (fun w _ s hs => ?_) hgone
      by_cases hw : s.isLive w = true
      · rw [GraphM.delete_ok hw]
        exact fun h => hs (isLive_remove.mp h).1
      · rw [GraphM.delete_unknown hw]
        exact hs
    exact Ends.bind_ok hfirst (hrest.mono (fun _ _ _ => trivial) fun s hs => ⟨v, by simp, hs⟩)

lemma leaves_removeTaggedValues {tag : String} (hg : g.Intact) (hn : g.isLive n = true)
    (h : GraphM.removeTaggedValues n tag g = .error f g') :
    (removeTaggedValues n tag).Leaves g g' := by
  obtain ⟨r, hr⟩ := isLive_iff.mp hn
  have hparts : ∀ c ∈ r.taggedValues, g.isLive c = true := fun c hc =>
    hg hr c (List.mem_append_right _ (Node.mem_parts.mpr ⟨.taggedValues, hc⟩))
  have hvictims : GraphM.query (·.followAll (·.name = some tag) r.taggedValues) g =
      .ok (g.selectIn r.taggedValues (·.name = some tag)) g :=
    GraphM.query_ok (followAll_of_live hparts)
  have hends : Ends (GraphM.removeTaggedValues n tag g) (fun _ _ => True) (fun g' =>
      ∃ v ∈ g.selectIn r.taggedValues (·.name = some tag), ¬g'.isLive v = true) := by
    unfold GraphM.removeTaggedValues
    refine Ends.bind_ok (GraphM.get_ok hr) (Ends.bind_ok hvictims ?_)
    exact (ends_deletes fun v hv => hparts v (List.mem_of_mem_filter hv)).bind fun _ _ _ => trivial
  rw [h] at hends
  exact ⟨r, hr, hends⟩

lemma discard_eq_error {x : GraphM α} (h : discard x g = .error f g') : x g = .error f g' := by
  change EStateM.map _ x g = _ at h
  unfold EStateM.map at h
  cases hx : x g with
  | ok a t => simp [hx] at h
  | error e t => simpa [hx] using h

lemma leaves_run (hg : g.Represented) {c : Mutation} (hc : c.Late g) (h : c.run g = .error f g') :
    c.Leaves g g' := by
  cases c with
  | create => exact GraphM.added_of_failed (discard_eq_error h)
  | buildOperation => exact GraphM.added_of_failed (discard_eq_error h)
  | buildAttribute =>
    exact GraphM.added_of_failed_typed (fun _ _ _ => rfl) (discard_eq_error h)
  | buildParameter op type name direction =>
    refine GraphM.added_of_failed_typed (fun n t hn => ?_) (discard_eq_error h)
    have hlast := GraphM.update_ok ({ · with direction := some direction }) hn
    rw [bind_run hlast]
    rfl
  | setNamespace => exact leaves_setNamespace hc h
  | removeTaggedValues => exact leaves_removeTaggedValues hg.intact hc (discard_eq_error h)
  | buildAssociation => exact leaves_buildAssociation hg.intact hc (discard_eq_error h)
  | _ => exact hc.elim

/-- Taking over fails only if there is nothing to take over from or nobody to do it. -/
lemma failsFirst_replaceReferences (hg : g.Represented) (old new : NodeId) :
    FailsFirst (GraphM.replaceReferences old new) g := by
  refine .get fun r hr => .get fun rn hrn => ?_
  let Same (s : Graph) : Prop := ∀ m, s.kind? m = g.kind? m
  have live : ∀ {s m}, Same s → g.isLive m = true → s.isLive m = true := by
    intro s m hs hm
    obtain ⟨x, hx⟩ := isLive_iff.mp hm
    exact isLive_of_kind? ((hs m).trans (kind?_eq hx))
  have hnew := isLive_of_node? hrn
  refine Ends.mono (Q := fun _ => Same) (E := fun _ => False)
    (Ends.bind_ok (GraphM.modify_run _ _) ?_) (fun _ _ _ => trivial) fun _ => False.elim
  have hturned : Same (g.turned old new) := kind?_turned
  refine Ends.bind (Q := fun _ => Same)
    (Ends.loop_through (P := fun _ => Same) _ (fun _ slot _ s _ hs => ?_) hturned) fun _ s hs =>
    Ends.bind (Q := fun _ => Same)
      (Ends.loop_through (P := fun _ => Same) _ (fun done st left s hsplit hs => ?_) hs)
      fun _ t ht => Ends.answer ht
  · refine Ends.bind (Q := fun _ => Same) (Ends.loop_through (P := fun _ => Same) _
      (fun done part left s hsplit hs => ?_) hs) fun _ t ht => Ends.answer ⟨rfl, ht⟩
    have hin : part ∈ r.children slot := hsplit ▸ by simp
    have hpart : g.isLive part = true :=
      hg.intact hr part (List.mem_append_right _ (Node.mem_parts.mpr ⟨slot, hin⟩))
    obtain ⟨x, hx⟩ := isLive_iff.mp (live hs hpart)
    obtain ⟨t, hrun, hmoved⟩ := GraphM.setNamespace_ok hx fun p hp =>
      (Option.some.inj hp : new = p) ▸ live hs hnew
    exact Ends.bind_ok hrun (Ends.answer ⟨rfl, fun m => (hmoved.kind? m).trans (hs m)⟩)
  · have hin : st ∈ r.stereotypes := hsplit ▸ by simp
    obtain ⟨x, hx, hk⟩ := kind?_eq_some.mp ((hs st).trans (hg.stereotype hr st hin))
    have hrun := GraphM.addStereotype_run new st s
    rw [hx] at hrun
    simp only [hk, if_true] at hrun
    rw [GraphM.update_ok _ (live hs hnew)] at hrun
    exact Ends.bind_ok hrun (Ends.answer ⟨rfl, fun m =>
      (kind?_modify (fun r => by split <;> rfl) m).trans (hs m)⟩)

lemma failsFirst_setTaggedValue (n : NodeId) (tag value : String) :
    FailsFirst (GraphM.setTaggedValue n tag value) g := by
  refine .query fun tv htv => ?_
  cases tv with
  | some tv => exact .ok rfl
  | none =>
    obtain ⟨r, hr, -⟩ := except_bind_eq_ok.mp htv
    obtain ⟨g', hrun, -⟩ :=
      GraphM.create_under g .taggedValue (some tag) (isLive_of_node? (get_eq_ok.mp hr))
    exact .ok (bind_run hrun)

lemma failsFirst_removeClientDependency (client dependency : NodeId) :
    FailsFirst (GraphM.removeClientDependency client dependency) g := by
  let without (r : Node) : Node := { r with clients := r.clients.erase client }
  cases hr : g.node? dependency with
  | none => exact .error (bind_failed (by rw [GraphM.update_run, hr]))
  | some r =>
    have hrun := GraphM.update_ok without (isLive_of_node? hr)
    have hr' : (g.modify dependency without).node? dependency = some (without r) := by
      rw [node?_modify, if_pos rfl, hr, Option.map_some]
    have hdelete := GraphM.delete_ok (isLive_of_node? hr')
    refine Ends.bind_ok hrun (Ends.bind_ok (GraphM.get_ok hr') ?_)
    split_ifs
    · rw [hdelete]
      trivial
    · trivial

/-- All other calls look first. -/
lemma failsFirst_run (hg : g.Represented) {c : Mutation} (hc : ¬c.Late g) :
    FailsFirst c.run g := by
  cases c with
  | create | buildOperation | buildAttribute | buildParameter => exact absurd trivial hc
  | setNamespace n home =>
    have hn : g.node? n = none := node?_of_not_isLive hc
    exact .error (GraphM.setNamespace_unknown hn home)
  | delete n => exact .delete n
  | replaceReferences old new => exact failsFirst_replaceReferences hg old new
  | set n field => cases field <;> exact .update n _
  | setType n type => exact .setType n type
  | addStereotype n stereotype =>
    refine .get fun r _ => ?_
    split_ifs
    exacts [.error rfl, .update n _]
  | addBaseClass n baseClass => exact .update n _
  | setTaggedValue n tag value => exact .discard (failsFirst_setTaggedValue n tag value)
  | removeTaggedValues n tag =>
    exact .discard (.get fun r hr => absurd (isLive_of_node? hr) hc)
  | removeParameter op p =>
    refine .get fun r _ => ?_
    split_ifs
    exacts [.delete p, .error rfl]
  | buildGeneralization child parent =>
    refine .discard (.get fun _ _ => .query fun owner howner => ?_)
    obtain ⟨r, hr, rfl⟩ := except_map_eq_ok.mp howner
    exact .beside hg.intact (get_eq_ok.mp hr)
  | buildDependency client supplier kind name =>
    refine .discard ?_
    by_cases hk : kind.isDependency = true
    · simp only [GraphM.buildDependency, hk, Bool.not_true, Bool.false_eq_true, if_false]
      refine .get fun _ _ => .query fun owner howner => ?_
      obtain ⟨r, hr, rfl⟩ := except_map_eq_ok.mp howner
      exact .beside hg.intact (get_eq_ok.mp hr)
    · exact .error (GraphM.buildDependency_wrongKind hk)
  | removeClientDependency client dependency =>
    exact failsFirst_removeClientDependency client dependency
  | buildAssociation target tn source sn name =>
    refine .discard (.query fun owner howner => ?_)
    obtain ⟨r, hr, -⟩ := except_map_eq_ok.mp howner
    exact absurd (isLive_of_node? (get_eq_ok.mp hr)) hc
  | buildResidence resident container =>
    exact .discard (.get fun _ _ => .get fun _ _ => .ok rfl)

/-- A call that fails changes nothing, unless it has written by then. Then the graph is not what it
was: what has been built stays, without what the handle was to be used for, and what has been moved
stays with an owner that is not there. -/
theorem failed_call_leaves (hg : g.Represented) (c : Mutation) (h : c.run g = .error f g') :
    (¬c.Late g → g' = g) ∧ (c.Late g → c.Leaves g g' ∧ ∃ m, g'.node? m ≠ g.node? m) := by
  refine ⟨fun hc => (failsFirst_run hg hc).unchanged h, fun hc => ?_⟩
  have hleft := leaves_run hg hc h
  exact ⟨hleft, hleft.changed hg.intact hc⟩

end Mutation

/-- An attribute whose type is not there is in its class all the same, and a generalization whose
parent is not there is not built. -/
theorem failed_call_leaves_of_class :
    let g := Mutation.applyAll [.create .classType (some "A") (some root)] .empty
    g.Represented ∧
      (∃ f g', (Mutation.buildAttribute 20 (some 99) (some "x")).run g = .error f g' ∧
        g.Added { kind := .attr, name := some "x", owner := some 20 } g' ∧
        ∃ m, g'.node? m ≠ g.node? m) ∧
      ∃ f, (Mutation.buildGeneralization 20 99).run g = .error f g := by
  intro g
  have ha : Mutation.Admissible .empty [.create .classType (some "A") (some root)] := by
    decide +kernel
  have hg : g.Represented := represented_applyAll _ _ ha
  have hfails : succeeds ((Mutation.buildAttribute 20 (some 99) (some "x")).run g) = false := by
    decide +kernel
  have hfails' : succeeds ((Mutation.buildGeneralization 20 99).run g) = false := by decide +kernel
  clear_value g
  obtain ⟨f, hrun⟩ := exists_error_of_not_succeeds hfails
  obtain ⟨f', hrun'⟩ := exists_error_of_not_succeeds hfails'
  obtain ⟨hleft, hchanged⟩ := (Mutation.failed_call_leaves hg _ hrun).2 trivial
  rw [(Mutation.failed_call_leaves hg _ hrun').1 not_false] at hrun'
  exact ⟨hg, ⟨f, _, hrun, hleft, hchanged⟩, f', hrun'⟩

/-- A class below a handle that is not there stays in the graph, with that handle for an owner. -/
theorem orphan_of_failed_create :
    Graph.empty.Represented ∧
      ∃ f g', (Mutation.create .classType (some "A") (some 99)).run .empty = .error f g' ∧
        Graph.empty.node? 20 = none ∧
        g'.node? 20 = some { kind := .classType, name := some "A", owner := some 99 } := by
  have hfails : succeeds ((Mutation.create .classType (some "A") (some 99)).run .empty) = false := by
    decide +kernel
  obtain ⟨f, hrun⟩ := exists_error_of_not_succeeds hfails
  refine ⟨represented_new _ _, f, _, hrun, ?_, ?_⟩
  · decide +kernel
  · decide +kernel

end DeclGraph
