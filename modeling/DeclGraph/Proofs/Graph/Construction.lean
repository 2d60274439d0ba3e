import DeclGraph.Proofs.Graph.Admission
import DeclGraph.Proofs.Graph.Succession

/-! The operations of the graph as single changes, given elements of the right kinds. -/

namespace DeclGraph

open DeclGraph.Graph

namespace Node

/-- A record without what neither refers to other elements nor tells it apart from them. -/
def essence (r : Node) : Node :=
  { r with visibility := none, multiplicity := none, initialValue := none, value := none,
           direction := none, isAbstract := false, isLeaf := false, isRoot := false,
           isReadOnly := false, baseClasses := [] }

lemma essence_congr {r r' : Node} (h : r'.essence = r.essence) :
    r'.wiring = r.wiring ∧ r'.name = r.name ∧ r'.isNavigable = r.isNavigable ∧ r'.type = r.type := by
  have hw : r'.essence.wiring = r.essence.wiring := congrArg wiring h
  have hname : r'.essence.name = r.essence.name := congrArg name h
  have hnav : r'.essence.isNavigable = r.essence.isNavigable := congrArg isNavigable h
  have htype : r'.essence.type = r.essence.type := congrArg type h
  exact ⟨hw, hname, hnav, htype⟩

end Node

namespace Graph

variable {key : Key} {g g' : Graph} {n m p : NodeId} {r : Node} {k : NodeKind} {f : Node → Node}

/-- The elements that a record leads to are there and of the right kinds. -/
structure Joins (g : Graph) (r : Node) : Prop where
  classifier : ∀ y ∈ r.classifiers, ∃ k, g.kind? y = some k ∧ k.isClassifier = true
  container : ∀ c, r.container = some c → g.kind? c = some .component
  client : ∀ y ∈ r.clients ++ r.suppliers, ∃ k, g.kind? y = some k ∧ k.isEndpoint = true

lemma joins_of_endpoints (h : r.endpoints = []) : g.Joins r := by
  simp only [Node.endpoints, List.append_eq_nil_iff, Option.toList_eq_nil_iff] at h
  refine ⟨?_, ?_, ?_⟩ <;> simp [Node.classifiers, h]

lemma Joins.endpoint (h : g.Joins r) {y : NodeId} (hy : y ∈ r.endpoints) :
    ∃ k, g.kind? y = some k ∧ k.isEndpoint = true := by
  have hsplit : y ∈ r.classifiers ∨ y ∈ r.clients ++ r.suppliers ∨ r.container = some y := by
    simp only [Node.endpoints, Node.classifiers, List.mem_append, Option.mem_toList] at hy ⊢
    tauto
  rcases hsplit with hy | hy | hy
  · obtain ⟨k, hk, hc⟩ := h.classifier y hy
    exact ⟨k, hk, by rw [NodeKind.isEndpoint, hc, Bool.or_true, Bool.true_or]⟩
  · exact h.client y hy
  · exact ⟨_, h.container y hy, rfl⟩

/-- A record that is not that of a member. -/
lemma addable_of_role (hparts : ∀ s, r.children s = []) (hfit : r.FieldsFit)
    (howner : ∀ p, r.owner = some p → ∃ k, g.kind? p = some k ∧ k.mayOwn r.kind = true)
    (howned : r.kind ≠ .elementResidence → ∃ p, r.owner = some p) (hjoin : g.Joins r)
    (hst : r.stereotypes = []) (hassoc : ∀ a, r.association = some a → r.owner = some a)
    (hrole : r.kind.role? = none) (hcomplete : r.isComplete = true) : g.Addable r where
  parts := hparts
  fit := hfit
  live y hy := by
    have owner_live : ∀ p, r.owner = some p → g.isLive p = true := fun p hp => by
      obtain ⟨k, hk, _⟩ := howner p hp
      exact isLive_of_kind? hk
    have end_live : ∀ y ∈ r.endpoints, g.isLive y = true := fun y hy => by
      obtain ⟨k, hk, _⟩ := hjoin.endpoint hy
      exact isLive_of_kind? hk
    simp only [Node.links, hst, List.append_nil, List.mem_append, Option.mem_toList] at hy
    simp only [Node.endpoints, List.mem_append, Option.mem_toList] at end_live
    rcases hy with (((((((hy | hy) | hy) | hy) | hy) | hy) | hy) | hy) | hy
    · exact owner_live y hy
    · exact end_live y (by tauto)
    · exact end_live y (by tauto)
    · exact end_live y (by tauto)
    · exact end_live y (by tauto)
    · exact end_live y (by tauto)
    · exact end_live y (by tauto)
    · exact end_live y (by tauto)
    · exact owner_live y (hassoc y hy)
  ends := hassoc
  proper := by
    refine ⟨?_, by simp [hst], ?_, ?_, ?_, fun hk => howned ?_, by simp [hrole], hcomplete⟩
    · intro p k hp hk
      obtain ⟨k', hk', hmay⟩ := howner p hp
      rw [hk] at hk'
      exact Option.some.inj hk' ▸ hmay
    · intro y hy k hk
      obtain ⟨k', hk', he⟩ := hjoin.endpoint hy
      rw [hk] at hk'
      exact Option.some.inj hk' ▸ he
    · intro y hy k hk
      obtain ⟨k', hk', hc⟩ := hjoin.classifier y hy
      rw [hk] at hk'
      exact Option.some.inj hk' ▸ hc
    · intro c k hc hk
      exact Option.some.inj (hk.symm.trans (hjoin.container c hc))
    · rintro hr
      rw [hr] at hk
      exact Bool.noConfusion hk
  package hk := howned fun hr => by
    rw [hr] at hk
    exact Bool.noConfusion hk
  fresh := by simp [hrole]

/-- The record of a member with its name and perhaps its type. -/
lemma addable_member {kind : NodeKind} {name : String} {type : Option NodeId} {role : MemberRole}
    (hp : g.kind? p = some k) (hmay : k.mayOwn kind = true) (hrole : kind.role? = some role)
    (ht : ∀ y, type = some y → ∃ k, g.kind? y = some k ∧ k.isClassifier = true)
    (hfresh : k.isClassifier = true → ∀ m, ¬g.IsMember p role (some name) m) :
    g.Addable { kind, name := some name, owner := some p, type } where
  parts s := by cases s <;> rfl
  fit := ⟨fun _ => ⟨rfl, rfl⟩, fun _ => ⟨rfl, rfl⟩, fun _ => rfl⟩
  live y hy := by
    simp only [Node.links, Option.toList_some, Option.toList_none, List.append_nil,
      List.singleton_append, List.mem_cons, Option.mem_toList] at hy
    rcases hy with rfl | hy
    · exact isLive_of_kind? hp
    · obtain ⟨k, hk, _⟩ := ht y hy
      exact isLive_of_kind? hk
  ends := by simp
  proper := by
    have typed : ∀ y, type = some y → ∀ {k'}, g.kind? y = some k' → k'.isClassifier = true := by
      intro y hy k' hk'
      obtain ⟨k, hk, hc⟩ := ht y hy
      exact Option.some.inj (hk.symm.trans hk') ▸ hc
    refine ⟨?_, by simp, fun y hy {k'} hk' => ?_, fun y hy => ?_, by simp, fun _ => ⟨p, rfl⟩,
      fun _ => ⟨name, rfl⟩, ?_⟩
    · intro q k' hq hk'
      obtain rfl := Option.some.inj hq
      rw [hp] at hk'
      exact Option.some.inj hk' ▸ hmay
    · simp only [Node.endpoints, Option.toList_none, List.append_nil, Option.mem_toList] at hy
      rw [NodeKind.isEndpoint, typed y hy hk', Bool.or_true, Bool.true_or]
    · simp only [Node.classifiers, Option.toList_none, List.append_nil, Option.mem_toList] at hy
      exact typed y hy
    · revert hrole
      cases kind <;> first | exact fun _ => rfl | simp [NodeKind.role?]
  package _ := ⟨p, rfl⟩
  fresh := by
    intro q role' hq hrole' k' hk' hc
    obtain rfl := Option.some.inj hq
    obtain rfl := Option.some.inj (hrole.symm.trans hrole')
    rw [hp] at hk'
    exact hfresh (Option.some.inj hk' ▸ hc)

lemma edited_modify (hr : g.node? n = some r) : g.Edited n (f r) (g.modify n f) := by
  refine ⟨next_modify n f, ?_⟩
  intro m
  rw [node?_modify]
  split_ifs with hm
  · rw [hm, hr]
    rfl
  · rfl

lemma fits_essence {r' : Node} (h : r'.essence = r.essence) : g.Fits r' key ↔ g.Fits r key := by
  have hk : r'.kind = r.kind := congrArg (·.kind) h
  have ho : r'.owner = r.owner := congrArg (·.owner) h
  have hn : r'.name = r.name := congrArg (·.name) h
  have hge : r'.general = r.general := congrArg (·.general) h
  have hsp : r'.specific = r.specific := congrArg (·.specific) h
  have hc : r'.clients = r.clients := congrArg (·.clients) h
  have hs : r'.suppliers = r.suppliers := congrArg (·.suppliers) h
  have hre : r'.resident = r.resident := congrArg (·.resident) h
  have hst : r'.stereotypes = r.stereotypes := congrArg (·.stereotypes) h
  cases key <;> simp only [Fits, Connects, Marked, hk, hn, ho, hge, hsp, hc, hs, hre, hst]

namespace Sound

lemma build (h : g.Sound) (ha : g.Addable r) (hj : r.kind.isJoint = false) (hb : g.Built r g')
    (hfree : ∀ key, g.Fits r key → g.Free key) : g.Step (.build r) g' :=
  .build ha hj hb (hb.admits h ha hj hfree)

lemma move {home : NodeId} (h : g.Sound) (hr : g.node? n = some r) (hm : g.Movable n r home)
    (hmoved : g.Moved n r (some home) g')
    (hfree : ∀ key, g.Fits { r with owner := some home } key → g.Fits r key ∨ g.Free key) :
    g.Step (.move n home) g' :=
  .move hr hm hmoved (hmoved.admits h hr hm.notEnd hfree)

variable (h : g.Sound) (hr : g.node? n = some r)
include h hr

lemma editable (hp : r.SamePlace (f r)) (hfit : (f r).FieldsFit)
    (hassoc : (f r).association = r.association) (hname : (f r).name = r.name)
    (hcomplete : (f r).isComplete = r.isComplete)
    (hclients : (f r).clients = r.clients ∧ (f r).suppliers = r.suppliers)
    (hcontainer : (f r).container = r.container)
    (hend : ∀ y ∈ (f r).classifiers, y ∈ r.classifiers ∨
      ∃ k, g.kind? y = some k ∧ k.isClassifier = true)
    (hst : ∀ s ∈ (f r).stereotypes, s ∈ r.stereotypes ∨ g.kind? s = some .stereotype) :
    g.Editable r (f r) := by
  have hpr := h.proper hr
  have endpoint : ∀ y ∈ (f r).endpoints, y ∈ r.endpoints ∨
      ∃ k, g.kind? y = some k ∧ k.isClassifier = true := by
    intro y hy
    have hsplit : y ∈ (f r).classifiers ∨ y ∈ r.clients ∨ y ∈ r.suppliers ∨
        r.container = some y := by
      rw [← hclients.1, ← hclients.2, ← hcontainer]
      simp only [Node.endpoints, Node.classifiers, List.mem_append, Option.mem_toList] at hy ⊢
      tauto
    rcases hsplit with hy | hy
    · exact (hend y hy).imp_left fun hy => r.classifiers_subset_endpoints hy
    · simp only [Node.endpoints, List.mem_append, Option.mem_toList]
      tauto
  refine ⟨hp, hfit, ?_, hassoc, ?_, hname⟩
  · have end_live : ∀ y ∈ (f r).endpoints, g.isLive y = true := fun y hy => by
      rcases endpoint y hy with hy | ⟨k, hk, _⟩
      · exact h.live hr y (r.endpoints_subset_links hy)
      · exact isLive_of_kind? hk
    have st_live : ∀ y ∈ (f r).stereotypes, g.isLive y = true := fun y hy => by
      rcases hst y hy with hy | hk
      · exact h.live hr y (r.stereotypes_subset_links hy)
      · exact isLive_of_kind? hk
    have owner_live : ∀ y, (f r).owner = some y → g.isLive y = true := fun y hy =>
      h.owner_live hr (hp.owner ▸ hy)
    have assoc_live : ∀ y, (f r).association = some y → g.isLive y = true := fun y hy =>
      h.live hr y (by rw [hassoc] at hy; simp [Node.links, hy])
    intro y hy
    simp only [Node.links, List.mem_append, Option.mem_toList] at hy
    simp only [Node.endpoints, List.mem_append, Option.mem_toList] at end_live
    rcases hy with ((((((((hy | hy) | hy) | hy) | hy) | hy) | hy) | hy) | hy) | hy
    · exact owner_live y hy
    · exact end_live y (by tauto)
    · exact end_live y (by tauto)
    · exact end_live y (by tauto)
    · exact end_live y (by tauto)
    · exact end_live y (by tauto)
    · exact end_live y (by tauto)
    · exact end_live y (by tauto)
    · exact assoc_live y hy
    · exact st_live y hy
  · refine ⟨?_, ?_, ?_, ?_, ?_, ?_, ?_, hcomplete.trans hpr.complete⟩
    · rw [hp.owner, hp.kind]
      exact hpr.owner
    · intro s hs k hk
      rcases hst s hs with hs | hs
      · exact hpr.stereotype s hs hk
      · exact Option.some.inj (hk.symm.trans hs)
    · intro y hy k hk
      rcases endpoint y hy with hy | ⟨k', hk', hc⟩
      · exact hpr.endpoint y hy hk
      · rw [← Option.some.inj (hk'.symm.trans hk), NodeKind.isEndpoint, hc, Bool.or_true,
          Bool.true_or]
    · intro y hy k hk
      rcases hend y hy with hy | ⟨k', hk', hc⟩
      · exact hpr.classifier y hy hk
      · exact Option.some.inj (hk'.symm.trans hk) ▸ hc
    · rw [hcontainer]
      exact hpr.container
    · rw [hp.kind, hp.owner]
      exact hpr.owned
    · rw [hp.kind, hname]
      exact hpr.named

/-- A change that leaves the element in its place and under its name. -/
lemma edit (hp : r.SamePlace (f r)) (hfit : (f r).FieldsFit)
    (hassoc : (f r).association = r.association) (hname : (f r).name = r.name)
    (hcomplete : (f r).isComplete = r.isComplete)
    (hclients : (f r).clients = r.clients ∧ (f r).suppliers = r.suppliers)
    (hcontainer : (f r).container = r.container)
    (hend : ∀ y ∈ (f r).classifiers, y ∈ r.classifiers ∨
      ∃ k, g.kind? y = some k ∧ k.isClassifier = true)
    (hst : ∀ s ∈ (f r).stereotypes, s ∈ r.stereotypes ∨ g.kind? s = some .stereotype)
    (hsame : r.kind = .associationEnd → r.SameEnd (f r))
    (hfree : ∀ key, g.Fits (f r) key → g.Fits r key ∨ g.Free key) :
    g.Step (.edit n (f r)) (g.modify n f) := by
  have hed := h.editable hr hp hfit hassoc hname hcomplete hclients hcontainer hend hst
  exact .edit hr hed hsame (edited_modify hr) ((edited_modify hr).admits h hr hed hsame hfree)

lemma editable_plain (hf : (f r).essence = r.essence) :
    g.Editable r (f r) ∧ (r.kind = .associationEnd → r.SameEnd (f r)) := by
  obtain ⟨hw, hname, hnav, htype⟩ := Node.essence_congr hf
  obtain ⟨hk, hs, _, ha, hfit⟩ := Node.wiring_congr hw
  have hclients : (f r).wiring.clients = r.wiring.clients := congrArg Node.clients hw
  have hsuppliers : (f r).wiring.suppliers = r.wiring.suppliers := congrArg Node.suppliers hw
  have hcontainer : (f r).wiring.container = r.wiring.container := congrArg Node.container hw
  have he : (f r).essence.classifiers = r.essence.classifiers := congrArg Node.classifiers hf
  have hst : (f r).wiring.stereotypes = r.wiring.stereotypes := congrArg Node.stereotypes hw
  have hcomplete : (f r).essence.isComplete = r.essence.isComplete := congrArg Node.isComplete hf
  exact ⟨h.editable hr ⟨hk, hs.1, hs.2⟩ (hfit (h.fit hr)) ha hname hcomplete
    ⟨hclients, hsuppliers⟩ hcontainer
    (fun y hy => Or.inl (he ▸ hy : y ∈ r.essence.classifiers))
    (fun s hs => Or.inl (hst ▸ hs : s ∈ r.wiring.stereotypes)), fun _ => ⟨htype, hnav⟩⟩

/-- A change of what neither refers to other elements nor tells the element apart. -/
lemma edit_plain (hf : (f r).essence = r.essence) :
    g.Step (.edit n (f r)) (g.modify n f) := by
  obtain ⟨hed, hsame⟩ := h.editable_plain hr hf
  exact .edit hr hed hsame (edited_modify hr) ((edited_modify hr).admits h hr hed hsame
    fun _ hf' => Or.inl ((fits_essence hf).mp hf'))

lemma bypasses_plain (hf : (f r).essence = r.essence) : g.Bypasses (g.modify n f) := by
  obtain ⟨hed, hsame⟩ := h.editable_plain hr hf
  have he := edited_modify (f := f) hr
  refine ⟨he.releases h hr hed hsame fun _ => (fits_essence hf).mp, fun {m r'} hr' _ => ?_⟩
  rw [he.node] at hr'
  split_ifs at hr' with hm
  · obtain rfl := Option.some.inj hr'
    have hc : (f r).essence.clients = r.essence.clients := congrArg Node.clients hf
    have hs : (f r).essence.suppliers = r.essence.suppliers := congrArg Node.suppliers hf
    exact ⟨r, hm ▸ hr, hed.place.kind, hc, hs⟩
  · exact ⟨r', hr', rfl, rfl, rfl⟩

/-- A new type, which an end of an association cannot get. -/
lemma edit_type {t : Option NodeId}
    (ht : ∀ y, t = some y → ∃ k, g.kind? y = some k ∧ k.isClassifier = true)
    (hsame : r.kind = .associationEnd → t = r.type) :
    g.Step (.edit n { r with type := t }) (g.modify n ({ · with type := t })) := by
  have hfit := h.fit hr
  refine h.edit (f := ({ · with type := t })) hr ⟨rfl, rfl, fun s => by cases s <;> rfl⟩
    ⟨hfit.generalization, hfit.residence, hfit.associationEnd⟩ rfl rfl rfl ⟨rfl, rfl⟩ rfl ?_
    (fun _ => Or.inl) (fun hk => ⟨hsame hk, rfl⟩) ?_
  · intro y hy
    by_cases hty : t = some y
    · exact Or.inr (ht y hty)
    · simp only [Node.classifiers, List.mem_append, Option.mem_toList] at hy ⊢
      exact Or.inl (by tauto)
  · intro key hf
    cases key <;> exact Or.inl hf

/-- One more stereotype. A dependency may be told apart by what it connects from then on. -/
lemma edit_stereotype {st : NodeId} (hst : g.kind? st = some .stereotype)
    (hfree : r.kind.isDependency = true → ∀ c ∈ r.clients, ∀ p ∈ r.suppliers,
      g.Free (.edge r.kind c p)) :
    g.Step (.edit n (if st ∈ r.stereotypes then r
      else { r with stereotypes := r.stereotypes ++ [st] }))
      (g.modify n fun r => if st ∈ r.stereotypes then r
        else { r with stereotypes := r.stereotypes ++ [st] }) := by
  have hfit := h.fit hr
  refine h.edit (f := fun r => if st ∈ r.stereotypes then r
    else { r with stereotypes := r.stereotypes ++ [st] }) hr ?_ ?_ ?_ ?_ ?_ ?_ ?_ ?_ ?_ ?_ ?_
  · split_ifs
    exacts [.refl r, ⟨rfl, rfl, fun s => by cases s <;> rfl⟩]
  · split_ifs
    exacts [hfit, ⟨hfit.generalization, hfit.residence, hfit.associationEnd⟩]
  · split_ifs <;> rfl
  · split_ifs <;> rfl
  · split_ifs <;> rfl
  · split_ifs <;> exact ⟨rfl, rfl⟩
  · split_ifs <;> rfl
  · intro y hy
    split_ifs at hy <;> exact Or.inl hy
  · intro s hs
    split_ifs at hs with hin
    · exact Or.inl hs
    · rcases List.mem_append.mp hs with hs | hs
      · exact Or.inl hs
      · exact Or.inr (List.mem_singleton.mp hs ▸ hst)
  · intro _
    split_ifs <;> exact ⟨rfl, rfl⟩
  · intro key hf
    split_ifs at hf with hin
    · exact Or.inl hf
    cases key with
    | edge k c p =>
      obtain ⟨rfl, hc⟩ := hf
      unfold Connects at hc
      dsimp only at hc
      cases hk : r.kind <;> rw [hk] at hc hfree <;> first
        | exact hc.elim
        | exact Or.inr (hfree rfl c hc.1 p hc.2.1)
        | exact Or.inl ⟨hk, by unfold Connects; rw [hk]; exact hc⟩
    | _ => exact Or.inl hf

end Sound

end Graph

end DeclGraph
