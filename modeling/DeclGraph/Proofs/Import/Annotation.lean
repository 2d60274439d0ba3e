import DeclGraph.Import.Member
import DeclGraph.Proofs.Graph.Membership
import DeclGraph.Proofs.Import.Naming

/-! What the importer notes about elements that are there: plain properties, types, stereotypes and
tagged values. -/

namespace DeclGraph

open DeclGraph.Graph

namespace Graph

variable {P : Graph → Change → Prop} {g g' g'' : Graph} {n m : NodeId} {tag : String}

/-- Elements may have gone, and those that stay are where they were. -/
structure Shrunk (g g' : Graph) : Prop where
  stays : ∀ {m r'}, g'.node? m = some r' → ∃ r, g.node? m = some r ∧ r'.kind = r.kind ∧
    r'.owner = r.owner ∧ r'.name = r.name

lemma Shrunk.refl (g : Graph) : g.Shrunk g := ⟨fun hr => ⟨_, hr, rfl, rfl, rfl⟩⟩

lemma Shrunk.trans (h : g.Shrunk g') (h' : g'.Shrunk g'') : g.Shrunk g'' := by
  refine ⟨fun {m r''} hr'' => ?_⟩
  obtain ⟨r', hr', hk', ho', hn'⟩ := h'.stays hr''
  obtain ⟨r, hr, hk, ho, hn⟩ := h.stays hr'
  exact ⟨r, hr, hk'.trans hk, ho'.trans ho, hn'.trans hn⟩

lemma Shrunk.remove (g : Graph) (doomed : List NodeId) : g.Shrunk (g.remove doomed) := by
  refine ⟨fun {m r'} hr' => ?_⟩
  obtain ⟨_, r, hr, rfl⟩ := node?_remove_eq_some.mp hr'
  exact ⟨r, hr, rfl, rfl, rfl⟩

lemma isPlaceholder_eq_true (h : g.Sound) (hp : g.isPlaceholder n = .ok true) :
    g.Tagged n generatedTag := by
  unfold isPlaceholder taggedValue? at hp
  cases hr : g.node? n with
  | none =>
    rw [GraphM.taggedValueNode?_none hr] at hp
    exact nomatch hp
  | some r =>
    rw [GraphM.taggedValueNode?_ok h.toLinked hr] at hp
    cases hf : g.findIn r.taggedValues (·.name = some generatedTag) with
    | none => simp [hf] at hp
    | some t =>
      obtain ⟨ht, rt, hrt, hname⟩ := findIn_eq_some hf
      obtain ⟨rt', hrt', ho, -⟩ := (h.mem_children hr .taggedValues t).mp ht
      obtain rfl := Option.some.inj (hrt.symm.trans hrt')
      have hkt := h.kind?_taggedValue hr ht
      rw [kind?_eq hrt] at hkt
      exact ⟨t, rt, hrt, Option.some.inj hkt, ho, by simpa using hname⟩

end Graph

lemma GraphM.ends_query {α : Type} {f : Graph → Except GraphFault α} {g : Graph}
    {E : Graph → Prop} (h : E g) : Ends (GraphM.query f g) (fun _ g' => g' = g) E := by
  unfold GraphM.query
  cases hf : f g with
  | ok a => simp [Ends]
  | error e => simpa [Ends] using h

namespace ImportM

variable {α : Type} {s s' : UnitState} {u : UnitContext} {n m : NodeId} {k : NodeKind}
  {made edited : List NodeKind} {P : Permit}

/-- A change of the graph as a run of permitted changes. -/
lemma performs_change {m : GraphM α} {Q : α → Graph → Prop}
    (h : Ends (m s.graph) (fun a g => Steps P s.graph g ∧ Q a g) fun g => Steps P s.graph g) :
    Performs P s (change m s) fun a s' => s.SameUnit s' ∧ Q a s'.graph := by
  unfold change
  cases hm : m s.graph with
  | ok a g =>
    rw [hm] at h
    exact ⟨⟨h.1, ⟨rfl, rfl⟩, h.2⟩⟩
  | error e g =>
    rw [hm] at h
    exact ⟨h⟩

/-- A loop whose body keeps an invariant. -/
lemma performs_forM {xs : List α} {f : α → ImportM PUnit} {I : UnitState → Prop}
    (hf : ∀ a ∈ xs, ∀ s, I s → Performs P s (f a s) fun _ s' => I s') (hs : I s) :
    Performs P s ((xs.forM f : ImportM PUnit) s) fun _ s' => I s' := by
  induction xs generalizing s with
  | nil => exact Performs.answer hs
  | cons a xs ih =>
    change Performs P s ((f a >>= fun _ => xs.forM f) s) _
    exact Performs.bind (hf a (by simp) s hs) fun _ t _ ht => ih (fun b hb => hf b (by simp [hb])) ht

lemma performs_update {f : Node → Node} (hn : s.graph.Once n (· ∈ edited))
    (hf : ∀ r, s.graph.node? n = some r →
      s.graph.Step (.edit n (f r)) (s.graph.modify n f)) :
    Performs (.within u made edited) s (change (.update n f) s) fun _ s' => s.SameUnit s' := by
  refine (performs_change (Q := fun _ _ => True) ?_).imp fun _ _ h => h.1
  rw [GraphM.update_run]
  cases hr : s.graph.node? n with
  | none => exact Steps.refl
  | some r =>
    have hk := kind?_eq hr
    exact ⟨(hf r hr).permitted ⟨_, hn.kind hk, hk⟩, trivial⟩

lemma performs_plain {f : Node → Node} (h : s.graph.Sound) (hn : s.graph.Once n (· ∈ edited))
    (hf : ∀ r, (f r).essence = r.essence) :
    Performs (.within u made edited) s (change (.update n f) s) fun _ s' => s.SameUnit s' :=
  performs_update hn fun r hr => h.edit_plain hr (hf r)

lemma performs_setType (h : s.graph.Sound) (hn : s.graph.Once n (· ∈ edited))
    {type : Option NodeId} (ht : ∀ y, type = some y → s.graph.Once y (·.isClassifier = true))
    (hsame : ∀ {r}, s.graph.node? n = some r → r.kind = .associationEnd → type = r.type) :
    Performs (.within u made edited) s (change (.setType n type) s) fun _ s' => s.SameUnit s' := by
  cases type with
  | none => exact performs_update hn fun r hr => h.edit_type hr (by simp) (hsame hr)
  | some t =>
    refine (performs_change (Q := fun _ _ => True) ?_).imp fun _ _ h => h.1
    cases hl : s.graph.node? t with
    | none =>
      have hset : GraphM.setType n (some t) s.graph = .error (.unknownHandle t) s.graph := by
        unfold GraphM.setType
        exact bind_failed (by rw [GraphM.get_run, hl])
      rw [hset]
      exact Steps.refl
    | some rt =>
      have hset : GraphM.setType n (some t) s.graph =
          GraphM.update n ({ · with type := some t }) s.graph := by
        unfold GraphM.setType
        exact bind_run (GraphM.get_ok hl)
      rw [hset, GraphM.update_run]
      cases hr : s.graph.node? n with
      | none => exact Steps.refl
      | some r =>
        have hk := kind?_eq hr
        have hstep := h.edit_type hr (t := some t) (fun y hy =>
          ⟨_, Option.some.inj hy ▸ kind?_eq hl, (ht t rfl).kind (kind?_eq hl)⟩) (hsame hr)
        exact ⟨hstep.permitted ⟨_, hn.kind hk, hk⟩, trivial⟩

lemma performs_addStereotype (h : s.graph.Sound) (hn : s.graph.Once n (· ∈ edited))
    (hv : s.graph.Vacant n) (st : NodeId) : Performs (.within u made edited) s (change (.addStereotype n st) s)
      fun _ s' => s.SameUnit s' := by
  refine (performs_change (Q := fun _ _ => True) ?_).imp fun _ _ h => h.1
  rw [GraphM.addStereotype_run]
  cases hst : s.graph.node? st with
  | none => exact Steps.refl
  | some rst =>
    by_cases hk : rst.kind = .stereotype
    · simp only [hk, if_true]
      rw [GraphM.update_run]
      cases hr : s.graph.node? n with
      | none => exact Steps.refl
      | some r =>
        have hkr := kind?_eq hr
        have hks : s.graph.kind? st = some .stereotype := by rw [kind?_eq hst, hk]
        have hstep := h.edit_stereotype hr hks (hv _ hr)
        exact ⟨hstep.permitted ⟨_, hn.kind hkr, hkr⟩, trivial⟩
    · simp only [hk, if_false]
      exact Steps.refl

lemma performs_setTaggedValue (h : s.graph.Sound)
    (hn : s.graph.Once n (·.mayOwn .taggedValue = true))
    (tag value : String) (htag : tag ≠ generatedTag) (hm : .taggedValue ∈ made)
    (he : .taggedValue ∈ edited) :
    Performs (.within u made edited) s (change (.setTaggedValue n tag value) s)
      fun _ s' => s.SameUnit s' := by
  refine (performs_change (Q := fun _ _ => True) ?_).imp fun _ _ h => h.1
  cases hr : s.graph.node? n with
  | none =>
    have hset : GraphM.setTaggedValue n tag value s.graph =
        .error (.unknownHandle n) s.graph := by
      unfold GraphM.setTaggedValue
      exact bind_failed (by simp [GraphM.query, GraphM.taggedValueNode?_none hr])
    rw [hset]
    exact Steps.refl
  | some r =>
    obtain ⟨tv, hfind, hrun⟩ | ⟨hfind, g', hrun, hb⟩ := GraphM.setTaggedValue_ok h.toLinked hr tag value
    · rw [hrun]
      have hkt := h.kind?_taggedValue hr (findIn_eq_some hfind).1
      obtain ⟨rt, hrt⟩ := isLive_iff.mp (isLive_of_kind? hkt)
      have hstep := h.edit_plain (f := ({ · with value := some value })) hrt rfl
      exact ⟨hstep.permitted ⟨_, he, hkt⟩, trivial⟩
    · rw [hrun]
      have hne := hn.kind (kind?_eq hr)
      have hadd : s.graph.Addable
          { kind := .taggedValue, name := some tag, owner := some n, value := some value } := by
        refine addable_of_role (fun s => by cases s <;> rfl) ⟨by simp, by simp, by simp⟩ ?_
          (fun _ => ⟨n, rfl⟩) (joins_of_endpoints rfl) rfl (by simp) rfl rfl
        rintro p hp
        exact ⟨_, Option.some.inj hp ▸ kind?_eq hr, hne⟩
      have hfree : s.graph.Free (.place .taggedValue (some n) (some tag)) :=
        h.free_place hr (k := .taggedValue) hfind fun x _ hname => by simp [hname]
      have hstep := h.build hadd rfl hb fun key hf => eq_place_of_fits rfl hf ▸ hfree
      refine ⟨hstep.permitted ⟨hm, fun _ => ?_⟩, trivial⟩
      simpa using htag

lemma performs_addDocumentation (h : s.graph.Sound)
    (hn : s.graph.Once n (·.mayOwn .taggedValue = true))
    (doc : Option String) (hm : .taggedValue ∈ made) (he : .taggedValue ∈ edited) :
    Performs (.within u made edited) s (change (.addDocumentation n doc) s)
      fun _ s' => s.SameUnit s' := by
  cases hd : doc.bind DocComment.clean with
  | none =>
    refine Performs.same (t := s) (a := none) ?_ rfl (.refl s)
    simp only [change, GraphM.addDocumentation, hd]
    rfl
  | some text =>
    have hset := (performs_setTaggedValue (u := u) h hn documentationTag text (by decide) hm he).ends
    refine (performs_change (Q := fun _ _ => True) ?_).imp fun _ _ h => h.1
    simp only [GraphM.addDocumentation, hd]
    refine Ends.bind (Q := fun _ g => Steps (Permit.within u made edited) s.graph g) ?_
      fun _ _ hs => Ends.answer ⟨hs, trivial⟩
    unfold change at hset
    cases hrun : GraphM.setTaggedValue n documentationTag text s.graph with
    | ok a g =>
      rw [hrun] at hset
      exact hset.1
    | error e g =>
      rw [hrun] at hset
      exact hset

/-- Deleting elements one after the other leaves none of them. -/
lemma ends_deletes (made : List NodeKind) {g : Graph} {ns : List NodeId} (h : g.Sound)
    (hns : ∀ n ∈ ns, g.Once n fun k => k ∈ made ∧ k.isPackage = false ∧ k ≠ .stereotype) :
    Ends ((ns.forM GraphM.delete : GraphM PUnit) g)
      (fun _ g' => Steps (Permit.within u made edited) g g' ∧ g.Shrunk g' ∧
        ∀ n ∈ ns, ¬g'.isLive n = true)
      fun g' => Steps (Permit.within u made edited) g g' := by
  induction ns generalizing g with
  | nil => exact ⟨.refl, .refl g, by simp⟩
  | cons n ns ih =>
    change Ends ((GraphM.delete n >>= fun _ => ns.forM GraphM.delete) g) _ _
    cases hr : g.node? n with
    | none =>
      rw [bind_failed (GraphM.delete_unknown (by simp [Graph.isLive, hr]))]
      exact Steps.refl
    | some r =>
      have hl := isLive_of_node? hr
      obtain ⟨hm, hnp, hst⟩ := (hns n (by simp)).kind (kind?_eq hr)
      have hs : Steps (Permit.within u made edited) g (g.remove (g.doomedWith n)) :=
        (Step.delete hr hnp).permitted ⟨_, hm, kind?_eq hr, hst⟩
      refine Ends.bind_ok (GraphM.delete_ok hl) ?_
      refine (ih (h.steps hs) fun m hm => (hns m (by simp [hm])).steps hs).mono ?_ ?_
      · rintro _ g' ⟨hs', hsh, hgone⟩
        refine ⟨hs.trans hs', (Shrunk.remove g _).trans hsh, ?_⟩
        intro m hm hml
        rcases List.mem_cons.mp hm with rfl | hm
        · have := hs'.ages.live m ((hns m (by simp)).steps hs).old hml
          exact (isLive_remove.mp this).2 (self_mem_doomedWith hl)
        · exact hgone m hm hml
      · exact fun _ hs' => hs.trans hs'

lemma performs_removeTaggedValues (h : s.graph.Sound) (n : NodeId) (tag : String)
    (hm : .taggedValue ∈ made) :
    Performs (.within u made edited) s (change (.removeTaggedValues n tag) s)
      fun _ s' => s.SameUnit s' ∧ ¬s'.graph.Tagged n tag := by
  refine performs_change (Q := fun _ g => ¬g.Tagged n tag) ?_
  cases hr : s.graph.node? n with
  | none =>
    have hrun : GraphM.removeTaggedValues n tag s.graph = .error (.unknownHandle n) s.graph := by
      unfold GraphM.removeTaggedValues
      exact bind_failed (by rw [GraphM.get_run, hr])
    rw [hrun]
    exact Steps.refl
  | some r =>
    rw [GraphM.removeTaggedValues_run h.toLinked hr]
    refine Ends.bind (ends_deletes made h ?_) ?_
    · intro t ht
      exact once (h.kind?_taggedValue hr (List.mem_filter.mp ht).1) ⟨hm, rfl, by decide⟩
    · rintro _ g' ⟨hs, hsh, hgone⟩
      refine Ends.answer ⟨hs, ?_⟩
      rintro ⟨t, rt', hrt', hk', ho', hn'⟩
      obtain ⟨rt, hrt, hk, ho, hname⟩ := hsh.stays hrt'
      refine hgone t (List.mem_filter.mpr ⟨?_, ?_⟩) (isLive_of_node? hrt')
      · exact (h.mem_children hr .taggedValues t).mpr
          ⟨rt, hrt, ho ▸ ho', by rw [← hk, hk']; rfl⟩
      · simp [hrt, ← hname, hn']

/-- Making a stereotype, if that is allowed. -/
lemma ends_synthesized (h : s.graph.Sound) (name : String) (base : Option String)
    (hm : .stereotype ∈ made) (he : .stereotype ∈ edited) :
    Ends ((if s.registry.allowSynthesis then do
        let n ← GraphM.create .stereotype (some name) (some root)
        if let some b := base then GraphM.addBaseClass n b
        let s := { s.registry with synthesized := s.registry.synthesized ++ [n] }
        return (.ok n, s.remember name base n)
      else return (.error ⟨name, base⟩, s.registry) :
        GraphM (Except MissingStereotype NodeId × StereotypeRegistry)) s.graph)
      (fun _ g => Steps (Permit.within u made edited) s.graph g ∧ s.graph.Bypasses g)
      fun g => Steps (Permit.within u made edited) s.graph g := by
  split_ifs
  · obtain ⟨g', hrun, hb⟩ := GraphM.create_under s.graph .stereotype (some name) h.root_live
    have hadd : s.graph.Addable
        { kind := .stereotype, name := some name, owner := some root } := by
      refine addable_of_role (fun s => by cases s <;> rfl) ⟨by simp, by simp, by simp⟩ ?_
        (fun _ => ⟨root, rfl⟩) (joins_of_endpoints rfl) rfl (by simp) rfl rfl
      rintro p hp
      exact ⟨_, Option.some.inj hp ▸ h.root_kind, rfl⟩
    have hkeyless : ∀ key, ¬s.graph.Fits
        { kind := .stereotype, name := some name, owner := some root } key :=
      fun _ => not_fits_of_isKeyless rfl
    have hbuild := h.build hadd rfl hb fun key hf => absurd hf (hkeyless key)
    have hs : Steps (Permit.within u made edited) s.graph g' :=
      hbuild.permitted ⟨hm, by simp⟩
    have hby := hb.bypasses h hadd rfl hkeyless
    refine Ends.bind_ok hrun ?_
    cases base with
    | none => exact Ends.answer ⟨hs, hby⟩
    | some b =>
      have change : ∀ f : Node → Node, (∀ r, (f r).essence = r.essence) →
          Steps (Permit.within u made edited) s.graph (g'.modify s.graph.next f) ∧
            s.graph.Bypasses (g'.modify s.graph.next f) := fun f hf =>
        ⟨hs.trans (((h.step hbuild).edit_plain hb.new_node (hf _)).permitted
          ⟨_, he, hb.kind?_new⟩),
          hby.trans ((h.step hbuild).bypasses_plain hb.new_node (hf _)) hb.live⟩
      refine Ends.bind_ok (GraphM.update_ok _ (isLive_of_node? hb.new_node)) ?_
      exact Ends.answer (change _ fun r => by split_ifs <;> rfl)
  · exact Ends.answer ⟨.refl, .refl _⟩

/-- Finding or making a stereotype. -/
lemma performs_stereotype (h : s.graph.Sound) (name : String) (base : Option String)
    (hm : .stereotype ∈ made) (he : .stereotype ∈ edited) :
    Performs (.within u made edited) s (stereotype name base s) fun _ s' =>
      s.SameUnit s' ∧ s.graph.Bypasses s'.graph := by
  have resolved : Performs (.within u made edited) s (change (s.registry.resolve name base) s)
      fun _ s' => s.SameUnit s' ∧ s.graph.Bypasses s'.graph := by
    refine performs_change (Q := fun _ g => s.graph.Bypasses g) ?_
    unfold StereotypeRegistry.resolve
    refine Ends.bind_ok (a := s.graph) (t := s.graph) rfl ?_
    cases Option.filter s.graph.isLive (s.registry.remembered? name base) with
    | some n => exact Ends.answer ⟨.refl, .refl _⟩
    | none =>
      refine Ends.bind (Q := fun _ g => g = s.graph) ?_ ?_
      · exact GraphM.ends_query Steps.refl
      · rintro (_ | n) _ rfl
        · exact ends_synthesized h name base hm he
        · exact Ends.answer ⟨.refl, .refl _⟩
  unfold stereotype
  refine Performs.bind_same (t := s) (a := s) rfl rfl (Performs.bind resolved ?_)
  rintro ⟨result, registry⟩ t _ ⟨hu, hby⟩
  refine Performs.bind_same rfl rfl ?_
  cases result with
  | error m => exact Performs.failure
  | ok n =>
    dsimp only
    split_ifs
    · exact bind_register (Performs.answer ⟨⟨hu.scopes, hu.component⟩, hby⟩)
    · exact Performs.answer ⟨⟨hu.scopes, hu.component⟩, hby⟩

end ImportM

end DeclGraph
