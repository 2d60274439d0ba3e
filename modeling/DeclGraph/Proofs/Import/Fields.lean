import DeclGraph.Proofs.Import.Scoping

/-! Fields that become associations: the end that stands for a field, and what is noted about it. -/

namespace DeclGraph

open DeclGraph.Graph

/-- What is made along with features. -/
def NodeKind.besideFeatures : List NodeKind :=
  [.package, .parameter, .stereotype, .taggedValue, .association, .associationEnd]

/-- What is changed along with features. -/
def NodeKind.describedWithFeatures : List NodeKind :=
  [.operation, .attr, .associationEnd, .stereotype, .taggedValue]

lemma NodeKind.role?_besideFeatures : ∀ k ∈ besideFeatures, k.role? = none := by decide

/-- What declaring features does besides making them. -/
def Permit.aroundFeatures (u : UnitContext) : Permit :=
  .within u NodeKind.besideFeatures NodeKind.describedWithFeatures

/-- What declaring features does. -/
def Permit.ofMembers (u : UnitContext) : Permit :=
  fun g c => Permit.aroundFeatures u g c ∨ ∃ r, c = .build r ∧ r.kind.slot = .features

lemma Permit.aroundFeatures_le_ofMembers {u : UnitContext} :
    Permit.aroundFeatures u ≤ Permit.ofMembers u := fun _ _ => Or.inl

lemma Permit.ofMembers_le_clear {u : UnitContext} (homes : List NodeId) :
    Permit.ofMembers u ≤ Permit.clear u homes := by
  rintro g c (h | ⟨r, rfl, hr⟩)
  · exact within_le_clear NodeKind.role?_besideFeatures homes g c h
  · have hnot : r.kind = .taggedValue → r.name ≠ some generatedTag := fun hk => by
      rw [hk] at hr
      exact absurd hr (by decide)
    exact ⟨hnot, hnot⟩

lemma Permit.ofMembers_le_free {u : UnitContext} : Permit.ofMembers u ≤ Permit.free u :=
  (ofMembers_le_clear []).trans clear_le_free

instance {u : UnitContext} : Permit.Modest u (.aroundFeatures u) :=
  ⟨Permit.within_le_clear NodeKind.role?_besideFeatures,
    fun h hs hu => h.leads hs NodeKind.role?_besideFeatures hu⟩

namespace Graph

variable {g g' g₁ g₂ g₃ : Graph} {n m c p a e o : NodeId} {r ra re ro : Node} {name : String}
  {f : Node → Node}

/-- The end `n` leads from `c` to `p` and stands for a field. -/
def FieldEnd (g : Graph) (n c p : NodeId) (name : String) : Prop := ∃ a o, g.Spans a n o c p name

lemma FieldEnd.plain (hf : g.FieldEnd n c p name) (hg : g.Sound) (hr : g.node? n = some r)
    (hplain : (f r).essence = r.essence) : (g.modify n f).FieldEnd n c p name := by
  obtain ⟨a, o, hs⟩ := hf
  obtain ⟨hed, hsame⟩ := hg.editable_plain hr hplain
  exact ⟨a, o, hs.edited hr hed hsame (edited_modify hr)⟩

lemma FieldEnd.record (hf : g.FieldEnd n c p name) : ∃ r a, g.node? n = some r ∧
    r.IsEnd a true p (some name) := by
  obtain ⟨a, o, hs⟩ := hf
  obtain ⟨x, hx, hfar⟩ := hs.far
  exact ⟨x, a, hx, hfar⟩

lemma FieldEnd.isLive (hf : g.FieldEnd n c p name) : g.isLive n = true := by
  obtain ⟨r, a, hr, -⟩ := hf.record
  exact isLive_of_node? hr

namespace Spans

variable {title : String} {c' : NodeId}

lemma far_ne_near (h : g.Spans a e o c p title) : e ≠ o := by
  rintro rfl
  obtain ⟨x, hx, hfar⟩ := h.far
  obtain ⟨y, hy, hnear⟩ := h.near
  obtain rfl := Option.some.inj (hx.symm.trans hy)
  exact absurd (hfar.isNavigable.symm.trans hnear.isNavigable) (by simp)

/-- The navigable end stands for a field of its name where the other end leads to. -/
lemma standsForField_far (h : g.Spans a e o c p title) :
    g.standsForField c' name e = .ok (decide (title = name ∧ c = c')) := by
  obtain ⟨r, hr, -, hc⟩ := h.association
  obtain ⟨x, hx, hfar⟩ := h.far
  obtain ⟨y, hy, hnear⟩ := h.near
  have hassoc : g.associationOf e = .ok (some a) := by
    simp [associationOf, get_of_node? hx, hfar.association]
  have hname : g.nameOf e = .ok (some title) := by simp [nameOf, get_of_node? hx, hfar.name]
  have hends : g.connectionsOf a = .ok [e, o] := by simp [connectionsOf, get_of_node? hr, hc]
  have hnext : g.nextEnd? e = .ok (some o) := by
    simp only [nextEnd?, get_of_node? hx, except_ok_bind, hfar.association, follow_of_node? hr, hc]
    simp [h.far_ne_near.symm, pure, Except.pure]
  have htype : g.typeOf o = .ok (some c) := by simp [typeOf, get_of_node? hy, hnear.type]
  unfold standsForField
  rw [hassoc, hname, except_ok_bind, except_ok_bind]
  by_cases heq : title = name
  · simp only [heq, hends, hnext, htype, except_ok_bind]
    simp [pure, Except.pure]
  · simp [heq, pure, Except.pure]

/-- The other one stands for no field. -/
lemma standsForField_near (h : g.Spans a e o c p title) :
    g.standsForField c' name o = .ok false := by
  obtain ⟨y, hy, hnear⟩ := h.near
  simp [standsForField, associationOf, nameOf, get_of_node? hy, hnear.association, hnear.name]

end Spans

/-- The end of an association that is found for a field leads from the classifier to the type. -/
lemma fieldEnd_of_found (hg : g.Sound) (h : g.fieldEnd? c p name = .ok (some n)) :
    g.FieldEnd n c p name := by
  obtain ⟨ends, hends, h⟩ := except_bind_eq_ok.mp h
  obtain ⟨kept, hkept, h⟩ := except_bind_eq_ok.mp h
  obtain ⟨hmem, hstands⟩ := (mem_filterM hkept).mp (List.mem_of_getLast? (Except.ok.inj h))
  obtain ⟨_, _, hsel⟩ := except_bind_eq_ok.mp hends
  obtain rfl := Except.ok.inj hsel
  obtain ⟨r, hr, hk⟩ := mem_select.mp hmem
  obtain ⟨hk, htype⟩ : r.kind = .associationEnd ∧ r.type = some p := by simpa using hk
  obtain ⟨a, ha⟩ : ∃ a, r.association = some a := by
    cases ha : r.association with
    | none =>
      simp [standsForField, associationOf, nameOf, get_of_node? hr, ha, pure, Except.pure] at hstands
    | some a => exact ⟨a, rfl⟩
  have ho := hg.endsAtHome hr ha
  obtain ⟨ra, hra, hmay⟩ := hg.mayOwn hr ho
  have hka : ra.kind = .association := by
    rw [hk] at hmay
    simpa [NodeKind.mayOwn] using hmay
  obtain ⟨e, o, c', p', title, hs⟩ := hg.spanned ((kind?_eq hra).trans (congrArg some hka))
  have hin : n ∈ ra.connections := (hg.mem_children hra .connections n).mpr ⟨r, hr, ho, by rw [hk]; rfl⟩
  obtain ⟨ra', hra', -, hc⟩ := hs.association
  obtain rfl := Option.some.inj (hra.symm.trans hra')
  rw [hc] at hin
  rcases List.mem_pair.mp hin with rfl | rfl
  · rw [hs.standsForField_far] at hstands
    obtain ⟨rfl, rfl⟩ : title = name ∧ c' = c := by simpa using hstands
    obtain ⟨x, hx, hfar⟩ := hs.far
    obtain rfl := Option.some.inj (hr.symm.trans hx)
    obtain rfl := Option.some.inj (hfar.type.symm.trans htype)
    exact ⟨a, o, hs⟩
  · rw [hs.standsForField_near] at hstands
    exact absurd hstands (by simp)

/-- If no end is found for a field, none stands for it. -/
lemma free_field (h : g.fieldEnd? c p name = .ok none) :
    g.Free (.field c p name) := by
  obtain ⟨ends, hends, h⟩ := except_bind_eq_ok.mp h
  obtain ⟨kept, hkept, h⟩ := except_bind_eq_ok.mp h
  have hempty : kept = [] := List.getLast?_eq_none_iff.mp (Except.ok.inj h)
  obtain ⟨_, _, hsel⟩ := except_bind_eq_ok.mp hends
  obtain rfl := Except.ok.inj hsel
  intro m hm
  cases hm with
  | record _ hf => exact hf
  | @association e _ _ _ _ hs =>
    obtain ⟨x, hx, hfar⟩ := hs.far
    have hin : e ∈ kept := by
      refine (mem_filterM hkept).mpr ⟨mem_select.mpr ⟨x, hx, ?_⟩, ?_⟩
      · simp [hfar.kind, hfar.type]
      · simp [hs.standsForField_far]
    rw [hempty] at hin
    exact absurd hin (by simp)

/-- A new element comes last in the list of its owner that it belongs in. -/
lemma Built.attached {x : Node} (h : g.Built r g') (ho : r.owner = some n) (hx : g.node? n = some x)
    (hnew : g.next ∉ x.children r.kind.slot) : ∃ x', g'.node? n = some x' ∧ x'.kind = x.kind ∧
      x'.children r.kind.slot = x.children r.kind.slot ++ [g.next] := by
  have hx' := h.old_node hx
  rw [if_pos ho] at hx'
  refine ⟨_, hx', (Node.bare_congr (Node.bare_attach ..)).1, ?_⟩
  rw [Node.children_attach, if_pos ⟨rfl, hnew⟩]

/-- The record of an end of an association. -/
def endRecord (a t : NodeId) (isNavigable : Bool) (name multiplicity : Option String)
    (visibility : Option Visibility) : Node where
  kind := .associationEnd
  name
  owner := some a
  visibility
  type := some t
  multiplicity
  isNavigable
  association := some a

/-- An end can be added to an association. -/
lemma builtEnd {t : NodeId} {k : NodeKind} {isNavigable : Bool} {name multiplicity : Option String}
    {visibility : Option Visibility} (ha : g.kind? a = some .association) (ht : g.kind? t = some k)
    (hk : k.isClassifier = true)
    (hb : g.Built (endRecord a t isNavigable name multiplicity visibility) g') :
    g.BuiltEnd a (endRecord a t isNavigable name multiplicity visibility) g' := by
  refine ⟨hb, addable_of_role (fun s => by cases s <;> rfl)
    ⟨fun _ => ⟨rfl, rfl⟩, fun _ => ⟨rfl, rfl⟩, fun h => absurd rfl h⟩ ?_ (fun _ => ⟨a, rfl⟩)
    ⟨?_, by simp [endRecord], by simp [endRecord]⟩ rfl (fun _ => id) rfl rfl, rfl, rfl⟩
  · intro p hp
    exact ⟨_, Option.some.inj hp ▸ ha, rfl⟩
  · intro z hz
    obtain rfl : z = t := by simpa [Node.classifiers, endRecord] using hz
    exact ⟨k, ht, hk⟩

/-- An association and its ends, when they are built one after the other. -/
lemma ends_of_built (hk : ra.kind = .association) (hempty : ra.connections = [])
    (hb₁ : g.Built ra g₁) (hb₂ : g₁.Built re g₂) (hb₃ : g₂.Built ro g₃)
    (hre : re.kind = .associationEnd ∧ re.owner = some g.next)
    (hro : ro.kind = .associationEnd ∧ ro.owner = some g.next) :
    (∃ r, g₃.node? g.next = some r ∧ r.kind = .association ∧ r.connections = [g₁.next, g₂.next]) ∧
      ∃ x, g₃.node? g₁.next = some x ∧ x.bare = re.bare := by
  have hnext₁ : g₁.next = g.next + 1 := hb₁.next
  have hnext₂ : g₂.next = g₁.next + 1 := hb₂.next
  have last : ∀ {g g' : Graph} {r x : Node} {n}, g.Built r g' → r.kind = .associationEnd →
      r.owner = some n → g.node? n = some x → g.next ∉ x.connections →
      ∃ x', g'.node? n = some x' ∧ x'.kind = x.kind ∧ x'.connections = x.connections ++ [g.next] := by
    intro g g' r x n hb hkr ho hx hnew
    have hslot : r.kind.slot = .connections := by rw [hkr]; rfl
    obtain ⟨x', hx', hkx, hc⟩ := hb.attached ho hx (by rw [hslot]; exact hnew)
    rw [hslot] at hc
    exact ⟨x', hx', hkx, hc⟩
  obtain ⟨ra₂, hra₂, hk₂, hc₂⟩ := last hb₂ hre.1 hre.2 hb₁.new_node (by simp [hempty])
  rw [hempty, List.nil_append] at hc₂
  obtain ⟨ra₃, hra₃, hk₃, hc₃⟩ := last hb₃ hro.1 hro.2 hra₂ (by simp [hc₂, hnext₂])
  rw [hc₂, List.singleton_append] at hc₃
  obtain ⟨x, hx, hbare, -⟩ := hb₃.old_bare hb₂.new_node
  exact ⟨⟨ra₃, hra₃, hk₃.trans (hk₂.trans hk), hc₃⟩, x, hx, hbare⟩

/-- The far end of an association that was just built is found by its type. -/
lemma associationEnd?_of_built (hk : ra.kind = .association) (hempty : ra.connections = [])
    (hb₁ : g.Built ra g₁) (hb₂ : g₁.Built re g₂) (hb₃ : g₂.Built ro g₃)
    (hre : re.kind = .associationEnd ∧ re.owner = some g.next)
    (hro : ro.kind = .associationEnd ∧ ro.owner = some g.next) (htype : re.type = some p) :
    g₃.associationEnd? p g.next = .ok (some g₁.next) := by
  obtain ⟨⟨r, hr, -, hc⟩, x, hx, hbare⟩ := ends_of_built hk hempty hb₁ hb₂ hb₃ hre hro
  have hxp : x.type = some p := (Node.bare_congr hbare).2.2.1.trans htype
  simp [associationEnd?, connectionsOf, get_of_node? hr, hc, followFirst, follow_of_node? hx, hxp,
    pure, Except.pure]

/-- The record of the far end may be filled in while the association is built. -/
lemma associated_of_built {kc kp : NodeKind} {multiplicity : Option String}
    {visibility : Option Visibility} (hk : ra.kind = .association) (ha : g.Addable ra)
    (hc : g.kind? c = some kc) (hkc : kc.isClassifier = true) (hp : g.kind? p = some kp)
    (hkp : kp.isClassifier = true) (hb₁ : g.Built ra g₁)
    (hb₂ : g₁.Built (endRecord g.next p true (some name) multiplicity visibility) g₂)
    (hb₃ : g₂.Built (endRecord g.next c false none none none) g₃) :
    g.Associated ra c p name g₃ := by
  have old : ∀ {g g' : Graph} {r : Node} {n k}, g.Built r g' → g.kind? n = some k →
      g'.kind? n = some k := fun hb hn => (hb.kind?_old (isLive_of_kind? hn)).trans hn
  have hka : g₁.kind? g.next = some .association := hb₁.kind?_new.trans (congrArg some hk)
  have hnext₁ : g₁.next = g.next + 1 := hb₁.next
  have hnext₂ : g₂.next = g.next + 2 := by rw [hb₂.next, hnext₁]; rfl
  obtain ⟨hassoc, x, hx, hbare⟩ := ends_of_built hk (ha.parts .connections) hb₁ hb₂ hb₃ ⟨rfl, rfl⟩
    ⟨rfl, rfl⟩
  have hnear := hb₃.new_node
  rw [hnext₁, hnext₂] at hassoc
  rw [hnext₁] at hx
  rw [hnext₂] at hnear
  refine ⟨hk, ha, ⟨_, _, g₁, g₂, hb₁, builtEnd hka (old hb₁ hp) hkp hb₂,
    builtEnd (old hb₂ hka) (old hb₂ (old hb₁ hc)) hkc hb₃⟩, hassoc, ⟨x, hx, ?_⟩, ⟨_, hnear, ?_⟩⟩
  · exact Node.IsEnd.of_bare (r := endRecord g.next p true (some name) multiplicity visibility)
      ⟨rfl, rfl, rfl, rfl, rfl⟩ hbare
  · exact ⟨rfl, rfl, rfl, rfl, rfl⟩

end Graph

namespace ImportM

variable {s t : UnitState} {u : UnitContext} {n c p : NodeId} {name : String}

/-- What is noted about the end of a field. -/
lemma performs_fieldEnd {f : Node → Node} (h : s.graph.Sound) (hf : s.graph.FieldEnd n c p name)
    (hplain : ∀ {r a}, r.IsEnd a true p (some name) → (f r).essence = r.essence) :
    Performs (.aroundFeatures u) s (change (.update n f) s) fun _ t =>
      s.SameUnit t ∧ t.graph.FieldEnd n c p name := by
  obtain ⟨r, a, hr, hend⟩ := hf.record
  refine performs_change (Q := fun _ g => g.FieldEnd n c p name) ?_
  rw [GraphM.update_ok f hf.isLive]
  refine ⟨(h.edit_plain hr (hplain hend)).permitted ⟨.associationEnd, by decide, ?_⟩,
    hf.plain h hr (hplain hend)⟩
  rw [kind?_eq hr, hend.kind]

/-- The type of the end is what it is already. -/
lemma performs_setType_fieldEnd (h : s.graph.Sound) (hf : s.graph.FieldEnd n c p name) :
    Performs (.aroundFeatures u) s (change (.setType n (some p)) s) fun _ t =>
      s.SameUnit t ∧ t.graph.FieldEnd n c p name := by
  obtain ⟨r, a, hr, hend⟩ := hf.record
  have hp : ∀ y, some p = some y → s.graph.isLive y = true := fun y hy =>
    h.live hr y (by simp [Node.links, hend.type, Option.some.inj hy])
  have hrun : change (.setType n (some p)) s = change (.update n ({ · with type := some p })) s := by
    unfold change
    rw [GraphM.setType_ok hf.isLive hp, GraphM.update_ok _ hf.isLive]
  rw [hrun]
  refine performs_fieldEnd h hf fun hend => ?_
  simp only [← hend.type]

/-- What is done to the end of a field once it has its name. -/
lemma performs_describeEnd (h : s.Sound) (hf : s.graph.FieldEnd n c p name) (doc : Option String) :
    Performs (.aroundFeatures u) s ((do
      if p ≠ c then change (.setNavigable n true)
      let _ ← change (.addDocumentation n doc)
      return n : ImportM NodeId) s) fun _ t => s.SameUnit t := by
  have hend : s.graph.Once n (· = .associationEnd) := by
    obtain ⟨r, a, hr, hend⟩ := hf.record
    exact once (kind?_eq hr) hend.kind
  have documented : ∀ {t : UnitState}, s.Leads t → Performs (.aroundFeatures u) t ((do
        let _ ← change (.addDocumentation n doc)
        return n : ImportM NodeId) t) fun _ t' => t.SameUnit t' :=
    fun ht => Performs.then_leads ht.sound (performs_addDocumentation ht.sound.graph
      ((hend.steps ht.steps).imp fun k hk => hk ▸ rfl) doc (by decide) (by decide))
      fun _ t' _ => Performs.answer (.refl t')
  split_ifs
  · refine Performs.bind_leads h (performs_fieldEnd h.graph hf fun hend => ?_)
      fun _ t ht _ => documented ht
    simp only [← hend.isNavigable]
  · exact documented (.refl h)

/-- What is noted about an element after another one was built counts as if it was built with it. -/
lemma fill_run {g₁ g₂ : Graph} {re ro : Node} {f : Node → Node} (hb₂ : g₁.Built re g₂)
    (hb₃ : g₂.Built ro t.graph) (hk : (f re).kind = re.kind) (ho : (f re).owner = re.owner)
    (hro : ro.owner ≠ some g₁.next) :
    change (.update g₁.next f) t = .ok () { t with graph := t.graph.modify g₁.next f } ∧
      g₁.Built (f re) (g₂.modify g₁.next f) ∧
      (g₂.modify g₁.next f).Built ro (t.graph.modify g₁.next f) := by
  have hl : g₂.isLive g₁.next = true := isLive_of_node? hb₂.new_node
  exact ⟨change_ok (GraphM.update_ok f (hb₃.live hl)), hb₂.modify hk ho,
    hb₃.modify_other (ne_next hl) hro⟩

/-- What is noted about the far end of an association that was just built gives it the record of the
end of a field. -/
lemma fillEnd_run {α : Type} {g₁ g₂ : Graph} {ra : Node} (hp : s.graph.isLive p = true)
    (hb₁ : s.graph.Built ra g₁)
    (hb₂ : g₁.Built (endRecord s.graph.next p true none none none) g₂)
    (hb₃ : g₂.Built (endRecord s.graph.next c false none none none) t.graph)
    (visibility : Visibility) (multiplicity name : String) (x : ImportM α) :
    ∃ g₂' g₃', g₁.Built (endRecord s.graph.next p true (some name) (some multiplicity)
        (some visibility)) g₂' ∧
      g₂'.Built (endRecord s.graph.next c false none none none) g₃' ∧
      (do change (.setVisibility g₁.next visibility)
          change (.setMultiplicity g₁.next (some multiplicity))
          change (.setType g₁.next (some p))
          change (.setName g₁.next (some name))
          x : ImportM α) t = x { t with graph := g₃' } := by
  have hro : some s.graph.next ≠ some g₁.next := by simp [hb₁.next]
  have hpl := hb₁.live hp
  obtain ⟨hrun₁, hb₂, hb₃⟩ := fill_run (f := ({ · with visibility := some visibility })) hb₂ hb₃
    rfl rfl hro
  obtain ⟨hrun₂, hb₂, hb₃⟩ := fill_run (t := { t with graph := _ })
    (f := ({ · with multiplicity := some multiplicity })) hb₂ hb₃ rfl rfl hro
  obtain ⟨-, hb₂', hb₃'⟩ := fill_run (t := { t with graph := _ })
    (f := ({ · with type := some p })) hb₂ hb₃ rfl rfl hro
  have hrun₃ := change_ok (s := { t with graph := _ }) (GraphM.setType_ok
    (hb₃.live (isLive_of_node? hb₂.new_node)) fun y hy =>
      Option.some.inj hy ▸ hb₃.live (hb₂.live hpl))
  obtain ⟨hrun₄, hb₂, hb₃⟩ := fill_run (t := { t with graph := _ })
    (f := ({ · with name := some name })) hb₂' hb₃' rfl rfl hro
  refine ⟨_, _, hb₂, hb₃, ?_⟩
  exact (bind_run hrun₁).trans ((bind_run hrun₂).trans ((bind_run hrun₃).trans (bind_run hrun₄)))

lemma performs_addAssociatedField (h : s.Sound) (modifiers : ModifierSet) {kc kp : NodeKind}
    (hc : s.graph.kind? c = some kc) (hkc : kc.isClassifier = true)
    (hp : s.graph.kind? p = some kp) (hkp : kp.isClassifier = true)
    (multiplicity name : String) (doc : Option String) :
    Performs (.aroundFeatures u) s (addAssociatedField u modifiers c p multiplicity name doc s)
      fun _ t => s.SameUnit t := by
  unfold addAssociatedField upsertFieldEnd
  rw [bind_assoc]
  refine bind_query fun found hfound => ?_
  cases found with
  | some n =>
    have hn := fieldEnd_of_found h.graph hfound
    refine Performs.bind_same rfl rfl ?_
    refine Performs.bind_leads h (performs_fieldEnd h.graph hn fun _ => rfl) ?_
    intro _ t₁ h₁ hn₁
    refine Performs.bind_leads h₁.sound (performs_fieldEnd h₁.sound.graph hn₁ fun _ => rfl) ?_
    intro _ t₂ h₂ hn₂
    refine Performs.bind_leads h₂.sound (performs_setType_fieldEnd h₂.sound.graph hn₂) ?_
    intro _ t₃ h₃ hn₃
    refine Performs.bind_leads h₃.sound (performs_fieldEnd h₃.sound.graph hn₃ fun hend => ?_) ?_
    · simp only [← hend.name]
    intro _ t₄ h₄ hn₄
    exact performs_describeEnd h₄.sound hn₄ doc
  | none =>
    simp only [bind_assoc]
    refine Performs.bind (performs_edgeName c p) ?_
    rintro edge t _ rfl
    obtain ⟨rc, hrc, rfl⟩ := kind?_eq_some.mp hc
    have hpl := isLive_of_kind? hp
    obtain ⟨g₁, g₂, g₃, hrun, hb₁, hb₂, hb₃⟩ := GraphM.buildAssociation_ok edge true false hpl hrc
      fun o ho => h.graph.owner_live hrc ho
    have hend : g₃.associationEnd? p t.graph.next = .ok (some g₁.next) :=
      associationEnd?_of_built rfl rfl hb₁ hb₂ hb₃ ⟨rfl, rfl⟩ ⟨rfl, rfl⟩ rfl
    rw [bind_run (change_ok hrun), bind_run (show register _ _ = .ok () _ from rfl),
      bind_run (show emit _ _ = .ok () _ from rfl), bind_run (query_ok hend)]
    dsimp only
    rw [bind_run (show (pure g₁.next : ImportM NodeId) _ = .ok _ _ from rfl)]
    obtain ⟨g₂', g₃', hb₂', hb₃', hfill⟩ := fillEnd_run
      (t := { t with graph := g₃, session := _, log := _ }) hpl hb₁ hb₂ hb₃ modifiers.visibility
      multiplicity name _
    rw [hfill]
    have hsource : rc.kind.isSource = true := by simp [NodeKind.isSource, hkc]
    have hadd : t.graph.Addable { kind := .association, name := edge, owner := rc.owner } :=
      addable_of_role (fun s => by cases s <;> rfl) ⟨by simp, by simp, by simp⟩
        (fun _ => edge_owner h.graph hrc hsource rfl _)
        (fun _ => owned_of_isSource (r := rc) h.graph hrc hsource) (joins_of_endpoints rfl) rfl
        (by simp) rfl rfl
    have hassoc : t.graph.Associated _ c p name g₃' :=
      associated_of_built rfl hadd hc hkc hp hkp hb₁ hb₂' hb₃'
    have hsteps : Steps (Permit.aroundFeatures u) t.graph g₃' :=
      (Step.associate hassoc (free_field hfound)).permitted ⟨by decide, by decide⟩
    have hfield : g₃'.FieldEnd g₁.next c p name := ⟨_, _, hb₁.next ▸ hassoc.spans⟩
    have hl := Permit.Modest.leads (P := Permit.aroundFeatures u)
      (t := { t with graph := g₃', session := t.session.register t.graph.next,
                     log := .associationCreated (edge.getD "") :: t.log }) h hsteps ⟨rfl, rfl⟩
    exact ((performs_describeEnd hl.sound hfield doc).imp fun _ _ hu =>
      ⟨hu.scopes, hu.component⟩).after hsteps

end ImportM

end DeclGraph
