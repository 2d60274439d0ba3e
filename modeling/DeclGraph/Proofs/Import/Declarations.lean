import DeclGraph.Proofs.Import.Features

/-! Classifier declarations: their elements are found again, adopted, superseded or made, and no
other member of the enclosing classifier is met. -/

namespace DeclGraph

open DeclGraph.Graph

/-- What is made along with classifiers. -/
def NodeKind.besideClassifiers : List NodeKind :=
  [.package, .stereotype, .taggedValue, .elementResidence, .generalization, .abstraction,
    .dependency]

/-- What is changed along with classifiers. -/
def NodeKind.describedWithClassifiers : List NodeKind :=
  [.classType, .interfaceType, .abstraction, .dependency, .stereotype, .taggedValue]

/-- What declaring classifiers does besides making them. -/
def Permit.aroundClassifiers (u : UnitContext) : Permit :=
  .within u NodeKind.besideClassifiers NodeKind.describedWithClassifiers

lemma NodeKind.role?_besideClassifiers : ∀ k ∈ besideClassifiers, k.role? = none := by decide

instance {u : UnitContext} : Permit.Modest u (.aroundClassifiers u) :=
  ⟨Permit.within_le_clear NodeKind.role?_besideClassifiers,
    fun h hs hu => h.leads hs NodeKind.role?_besideClassifiers hu⟩

namespace Graph

variable {g : Graph} {n m : NodeId} {name : String} {k : NodeKind} {r : Node}

lemma classifier?_eq_ok {name : Option String} {found : Option NodeId}
    (h : g.classifier? n name = .ok found) : ∃ r, g.node? n = some r ∧
      found = g.findIn r.owned fun x => x.name = name && x.kind.isClassifier := by
  unfold classifier? at h
  cases ho : g.ownedElements n with
  | error e => simp [ho] at h
  | ok ns =>
    obtain ⟨r, hr, rfl⟩ := ownedElements_eq_ok ho
    simp only [ho] at h
    exact ⟨r, hr, by simpa using h.symm⟩

lemma isMember_of_classifier? (h : g.Sound) (hf : g.classifier? n (some name) = .ok (some m)) :
    g.IsMember n .inner (some name) m := by
  obtain ⟨r, hr, hfind⟩ := classifier?_eq_ok hf
  obtain ⟨hm, x, hx, hq⟩ := findIn_eq_some hfind.symm
  obtain ⟨x', hx', ho, _⟩ := (h.mem_children hr .owned m).mp hm
  obtain rfl := Option.some.inj (hx.symm.trans hx')
  simp only [Bool.and_eq_true, decide_eq_true_eq] at hq
  exact ⟨x, hx, ho, NodeKind.role?_eq_inner.mpr hq.2, hq.1⟩

lemma not_isMember_of_classifier? (h : g.Sound) (hf : g.classifier? n (some name) = .ok none) :
    ∀ m, ¬g.IsMember n .inner (some name) m := by
  rintro m ⟨x, hx, ho, hk, hname⟩
  obtain ⟨r, hr, hfind⟩ := classifier?_eq_ok hf
  have hc := NodeKind.role?_eq_inner.mp hk
  have hm : m ∈ r.owned := by
    refine (h.mem_children hr .owned m).mpr ⟨x, hx, ho, ?_⟩
    revert hc
    cases x.kind <;> decide
  have := List.find?_eq_none.mp hfind.symm m hm
  simp [hx, hname, hc] at this

lemma mayOwn_classifier {k k' : NodeKind} (hk : k.isPackage = true ∨ k.isClassifier = true)
    (hk' : k'.isClassifier = true) : k.mayOwn k' = true := by
  rw [← Bool.or_eq_true] at hk
  cases k' <;> first | exact hk | exact absurd hk' (by decide)

end Graph

namespace UnitState

variable {s t t' : UnitState} {n m : NodeId} {name : String} {kind : ClassifierKind}
  {scope : Scope} {rest : List Scope} {role : MemberRole}

/-- Where classifiers are declared. -/
def home (s : UnitState) : NodeId := s.scopes.current.home

lemma home_of_opened (ho : s.scopes.opened = scope :: rest) : s.home = scope.frame.home := by
  simp [home, ScopeStack.current, ho]

lemma home_of_closed (ho : s.scopes.opened = []) : s.home = s.scopes.package := by
  simp [home, ScopeStack.current, ho]

lemma Nested.home_kind (h : s.Nested) :
    ∃ k, s.graph.kind? s.home = some k ∧ (k.isPackage = true ∨ k.isClassifier = true) := by
  cases ho : s.scopes.opened with
  | nil =>
    obtain ⟨k, hk, hp⟩ := h.package
    exact ⟨k, home_of_closed ho ▸ hk, Or.inl hp⟩
  | cons scope rest =>
    obtain ⟨k, hk, hc⟩ := h.isClassifier (show scope ∈ s.scopes.opened by simp [ho])
    exact ⟨k, home_of_opened ho ▸ hk, Or.inr hc⟩

/-- Where classifiers are declared, the home of the innermost open one included, nothing is inside
what is declared there. -/
lemma Nested.ne_of_member (h : s.Nested) {name : Option String}
    (hm : s.graph.IsMember s.home .inner name m) :
    s.home ≠ m ∧ m ≠ s.scopes.package ∧ ∀ scope ∈ s.scopes.opened, scope.frame.home ≠ m := by
  obtain ⟨kp, hkp, hp⟩ := h.package
  have hmp : m ≠ s.scopes.package := by
    rintro rfl
    obtain ⟨k, hk, hrole⟩ := hm.declared
    obtain rfl := Option.some.inj (hkp.symm.trans hk)
    have := NodeKind.role?_eq_inner.mp hrole
    revert hp this
    cases kp <;> decide
  cases ho : s.scopes.opened with
  | nil => exact ⟨by rw [home_of_closed ho]; exact hmp.symm, hmp, by simp⟩
  | cons scope rest =>
    have hnest := h.nested
    rw [ho] at hnest
    have hout : m ∉ (scope :: rest).map (·.frame.home) :=
      hnest.member_not_mem hkp hp (home_of_opened ho ▸ hm)
    refine ⟨?_, hmp, fun scope' hin heq => hout (List.mem_map.mpr ⟨scope', hin, heq⟩)⟩
    rw [home_of_opened ho]
    exact fun heq => hout (by simp [heq])

/-- What is a placeholder is not open. -/
lemma Nested.ne_of_tagged (h : s.Nested) (ht : s.graph.Tagged m generatedTag)
    (hin : scope ∈ s.scopes.opened) : scope.frame.home ≠ m := by
  rintro rfl
  exact (h.nested.classifier (List.mem_map_of_mem hin)).1 ht

lemma Nested.home_ne_of_tagged (h : s.Nested) (ht : s.graph.Tagged m generatedTag)
    (hm : ∀ k, s.graph.kind? m = some k → k.isPackage = false) : s.home ≠ m := by
  cases ho : s.scopes.opened with
  | nil =>
    rintro rfl
    obtain ⟨k, hk, hp⟩ := h.package
    rw [home_of_closed ho] at hm
    rw [hm k hk] at hp
    exact Bool.noConfusion hp
  | cons scope rest =>
    rw [home_of_opened ho]
    exact h.ne_of_tagged ht (by simp [ho])

/-- Nothing is declared below a placeholder. -/
lemma Nested.home_not_below (h : s.Nested) (ht : s.graph.Tagged m generatedTag) {r : Node}
    (hr : s.graph.node? m = some r) (hc : r.kind.isClassifier = true) :
    ¬s.graph.Below m s.home := by
  obtain ⟨kp, hkp, hp⟩ := h.package
  have hnp : ∀ k, s.graph.kind? m = some k → k.isPackage = false := by
    intro k hk
    rw [← Option.some.inj ((kind?_eq hr).symm.trans hk)]
    exact NodeKind.not_isPackage_of_isClassifier hc
  intro hb
  cases ho : s.scopes.opened with
  | nil =>
    rw [home_of_closed ho] at hb
    obtain ⟨k, hk, hpk⟩ := h.graph.isPackage_of_below hb hkp hp
    rw [hnp k hk] at hpk
    exact Bool.noConfusion hpk
  | cons scope rest =>
    rw [home_of_opened ho] at hb
    have hin : scope.frame.home ∈ s.scopes.opened.map (·.frame.home) := by simp [ho]
    exact (h.nested.classifier (h.nested.mem_of_below h.graph hkp hp hnp hin hb)).1 ht

/-- Adopting a placeholder of the root keeps clear of what is open. -/
lemma Nested.clears_move (h : s.Nested) {r : Node} (hr : s.graph.node? m = some r)
    (hc : r.kind.isClassifier = true) (ho : r.owner = some root)
    (ht : s.graph.Tagged m generatedTag) (home : NodeId) :
    (Change.move m home).Clears s.homes s.graph := by
  refine ⟨r, hr, fun hk => ?_, Or.inr ⟨fun hin => ?_, fun p hp heq => ?_⟩⟩
  · rw [hk] at hc
    exact Bool.noConfusion hc
  · obtain ⟨scope, hin, heq⟩ := List.mem_map.mp hin
    exact h.ne_of_tagged ht hin heq
  · obtain rfl := Option.some.inj (ho.symm.trans heq)
    obtain ⟨-, x, hx, hkx, -⟩ := h.nested.classifier hp
    have hroot := h.graph.root_kind
    rw [kind?_eq hx] at hroot
    rw [Option.some.inj hroot] at hkx
    exact Bool.noConfusion hkx

/-- So does replacing a classifier that is declared once more. -/
lemma Nested.clears_supersede (h : s.Nested) {old : NodeId} {name : Option String}
    (hm : s.graph.IsMember s.home .inner name old) (r : Node) :
    (Change.supersede old r).Clears s.homes s.graph := by
  obtain ⟨-, hpack, hopen⟩ := h.ne_of_member hm
  have hout : old ∉ s.homes := fun hin => by
    obtain ⟨scope, hin, heq⟩ := List.mem_map.mp hin
    exact hopen scope hin heq
  refine ⟨hout, fun p hp x hx heq => ?_⟩
  obtain ⟨-, x', hx', -, q, hq, hin⟩ := h.nested.classifier hp
  obtain rfl := Option.some.inj (hx.symm.trans hx')
  obtain rfl := Option.some.inj (heq.symm.trans hq)
  exact hin.elim (fun hin => hout (List.mem_of_mem_tail hin)) hpack

lemma Declared.leads (hd : Declared scope rest role name m s t) (h : s.Nested)
    (ho : s.scopes.opened = scope :: rest) (hl : t.Leads t') :
    Declared scope rest role name m s t' := by
  obtain ⟨k, hk, hc⟩ := h.isClassifier (show scope ∈ s.scopes.opened by simp [ho])
  refine ⟨hd.unit.trans hl.unit, hd.member.spares (hl.spares (hd.member.kind? hk) hc),
    fun scope' hin => ?_⟩
  obtain ⟨k', hk', hc'⟩ := h.isClassifier (show scope' ∈ s.scopes.opened by simp [ho, hin])
  have hs := hd.outer scope' hin
  exact hs.trans (hl.spares (hs.kind? hk') hc')

/-- The element of a declared classifier is in its place. -/
structure Upserted (k : NodeKind) (name : String) (n : NodeId) (s t : UnitState) : Prop where
  unit : s.SameUnit t
  node : ∃ r, t.graph.node? n = some r ∧ r.kind = k ∧ r.owner = some s.home ∧ r.name = some name
  /-- It has the members that it had if it was there before. -/
  member : s.graph.isLive n = true →
    ∀ {role name m}, t.graph.IsMember n role name m ↔ s.graph.IsMember n role name m
  declared : ∀ {scope rest}, s.scopes.opened = scope :: rest →
    Declared scope rest .inner name n s t

lemma Upserted.same {k : NodeKind} (h : Upserted k name n s t) (hg : t'.graph = t.graph)
    (hu : t.SameUnit t') : Upserted k name n s t' := by
  refine ⟨h.unit.trans hu, hg ▸ h.node, hg ▸ h.member, fun ho => ?_⟩
  have hd := h.declared ho
  exact ⟨h.unit.trans hu, hg ▸ hd.member, hg ▸ hd.outer⟩

/-- An element that was not there before in the place of another. -/
lemma Upserted.trans {k k' : NodeKind} {n' : NodeId} (h : Upserted k name n s t)
    (h' : Upserted k' name n' t t') (hn' : ¬s.graph.isLive n' = true) :
    Upserted k' name n' s t' := by
  have hhome : t.home = s.home := by simp [home, h.unit.scopes]
  refine ⟨h.unit.trans h'.unit, hhome ▸ h'.node, fun hl => absurd hl hn', fun {scope rest} ho => ?_⟩
  have hd := h.declared ho
  have hd' := h'.declared (h.unit.scopes ▸ ho)
  exact ⟨h.unit.trans h'.unit, hd.member.again hd'.member,
    fun scope' hin => (hd.outer scope' hin).trans (hd'.outer scope' hin)⟩

lemma Upserted.leads {k : NodeKind} (h : Upserted k name n s t) (hs : s.Nested)
    (hk : k.isClassifier = true) (hl : t.Leads t') : Upserted k name n s t' := by
  obtain ⟨r, hr, rfl, ho, hname⟩ := h.node
  have hn := hl.spares (kind?_eq hr) hk
  obtain ⟨r', hr', hk', ho', hname'⟩ := hn.node hr
  exact ⟨h.unit.trans hl.unit, ⟨r', hr', hk', ho'.trans ho, hname'.trans hname⟩,
    fun hlive => hn.member.trans (h.member hlive), fun ho => (h.declared ho).leads hs ho hl⟩

end UnitState

namespace ImportM

variable {s t : UnitState} {u : UnitContext} {n old : NodeId} {name : String}
  {scope : Scope} {rest : List Scope}

/-- A placeholder of the root that is moved to where a classifier is declared. -/
lemma upserted_adopted {stray : NodeId} {g' : Graph} {r : Node} (h : s.Nested)
    (hr : s.graph.node? stray = some r)
    (hstray : s.graph.IsMember root .inner (some name) stray)
    (ht : s.graph.Tagged stray generatedTag)
    (hfresh : ∀ m, ¬s.graph.IsMember s.home .inner (some name) m)
    (hm : s.graph.Moved stray r (some s.home) g') :
    UnitState.Upserted r.kind name stray s { s with graph := g' } := by
  obtain ⟨x, hx, hxo, hxk, hxn⟩ := hstray
  obtain rfl := Option.some.inj (hr.symm.trans hx)
  have hc := NodeKind.role?_eq_inner.mp hxk
  have hslot : r.kind.slot ≠ .features := by
    revert hc
    cases r.kind <;> decide
  obtain ⟨_, hr', hnt, hfar⟩ := h.clears_move hr hc hxo ht s.home
  obtain rfl := Option.some.inj (hr.symm.trans hr')
  obtain ⟨hout, howner⟩ := hfar.resolve_left (by simp [hxk])
  have hroot_kind := h.graph.root_kind
  have hnp : ∀ k, s.graph.kind? stray = some k → k.isPackage = false := by
    intro k hk
    rw [kind?_eq hr] at hk
    rw [← Option.some.inj hk]
    exact NodeKind.not_isPackage_of_isClassifier hc
  obtain ⟨y, hy, hb, hyo⟩ := hm.old_bare hr
  have hh := Node.bare_congr hb
  rw [if_pos rfl] at hyo
  refine ⟨⟨rfl, rfl⟩, ⟨y, hy, hh.1, hyo, hh.2.1.trans hxn⟩, fun _ => ?_, fun {scope rest} ho => ?_⟩
  · intro role nm m
    rw [hm.isMember_iff hr]
    split_ifs with hms
    · subst hms
      refine ⟨fun hm => absurd hm.1 (h.home_ne_of_tagged ht hnp), fun hm => ?_⟩
      obtain ⟨_, hx', hxo', _⟩ := hm
      obtain rfl := Option.some.inj (hr.symm.trans hx')
      rw [hxo] at hxo'
      rw [Option.some.inj hxo', kind?_eq hr] at hroot_kind
      rw [Option.some.inj hroot_kind] at hc
      exact Bool.noConfusion hc
    · exact Iff.rfl
  · have hhome := UnitState.home_of_opened ho
    have homes : ∀ scope' ∈ scope :: rest, scope'.frame.home ∈ s.homes :=
      fun _ hin => List.mem_map_of_mem (ho ▸ hin)
    have hin : ∀ scope' ∈ scope :: rest, scope'.frame.home ≠ stray :=
      fun scope' hin heq => hout (heq ▸ homes scope' hin)
    have not_root : ∀ scope' ∈ scope :: rest, r.owner ≠ some scope'.frame.home :=
      fun scope' hin => howner _ (homes scope' hin)
    refine ⟨⟨rfl, rfl⟩, ?_, fun scope' hin' => ?_⟩
    · rw [hhome] at hm hfresh
      exact hm.declares hr hc hxn (hin scope (by simp)) hfresh (not_root scope (by simp))
    · refine hm.spares hr hslot hnt (hin scope' (by simp [hin'])) fun _ => ⟨?_, ?_⟩
      · exact not_root scope' (by simp [hin'])
      · rw [hhome]
        exact (h.outer_ne ho hin').symm

/-- A classifier that is there already. -/
lemma upserted_found (h : s.Nested) {r : Node} (hr : s.graph.node? n = some r)
    (hm : s.graph.IsMember s.home .inner (some name) n) : UnitState.Upserted r.kind name n s s := by
  obtain ⟨x, hx, ho, _, hname⟩ := id hm
  obtain rfl := Option.some.inj (hr.symm.trans hx)
  refine ⟨.refl s, ⟨r, hr, rfl, ho, hname⟩, fun _ => Iff.rfl, fun hopen => ?_⟩
  rw [UnitState.home_of_opened hopen] at hm
  exact h.declared_found hopen hm

/-- A new classifier. -/
lemma upserted_built (h : s.Nested) {kind : NodeKind} (hk : kind.isClassifier = true) {g' : Graph}
    (hb : s.graph.Built { kind, name := some name, owner := some s.home } g')
    (hfresh : ∀ m, ¬s.graph.IsMember s.home .inner (some name) m) :
    UnitState.Upserted kind name s.graph.next s { s with graph := g' } := by
  refine ⟨⟨rfl, rfl⟩, ⟨_, hb.new_node, rfl, rfl, rfl⟩, fun hl => absurd rfl (ne_next hl),
    fun ho => ?_⟩
  have hhome := UnitState.home_of_opened ho
  rw [hhome] at hb hfresh
  exact h.declared_built ho hb rfl (NodeKind.role?_eq_inner.mpr hk) rfl hfresh ⟨rfl, rfl⟩

/-- A classifier of another kind in the place of one that was there. -/
lemma upserted_superseded (h : s.Nested) {kind : NodeKind} (hk : kind.isClassifier = true)
    {g' : Graph} {ro : Node} (hold : s.graph.node? old = some ro)
    (hm : s.graph.IsMember s.home .inner (some name) old)
    (hs : s.graph.Superseded old ro { kind, name := some name, owner := some s.home } g') :
    UnitState.Upserted kind name s.graph.next s { s with graph := g' } := by
  obtain ⟨x, hx, hxo, hxk, hxn⟩ := id hm
  obtain rfl := Option.some.inj (hold.symm.trans hx)
  have hco := NodeKind.role?_eq_inner.mp hxk
  obtain ⟨rn, hn, hno, hnk, hnn, _⟩ := hs.new_record
  refine ⟨⟨rfl, rfl⟩, ⟨rn, hn, hnk, hno, hnn⟩, fun hl => absurd rfl (ne_next hl),
    fun {scope rest} ho => ?_⟩
  have hhome := UnitState.home_of_opened ho
  have place : ∀ scope' ∈ scope :: rest, ∃ x, s.graph.node? scope'.frame.home = some x ∧
      x.kind.isClassifier = true ∧ scope'.frame.home ≠ old ∧ x.owner ≠ some old := by
    intro scope' hin
    obtain ⟨hout, howner⟩ := h.clears_supersede hm rn
    have hin' : scope'.frame.home ∈ s.homes := List.mem_map_of_mem (ho ▸ hin)
    obtain ⟨-, x, hx, hkx, -⟩ := h.nested.classifier hin'
    exact ⟨x, hx, hkx, fun heq => hout (heq ▸ hin'), howner _ hin' x hx⟩
  refine ⟨⟨rfl, rfl⟩, ?_, fun scope' hin => ?_⟩
  · obtain ⟨x, hx, hkx, hno, hxo'⟩ := place scope (by simp)
    refine hs.declares h.graph hold hco hk ?_ hxn hxn.symm hx hkx hno hxo' ?_
    · exact hxo.symm
    · rw [hxo, hhome]
  · obtain ⟨x, hx, hkx, hno, hxo'⟩ := place scope' (by simp [hin])
    refine hs.spares h.graph hold hk hxo.symm hx hkx hno hxo' ?_
    rw [hxo, hhome]
    exact fun heq => h.outer_ne ho hin (Option.some.inj heq).symm

lemma performs_adoptClassifier (h : s.Nested) (name : String) :
    Performs (.clear u s.homes) s (adoptClassifier name s.home s) fun found t => match found with
      | none => t = s ∧ ∀ m, ¬s.graph.IsMember s.home .inner (some name) m
      | some n => ∃ k : NodeKind, k.isClassifier = true ∧ UnitState.Upserted k name n s t := by
  unfold adoptClassifier
  refine bind_query fun found hf => ?_
  cases found with
  | some n =>
    have hm := isMember_of_classifier? h.graph hf
    obtain ⟨r, hr, _, hk, _⟩ := id hm
    exact Performs.answer ⟨r.kind, NodeKind.role?_eq_inner.mp hk, upserted_found h hr hm⟩
  | none =>
    have hfresh := not_isMember_of_classifier? h.graph hf
    dsimp only
    split_ifs with hroot
    · exact Performs.answer ⟨rfl, hfresh⟩
    · refine bind_query fun stray hs => ?_
      cases stray with
      | none => exact Performs.answer ⟨rfl, hfresh⟩
      | some stray =>
        refine bind_query fun b hb => ?_
        cases b with
        | false => exact Performs.answer ⟨rfl, hfresh⟩
        | true =>
          simp only [if_true]
          have hm := isMember_of_classifier? h.graph hs
          obtain ⟨r, hr, hro, hk, hname⟩ := id hm
          have hc := NodeKind.role?_eq_inner.mp hk
          obtain ⟨kh, hkh, hplace⟩ := h.home_kind
          have hlive : ∀ p, some s.home = some p → s.graph.isLive p = true :=
            fun p hp => Option.some.inj hp ▸ isLive_of_kind? hkh
          obtain ⟨g', hrun, hmoved⟩ := GraphM.setNamespace_ok hr hlive
          have hmov : s.graph.Movable stray r s.home := by
            refine ⟨NodeKind.not_isPackage_of_isClassifier hc, isLive_of_kind? hkh, ?_, ?_, ?_, ?_,
              ?_⟩
            · exact h.home_not_below (isPlaceholder_eq_true h.graph hb) hr hc
            · intro k hk
              exact Option.some.inj (hkh.symm.trans hk) ▸ mayOwn_classifier hplace hc
            · rintro hke
              rw [hke] at hc
              exact Bool.noConfusion hc
            · rintro hkt
              rw [hkt] at hc
              exact Bool.noConfusion hc
            · intro role hrole k _ _ m hm'
              obtain rfl := Option.some.inj (hk.symm.trans hrole)
              exact hfresh m (hname ▸ hm')
          have hstep := h.graph.move hr hmov hmoved fun key hf => by
            obtain rfl := eq_place_of_fits (r := { r with owner := some s.home })
              (NodeKind.family?_eq_classType.mpr hc) hf
            exact Or.inr (hname ▸ free_classifier hfresh)
          have hmark := isPlaceholder_eq_true h.graph hb
          refine bind_change hrun (hstep.permitted ⟨trivial, h.clears_move hr hc hro hmark _⟩) ?_
          exact Performs.answer ⟨r.kind, hc, upserted_adopted h hr hm hmark hfresh hmoved⟩

/-- A classifier of another kind takes the place of one that is declared here. -/
lemma supersede_run (h : s.Nested) (kind : ClassifierKind) {ro : Node}
    (hold : s.graph.node? old = some ro)
    (hm : s.graph.IsMember s.home .inner (some name) old) :
    ∃ g, supersede old kind name s.home s = .ok s.graph.next { s with
        graph := g
        session := (s.session.discard old).register s.graph.next
        log := .placeholderReplaced kind.label name :: s.log } ∧
      s.graph.Superseded old ro
        { kind := kind.nodeKind, name := some name, owner := some s.home } g := by
  have hk : kind.nodeKind.isClassifier = true := by cases kind <;> rfl
  obtain ⟨hne, _⟩ := h.ne_of_member hm
  obtain ⟨x, hx, hxo, hxk, -⟩ := hm
  obtain rfl := Option.some.inj (hold.symm.trans hx)
  have hco := NodeKind.role?_eq_inner.mp hxk
  obtain ⟨g₁, g₂, g, hcreate, hreplace, hdelete, hs⟩ :=
    GraphM.supersede_ok h.graph hold hco hxo hne hk (some name)
  refine ⟨g, ?_, hs⟩
  unfold supersede
  rw [bind_run (change_ok hcreate), bind_run (change_ok hreplace), bind_run (change_ok hdelete)]
  rfl

lemma performs_supersede (h : s.Nested) (kind : ClassifierKind) {ro : Node}
    (hold : s.graph.node? old = some ro)
    (hm : s.graph.IsMember s.home .inner (some name) old) :
    Performs (.clear u s.homes) s (supersede old kind name s.home s) fun n t => n = s.graph.next ∧
      UnitState.Upserted kind.nodeKind name n s t ∧ ¬t.graph.Tagged n generatedTag := by
  have hk : kind.nodeKind.isClassifier = true := by cases kind <;> rfl
  obtain ⟨x, hx, hxo, hxk, hxn⟩ := id hm
  obtain rfl := Option.some.inj (hold.symm.trans hx)
  have hco := NodeKind.role?_eq_inner.mp hxk
  obtain ⟨g, hrun, hs⟩ := supersede_run h kind hold hm
  have hsteps : Steps (Permit.clear u s.homes) s.graph g :=
    (Step.supersede hold hco hk hxn.symm hxo.symm (by simp [Node.endpoints]) hs).permitted
      ⟨trivial, h.clears_supersede hm _⟩
  have hu := upserted_superseded h hk hold hm hs
  rw [hrun]
  exact ⟨⟨hsteps, rfl, hu.same rfl ⟨rfl, rfl⟩, fun ht => (hs.tagged h.graph hold hk ht).1 rfl⟩⟩

lemma performs_upsertNode (u : UnitContext) (h : s.Nested) (kind : ClassifierKind)
    (name : String) :
    Performs (.clear u s.homes) s (upsertNode kind name s.home s) fun n t =>
      UnitState.Upserted kind.nodeKind name n s t ∧ ¬t.graph.Tagged n generatedTag := by
  have hkind : kind.nodeKind.isClassifier = true := by cases kind <;> rfl
  unfold upsertNode
  refine Performs.bind (performs_adoptClassifier h name) ?_
  rintro (_ | n) t hs hadopt
  · obtain ⟨ht, hfresh⟩ := hadopt
    obtain rfl : s = t := ht.symm
    obtain ⟨k, hk, hplace⟩ := h.home_kind
    obtain ⟨g', hrun, hb⟩ := GraphM.create_under s.graph kind.nodeKind (some name)
      (isLive_of_kind? hk)
    have hadd : s.graph.Addable
        { kind := kind.nodeKind, name := some name, owner := some s.home } :=
      addable_member hk (mayOwn_classifier hplace hkind) (NodeKind.role?_eq_inner.mpr hkind)
        (by simp) fun _ => hfresh
    have hjoint : kind.nodeKind.isJoint = false := by cases kind <;> rfl
    have hstep := h.graph.build hadd hjoint hb fun key hf =>
      eq_place_of_fits (NodeKind.family?_eq_classType.mpr hkind) hf ▸ free_classifier hfresh
    have hplain : kind.nodeKind ≠ .taggedValue := by cases kind <;> decide
    refine bind_change hrun (hstep.permitted ⟨(absurd · hplain), (absurd · hplain)⟩)
      (bind_register (bind_emit ?_))
    have hu := upserted_built h hkind hb hfresh
    refine Performs.answer ⟨hu.same rfl ⟨rfl, rfl⟩, fun ht => ?_⟩
    · rcases hb.tagged ht with ⟨hkt, _⟩ | ⟨t, r, hr, _, hro, _⟩
      · exact hplain hkt
      · exact ne_next (h.graph.owner_live hr hro) rfl
  · obtain ⟨k, hk, hu⟩ := hadopt
    have ht : t.Nested := h.steps hs hu.unit fun scope hin => by
      cases ho : s.scopes.opened with
      | nil => simp [ho] at hin
      | cons scope' rest =>
        have hd := hu.declared ho
        rw [ho] at hin
        rcases List.mem_cons.mp hin with rfl | hin
        exacts [hd.member.toStays, (hd.outer scope hin).toStays]
    have hhome : t.home = s.home := by simp [UnitState.home, hu.unit.scopes]
    obtain ⟨r, hr, hrk, hro, hrn⟩ := hu.node
    refine bind_query fun k' hk' => ?_
    have hk'' : k' = k := by
      unfold kindOf at hk'
      rw [get_of_node? hr] at hk'
      exact (Except.ok.inj hk').symm.trans hrk
    subst hk''
    split_ifs with hne
    · have hm : t.graph.IsMember t.home .inner (some name) n :=
        ⟨r, hr, hhome ▸ hro, NodeKind.role?_eq_inner.mpr (hrk ▸ hk), hrn⟩
      have hrun := performs_supersede (u := u) ht kind hr hm
      rw [hhome, UnitState.homes, hu.unit.scopes] at hrun
      refine hrun.imp ?_
      rintro n' t' ⟨rfl, hu', htag⟩
      refine ⟨hu.trans hu' fun hl => ?_, htag⟩
      exact ne_next (hl) (le_antisymm (lt_next hl).le hs.ages.next ▸ rfl)
    · rw [not_not] at hne
      subst hne
      refine bind_emit ?_
      have hu₁ : UnitState.Upserted kind.nodeKind name n s
          { t with log := .classifierFound name :: t.log } := hu.same rfl ⟨rfl, rfl⟩
      have ht₁ : ({ t with log := .classifierFound name :: t.log } : UnitState).Sound :=
        ht.toSound.steps (P := Permit.free u) .refl ⟨rfl, rfl⟩
      generalize ({ t with log := .classifierFound name :: t.log } : UnitState) = t₁ at hu₁ ht₁
      have hrun : Performs (.aroundClassifiers u) t₁ (change (.removeTaggedValues n generatedTag) t₁)
          fun _ t' => t₁.SameUnit t' ∧ ¬t'.graph.Tagged n generatedTag :=
        performs_removeTaggedValues ht₁.graph n generatedTag (by decide)
      refine Performs.bind (Performs.leads_and ht₁ hrun (Permit.Modest.le_clear s.homes)) ?_
      rintro _ t' _ ⟨hl, htag⟩
      exact Performs.answer ⟨hu₁.leads h hkind hl, htag⟩

end ImportM

end DeclGraph
