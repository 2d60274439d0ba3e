import DeclGraph.Proofs.Graph.Membership

/-! Visits to classifiers: the classifiers that are open lie in each other and in a package, a visit
keeps track of the members declared in it, and at its end it deletes members and nothing else that
is open or a member. -/

namespace DeclGraph

namespace Graph

variable {g g₁ g' : Graph} {n m p v package : NodeId} {homes outer : List NodeId} {r : Node}
  {role : MemberRole} {name : String} {k : NodeKind}

/-- Classifiers that lie in each other, innermost first, and in a package. None of them is a
placeholder. -/
def Nested (g : Graph) (package : NodeId) : List NodeId → Prop
  | [] => True
  | n :: outer => n ∉ outer ∧ ¬g.Tagged n generatedTag ∧
    (∃ r, g.node? n = some r ∧ r.kind.isClassifier = true ∧
      r.owner = some (outer.head?.getD package)) ∧ g.Nested package outer

namespace Nested

lemma classifier (h : g.Nested package homes) (hn : n ∈ homes) :
    ¬g.Tagged n generatedTag ∧ ∃ r, g.node? n = some r ∧ r.kind.isClassifier = true ∧
      ∃ p, r.owner = some p ∧ (p ∈ homes.tail ∨ p = package) := by
  induction homes with
  | nil => simp at hn
  | cons h₀ outer ih =>
    obtain ⟨-, ht, ⟨r, hr, hk, ho⟩, hrest⟩ := h
    rcases List.mem_cons.mp hn with rfl | hn
    · refine ⟨ht, r, hr, hk, _, ho, ?_⟩
      cases outer with
      | nil => exact Or.inr rfl
      | cons p rest => exact Or.inl (by simp)
    · obtain ⟨ht', r', hr', hk', p, hp, hin⟩ := ih hrest hn
      exact ⟨ht', r', hr', hk', p, hp, hin.imp_left List.mem_of_mem_tail⟩

lemma stays (h : g.Nested package homes) (hs : ∀ n ∈ homes, g.Stays n g') :
    g'.Nested package homes := by
  induction homes with
  | nil => trivial
  | cons n outer ih =>
    obtain ⟨hn, ht, ⟨r, hr, hk, ho⟩, hrest⟩ := h
    have hs₀ := hs n (by simp)
    obtain ⟨r', hr', hk', ho', _⟩ := hs₀.node hr
    exact ⟨hn, fun ht' => ht (hs₀.tagged ht'), ⟨r', hr', hk' ▸ hk, ho'.trans ho⟩,
      ih hrest fun m hm => hs m (by simp [hm])⟩

/-- A member of the innermost classifier is not open. -/
lemma member_not_mem (h : g.Nested package (n :: outer)) (hp : g.kind? package = some k)
    (hk : k.isPackage = true) {name : Option String} (hv : g.IsMember n role name v) :
    v ∉ n :: outer := by
  intro hmem
  obtain ⟨_, r, hr, _, p, ho, hin⟩ := h.classifier hmem
  obtain ⟨r', hr', ho', _⟩ := hv
  obtain rfl := Option.some.inj (hr.symm.trans hr')
  obtain rfl := Option.some.inj (ho.symm.trans ho')
  rcases hin with hin | rfl
  · exact h.1 hin
  · obtain ⟨_, _, ⟨x, hx, hkx, _⟩, _⟩ := h
    rw [kind?_eq hx] at hp
    rw [← Option.some.inj hp] at hk
    revert hk hkx
    cases x.kind <;> decide

variable (hg : g.Sound) (hp : g.kind? package = some k) (hk : k.isPackage = true)
include hg hp hk

/-- What open classifiers lie in is open or a package. -/
lemma mem_of_below (h : g.Nested package homes) (hv : ∀ k, g.kind? v = some k → k.isPackage = false)
    (hn : n ∈ homes) (hb : g.Below v n) : v ∈ homes := by
  have package_not : ¬g.Below v package := fun hb => by
    obtain ⟨k', hk', hpk⟩ := hg.isPackage_of_below hb hp hk
    rw [hv k' hk'] at hpk
    exact Bool.noConfusion hpk
  induction hb with
  | self => exact hn
  | @part p c r hb hr ho ih =>
    obtain ⟨_, r', hr', _, q, hq, hin⟩ := h.classifier hn
    obtain rfl := Option.some.inj (hr.symm.trans hr')
    obtain rfl := Option.some.inj (ho.symm.trans hq)
    rcases hin with hin | rfl
    · exact ih (List.mem_of_mem_tail hin)
    · exact absurd hb package_not

/-- Deleting a member of the innermost classifier meets nothing open and no other member. -/
lemma member_not_doomed (h : g.Nested package (n :: outer)) {name : Option String}
    (hv : g.IsMember n role name v) :
    (∀ p ∈ n :: outer, p ∉ g.doomedWith v) ∧
      ∀ p ∈ n :: outer, ∀ {role name m}, g.IsMember p role name m → m ≠ v → m ∉ g.doomedWith v := by
  obtain ⟨kv, hkv, hrole⟩ := hv.declared
  have hnp : ∀ k, g.kind? v = some k → k.isPackage = false := by
    intro k hk
    obtain rfl := Option.some.inj (hkv.symm.trans hk)
    revert hrole
    cases kv <;> simp [NodeKind.role?, NodeKind.isPackage]
  have hout := h.member_not_mem hp hk hv
  have not_below : ∀ p ∈ n :: outer, ¬g.Below v p :=
    fun p hp' hb => hout (h.mem_of_below hg hp hk hnp hp' hb)
  have not_doomed : ∀ {m k}, g.kind? m = some k → k.isDeclared = true → ¬g.Below v m →
      m ∉ g.doomedWith v := by
    intro m k hm hdec hb hd
    refine (hg.doomedWith hd).elim hb fun hu => ?_
    rw [hu hm] at hdec
    exact Bool.noConfusion hdec
  constructor
  · intro p hp'
    obtain ⟨_, r, hr, hkr, _⟩ := h.classifier hp'
    refine not_doomed (kind?_eq hr) ?_ (not_below p hp')
    exact NodeKind.isDeclared_of_role (NodeKind.role?_eq_inner.mpr hkr)
  · intro p hp' role name m hm hmv
    obtain ⟨km, hkm, hrole'⟩ := hm.declared
    refine not_doomed hkm (NodeKind.isDeclared_of_role hrole') fun hb => ?_
    cases hb with
    | self => exact hmv rfl
    | part hb hr ho =>
      obtain ⟨r, hr', ho', _⟩ := hm
      obtain rfl := Option.some.inj (hr.symm.trans hr')
      obtain rfl := Option.some.inj (ho.symm.trans ho')
      exact not_below _ hp' hb

/-- Deleting a member of the innermost classifier leaves the outer ones alone. -/
lemma spares_delete (h : g.Nested package (n :: outer)) {name : Option String}
    (hv : g.IsMember n role name v) (hp' : p ∈ outer) :
    g.Spares p (g.remove (g.doomedWith v)) := by
  obtain ⟨hopen, hmembers⟩ := h.member_not_doomed hg hp hk hv
  refine hg.spares_remove (hopen p (by simp [hp'])) fun hm => hmembers p (by simp [hp']) hm ?_
  rintro rfl
  obtain ⟨rfl, _⟩ := hm.unique hv
  exact h.1 hp'

end Nested

/-- What became of the members of a classifier since `g₁` when those under some keys were declared:
the elements declared are `touched`, and the others are as they were. -/
structure Track (g₁ : Graph) (n : NodeId) (keys : List (MemberRole × String))
    (touched : List NodeId) (g : Graph) : Prop extends Stays g₁ n g where
  features : (∀ key ∈ keys, key.1 = .inner) → g₁.SameFeatures n g
  others : ∀ {role name m}, (role, name) ∉ keys →
    (g.IsMember n role (some name) m ↔ g₁.IsMember n role (some name) m)
  untouched : ∀ {role name m}, (role, name) ∉ keys → g.IsMember n role (some name) m → m ∉ touched
  declared : ∀ {role name}, (role, name) ∈ keys → ∃ m ∈ touched, g.IsMember n role (some name) m
  kept : ∀ {role name m}, g₁.IsMember n role (some name) m →
    g.IsMember n role (some name) m ∨ role = .inner ∧ ¬g.isLive m = true

namespace Track

variable {keys : List (MemberRole × String)} {touched : List NodeId}

lemma start (g : Graph) (n : NodeId) : g.Track n [] [] g where
  toStays := .refl g n
  features _ := .refl g n
  others _ := Iff.rfl
  untouched _ _ := by simp
  declared hin := by simp at hin
  kept := Or.inl

lemma spares (h : g₁.Track n keys touched g) (hs : g.Spares n g') : g₁.Track n keys touched g' where
  toStays := h.toStays.trans hs.toStays
  features hall := h.features_trans (h.features hall) hs.features
  others hin := hs.member.trans (h.others hin)
  untouched hin hm := h.untouched hin (hs.member.mp hm)
  declared hin := by
    obtain ⟨m, hm, hmem⟩ := h.declared hin
    exact ⟨m, hm, hs.member.mpr hmem⟩
  kept hm := by
    refine (h.kept hm).imp hs.member.mpr fun ⟨hi, hd⟩ => ⟨hi, fun hl => hd ?_⟩
    exact hs.ages.live _ ((lt_next hm.isLive).trans_le h.ages.next) hl

lemma declares {m : NodeId} (h : g₁.Track n keys touched g) (hd : g.Declares n role name m g') :
    g₁.Track n (keys ++ [(role, name)]) (m :: touched) g' where
  toStays := h.toStays.trans hd.toStays
  features hall := h.features_trans (h.features fun key hin => hall key (by simp [hin]))
    (hd.features (hall (role, name) (by simp)))
  others := by
    intro role' name' m' hin
    simp only [List.mem_append, List.mem_singleton, Prod.mk.injEq, not_or] at hin
    rw [hd.member, if_neg (by simpa using hin.2)]
    exact h.others hin.1
  untouched := by
    intro role' name' m' hin hm
    simp only [List.mem_append, List.mem_singleton, Prod.mk.injEq, not_or] at hin
    have hm' := hm
    rw [hd.member, if_neg (by simpa using hin.2)] at hm'
    rw [List.mem_cons, not_or]
    refine ⟨?_, h.untouched hin.1 hm'⟩
    rintro rfl
    have hnew : g'.IsMember n role (some name) m' := hd.member.mpr (by simp)
    obtain ⟨_, hr, hn⟩ := hm.unique hnew
    exact hin.2 ⟨hr, Option.some.inj hn⟩
  declared := by
    intro role' name' hin
    by_cases heq : role' = role ∧ name' = name
    · obtain ⟨rfl, rfl⟩ := heq
      exact ⟨m, by simp, hd.member.mpr (by simp)⟩
    · have hin' : (role', name') ∈ keys := by
        simpa [heq] using hin
      obtain ⟨m', hm', hmem⟩ := h.declared hin'
      refine ⟨m', by simp [hm'], hd.member.mpr ?_⟩
      rw [if_neg (by simpa using heq)]
      exact hmem
  kept := by
    intro role' name' m' hm
    rcases h.kept hm with hm' | ⟨hi, hdead⟩
    · by_cases heq : role' = role ∧ name' = name
      · obtain ⟨rfl, rfl⟩ := heq
        rcases hd.gone hm' with rfl | hgone
        · exact Or.inl (hd.member.mpr (by simp))
        · exact Or.inr hgone
      · refine Or.inl (hd.member.mpr ?_)
        rw [if_neg (by simpa using heq)]
        exact hm'
    · refine Or.inr ⟨hi, fun hl => hdead ?_⟩
      exact hd.ages.live _ ((lt_next hm.isLive).trans_le h.ages.next) hl

end Track

/-- `g'` is what is left of `g` when some members of a classifier are deleted. -/
structure Pruned (g : Graph) (n : NodeId) (gone : List NodeId) (g' : Graph) : Prop
    extends Stays g n g' where
  features : ∀ {r r'}, g.node? n = some r → g'.node? n = some r' →
    r'.features = r.features.filter (· ∉ gone)
  member : ∀ {role name m}, g'.IsMember n role name m ↔ g.IsMember n role name m ∧ m ∉ gone
  dead : ∀ m ∈ gone, ¬g'.isLive m = true

namespace Pruned

variable {gone : List NodeId}

lemma refl (g : Graph) (n : NodeId) : g.Pruned n [] g :=
  ⟨.refl g n, fun hr hr' => by simp [SameFeatures.refl g n _ _ hr hr'], by simp, by simp⟩

/-- One that is gone already. -/
lemma skip (h : g.Pruned n gone g') (hg : g'.Sound) (hv : ¬g'.isLive v = true) :
    g.Pruned n (v :: gone) g' := by
  refine ⟨h.toStays, fun hr hr' => ?_, ?_, ?_⟩
  · have hf := h.features hr hr'
    refine hf.trans (List.filter_congr fun c hc => ?_)
    have hcv : c ∉ gone → c ≠ v := by
      rintro hcg rfl
      refine hv (hg.children_live hr' (s := .features) ?_)
      change c ∈ Node.features _
      rw [hf]
      exact List.mem_filter.mpr ⟨hc, by simpa using hcg⟩
    simp only [List.mem_cons, not_or, decide_eq_decide]
    exact ⟨fun hcg => ⟨hcv hcg, hcg⟩, fun h => h.2⟩
  · intro role name m
    rw [h.member, List.mem_cons, not_or]
    refine ⟨fun hm => ⟨hm.1, ?_, hm.2⟩, fun hm => ⟨hm.1, hm.2.2⟩⟩
    rintro rfl
    exact hv (h.member.mpr hm).isLive
  · intro m hm
    rcases List.mem_cons.mp hm with rfl | hm
    exacts [hv, h.dead m hm]

lemma delete (h : g.Pruned n gone g') (hg : g'.Sound) (hc : g'.Nested package (n :: outer))
    (hp : g'.kind? package = some k) (hk : k.isPackage = true) {name : Option String}
    (hv : g'.IsMember n role name v) : g.Pruned n (v :: gone) (g'.remove (g'.doomedWith v)) := by
  obtain ⟨hopen, hmembers⟩ := hc.member_not_doomed hg hp hk hv
  have hself := self_mem_doomedWith hv.isLive
  have hstays : g'.Stays n (g'.remove (g'.doomedWith v)) := by
    refine ⟨ages_remove, fun {r} hr => ?_, Tagged.of_remove⟩
    exact ⟨_, node?_remove_eq_some.mpr ⟨hopen n (by simp), r, hr, rfl⟩, rfl, rfl, rfl⟩
  refine ⟨h.toStays.trans hstays, fun {r y} hr hy => ?_, ?_, ?_⟩
  · obtain ⟨_, r', hr', rfl⟩ := node?_remove_eq_some.mp hy
    have hf' := h.features hr hr'
    have hforget : (r'.forget (g'.doomedWith v)).features =
        r'.features.filter (· ∉ g'.doomedWith v) := rfl
    have hiff : ∀ c ∈ r'.features, (decide (c ∉ g'.doomedWith v)) = decide (c ≠ v) := by
      intro c hc'
      rw [decide_eq_decide]
      refine ⟨fun hcd hcv => hcd (hcv ▸ hself), fun hcv => ?_⟩
      obtain ⟨_, _, _, hm⟩ := (hg.mem_features hr').mp hc'
      exact hmembers n (by simp) hm hcv
    rw [hforget, List.filter_congr hiff, hf', List.filter_filter]
    refine List.filter_congr fun c _ => ?_
    simp [List.mem_cons, not_or]
  · intro role' name' m
    rw [isMember_remove, h.member, List.mem_cons, not_or]
    constructor
    · rintro ⟨hmd, hm, hmg⟩
      exact ⟨hm, fun hmv => hmd (hmv ▸ hself), hmg⟩
    · rintro ⟨hm, hmv, hmg⟩
      exact ⟨hmembers n (by simp) (h.member.mpr ⟨hm, hmg⟩) hmv, hm, hmg⟩
  · intro m hm hl
    rcases List.mem_cons.mp hm with rfl | hm
    · exact (isLive_remove.mp hl).2 hself
    · exact h.dead m hm (isLive_remove.mp hl).1

end Pruned

end Graph

end DeclGraph
