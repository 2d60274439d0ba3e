import DeclGraph.Proofs.Graph.Renewal

/-! Changes that keep clear of some classifiers: these stay where they are, and their members are
members still, unless they are gone. -/

namespace DeclGraph

open DeclGraph.Graph

/-- A change neither marks nor moves nor replaces any of some classifiers, and neither deletes what
is declared nor takes a member of theirs elsewhere. -/
def Change.Clears (homes : List NodeId) (g : Graph) : Change → Prop
  | .build r => r.kind = .taggedValue → r.name ≠ some generatedTag
  | .move n _ => ∃ r, g.node? n = some r ∧ r.kind ≠ .taggedValue ∧
      (r.kind.role? = none ∨ n ∉ homes ∧ ∀ p ∈ homes, r.owner ≠ some p)
  | .delete n => ∃ k, g.kind? n = some k ∧ k.role? = none
  | .supersede old _ => old ∉ homes ∧ ∀ p ∈ homes, ∀ r, g.node? p = some r → r.owner ≠ some old
  | .edit .. | .force _ | .associate _ => True

namespace Graph

variable {g g' g'' : Graph} {n v : NodeId} {homes : List NodeId} {k : NodeKind} {c : Change}
  {P : Graph → Change → Prop}

/-- A classifier stays, and what was a member of it is one still, unless it is gone. -/
structure Retains (g : Graph) (n : NodeId) (g' : Graph) : Prop extends Stays g n g' where
  kept : ∀ {role name m}, g.IsMember n role name m → g'.isLive m = true →
    g'.IsMember n role name m

namespace Retains

lemma refl (g : Graph) (n : NodeId) : g.Retains n g := ⟨.refl g n, fun hm _ => hm⟩

lemma trans (h : g.Retains n g') (h' : g'.Retains n g'') : g.Retains n g'' := by
  refine ⟨h.toStays.trans h'.toStays, fun {role name m} hm hl => h'.kept (h.kept hm ?_) hl⟩
  exact h'.ages.live m ((lt_next hm.isLive).trans_le h.ages.next) hl

lemma former (h : g.Retains n g') (hv : g.Former n v) : g'.Former n v := by
  refine ⟨hv.old.trans_le h.ages.next, fun hl => ?_⟩
  obtain ⟨role, name, hm⟩ := hv.member (h.ages.live v hv.old hl)
  exact ⟨role, name, h.kept hm hl⟩

end Retains

lemma Spares.retains (h : g.Spares n g') : g.Retains n g' :=
  ⟨h.toStays, fun hm _ => h.member.mpr hm⟩

lemma Declares.retains {role : MemberRole} {name : String} {m : NodeId}
    (h : g.Declares n role name m g') : g.Retains n g' := by
  refine ⟨h.toStays, fun {role' name' m'} hm hl => h.member.mpr ?_⟩
  split_ifs with heq
  · obtain ⟨rfl, rfl⟩ := heq
    exact (h.gone hm).resolve_right fun hd => hd.2 hl
  · exact hm

/-- What is built is a new member at most. -/
lemma Built.retains {r : Node} (h : g.Built r g')
    (hmark : r.kind = .taggedValue → r.name = some generatedTag → r.owner ≠ some n) :
    g.Retains n g' :=
  ⟨h.stays hmark, fun hm _ => h.isMember_iff.mpr (Or.inr hm)⟩

lemma Sound.retains_step (h : g.Sound) (hc : g.Step c g') (hclear : c.Clears homes g)
    (hin : n ∈ homes) (hn : g.kind? n = some k) (hk : k.isClassifier = true) : g.Retains n g' := by
  obtain ⟨x, hx, rfl⟩ := kind?_eq_some.mp hn
  have hrole := NodeKind.role?_eq_inner.mpr hk
  cases hc with
  | build _ _ hb => exact hb.retains fun hkt hname => absurd hname (hclear hkt)
  | @move v _ r _ hr _ hmoved =>
    obtain ⟨_, hr', hnt, hfar⟩ := hclear
    obtain rfl := Option.some.inj (hr.symm.trans hr')
    refine ⟨hmoved.stays hr hnt ?_, fun {role name m} hm _ => (hmoved.isMember_iff hr).mpr ?_⟩
    · rintro rfl
      obtain rfl := Option.some.inj (hr.symm.trans hx)
      rcases hfar with hno | hout
      · rw [hrole] at hno
        exact absurd hno (by simp)
      · exact hout.1 hin
    · rw [if_neg]
      · exact hm
      · rintro rfl
        obtain ⟨ho, hrm, -⟩ := (Graph.isMember_iff hr).mp hm
        rcases hfar with hno | hout
        · rw [hrm] at hno
          exact absurd hno (by simp)
        · exact hout.2 n hin ho
  | edit hr he _ hed => exact (hed.spares hr he n).retains
  | @delete v r hr hnp =>
    obtain ⟨kv, hkv, hno⟩ := hclear
    obtain rfl := Option.some.inj ((kind?_eq hr).symm.trans hkv)
    have hund : r.kind.isDeclared = false := by simp [NodeKind.isDeclared, hnp, hno]
    have hout := h.not_doomed hkv hund hn (NodeKind.isDeclared_of_role hrole)
    refine ⟨⟨ages_remove, fun {y} hy => ?_, Tagged.of_remove⟩, fun hm hl => ?_⟩
    · exact ⟨_, node?_remove_eq_some.mpr ⟨hout, y, hy, rfl⟩, rfl, rfl, rfl⟩
    · exact isMember_remove.mpr ⟨(isLive_remove.mp hl).2, hm⟩
  | force _ hcls _ hb hmark =>
    refine (hb.retains fun hkt => ?_).trans (hmark.retains fun _ _ ho => ?_)
    · rw [hkt] at hcls
      exact Bool.noConfusion hcls
    · exact ne_next (isLive_of_node? hx) (Option.some.inj ho).symm
  | @supersede old ro r _ hold _ hcls _ _ _ hs =>
    have hno : n ≠ old := fun heq => hclear.1 (heq ▸ hin)
    obtain ⟨y, hy, hsame, -⟩ := hs.node_features h hold hx hk hno (hclear.2 n hin x hx)
    refine ⟨⟨hs.ages, fun {z} hz => ?_, fun ht => (hs.tagged h hold hcls ht).2⟩,
      fun {role name m} hm hl => hs.isMember_stay h hold hm ?_ hno⟩
    · obtain rfl := Option.some.inj (hx.symm.trans hz)
      exact ⟨y, hy, hsame⟩
    · rintro rfl
      simp [Graph.isLive, hs.gone m (Or.inl rfl)] at hl
  | associate ha => exact (ha.spares n).retains

/-- Runs that keep clear of classifiers retain them. -/
lemma Sound.retains (h : g.Sound) (hs : Steps P g g') (hP : ∀ g c, P g c → c.Clears homes g)
    (hin : n ∈ homes) (hn : g.kind? n = some k) (hk : k.isClassifier = true) : g.Retains n g' := by
  refine h.relate (R := fun g g' => ∀ n ∈ homes, ∀ k, g.kind? n = some k →
    k.isClassifier = true → g.Retains n g') hs (fun g n _ _ _ _ => .refl g n) ?_ ?_ n hin k hn hk
  · exact fun h h' n hin k hn hk =>
      (h n hin k hn hk).trans (h' n hin k ((h n hin k hn hk).kind? hn) hk)
  · exact fun h hP' hc n hin k hn hk => h.retains_step hc (hP _ _ hP') hin hn hk

end Graph

end DeclGraph
