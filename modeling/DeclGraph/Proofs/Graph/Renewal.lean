import DeclGraph.Proofs.Graph.Nesting

/-! What a visit makes of the members of a classifier: those that were declared again stay, and the
others are gone. -/

namespace DeclGraph

namespace Graph

variable {g g₁ g' : Graph} {n m v : NodeId} {keys : List (MemberRole × String)}
  {touched gone gone' : List NodeId} {role : MemberRole} {name : String}

/-- The element `v` was made before, and if it is there still, it is a member of `n`. -/
structure Former (g : Graph) (n v : NodeId) : Prop where
  old : v < g.next
  member : g.isLive v = true → ∃ role name, g.IsMember n role name v

lemma Pruned.congr (h : g.Pruned n gone g') (hg : ∀ v, v ∈ gone' ↔ v ∈ gone) :
    g.Pruned n gone' g' := by
  refine ⟨h.toStays, fun hr hr' => ?_, ?_, fun v hv => h.dead v ((hg v).mp hv)⟩
  · simp only [hg]
    exact h.features hr hr'
  · intro role name m
    rw [h.member, hg]

/-- The members of a classifier in some roles are those under some keys. What was a member before
is one still, if it is under a key and no inner classifier, and is gone if it is under none. -/
structure Renewed (g : Graph) (n : NodeId) (roles : MemberRole → Bool)
    (keys : List (MemberRole × String)) (g' : Graph) : Prop extends Stays g n g' where
  declared : ∀ {role name}, roles role = true →
    ((∃ m, g'.IsMember n role (some name) m) ↔ (role, name) ∈ keys)
  kept : ∀ {role name m}, role ≠ .inner → (role, name) ∈ keys → g.IsMember n role (some name) m →
    g'.IsMember n role (some name) m
  gone : ∀ {role name m}, roles role = true → (role, name) ∉ keys → g.IsMember n role (some name) m →
    ¬g'.isLive m = true
  features : (∀ role, roles role = true → role = .inner) → g.SameFeatures n g'

section track

variable {roles : MemberRole → Bool} {stale : List NodeId}

/-- What may be stale was a member and is one still, if it is there. -/
lemma Track.former (h : g.Track n keys touched g₁) (hm : g.IsMember n role (some name) m) :
    g₁.Former n m := by
  refine ⟨(lt_next hm.isLive).trans_le h.ages.next, fun hl => ⟨role, some name, ?_⟩⟩
  exact (h.kept hm).resolve_right fun hd => hd.2 hl

/-- Deleting the members from before that were not declared again. -/
lemma Track.renewed (h : g.Track n keys touched g₁) (hg : g₁.Sound)
    (hn : ∃ k, g₁.kind? n = some k ∧ k.isClassifier = true)
    (hkeys : ∀ key ∈ keys, roles key.1 = true) (hp : g₁.Pruned n stale g')
    (hstale : ∀ v, v ∈ stale ↔
      (∃ role name, roles role = true ∧ g.IsMember n role (some name) v) ∧ v ∉ touched) :
    g.Renewed n roles keys g' where
  toStays := h.toStays.trans hp.toStays
  declared := by
    intro role name hrole
    constructor
    · rintro ⟨m, hm⟩
      by_contra hkey
      obtain ⟨hm₁, hnew⟩ := hp.member.mp hm
      exact hnew ((hstale m).mpr ⟨⟨role, name, hrole, (h.others hkey).mp hm₁⟩, h.untouched hkey hm₁⟩)
    · intro hkey
      obtain ⟨m, hm, hmem⟩ := h.declared hkey
      exact ⟨m, hp.member.mpr ⟨hmem, fun hs => ((hstale m).mp hs).2 hm⟩⟩
  kept := by
    intro role name m hne hkey hm
    obtain ⟨k, hk, hc⟩ := hn
    obtain ⟨m', hm', hmem'⟩ := h.declared hkey
    have hmem := (h.kept hm).resolve_right fun hd => hne hd.1
    obtain rfl := hg.distinct hk hc hmem hmem'
    exact hp.member.mpr ⟨hmem, fun hs => ((hstale m).mp hs).2 hm'⟩
  gone := by
    intro role name m hrole hkey hm hl
    have hold := (lt_next hm.isLive).trans_le h.ages.next
    have hl₁ := hp.ages.live m hold hl
    have hmem := (h.kept hm).resolve_right fun hd => hd.2 hl₁
    exact hp.dead m ((hstale m).mpr ⟨⟨role, name, hrole, hm⟩, h.untouched hkey hmem⟩) hl
  features := by
    intro hinner r r' hr hr'
    obtain ⟨r₁, hr₁, _⟩ := h.node hr
    rw [hp.features hr₁ hr', ← h.features (fun key hin => hinner _ (hkeys key hin)) r r₁ hr hr₁]
    refine List.filter_eq_self.mpr fun c hc => ?_
    obtain ⟨role, name, hne, hm⟩ := (hg.mem_features hr₁).mp hc
    refine decide_eq_true fun hs => ?_
    obtain ⟨⟨role', name', hrole', hm'⟩, _⟩ := (hstale c).mp hs
    obtain rfl := hinner role' hrole'
    have hm₁ := (h.kept hm').resolve_right fun hd => hd.2 hm.isLive
    exact hne (hm.unique hm₁).2.1

end track

end Graph

end DeclGraph
