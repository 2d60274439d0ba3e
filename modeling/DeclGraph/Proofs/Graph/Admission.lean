import DeclGraph.Proofs.Graph.Association

/-! Which keys elements may get from a change, and when the change keeps elements apart. -/

namespace DeclGraph

open DeclGraph.Graph

namespace Graph

variable {g g' : Graph} {n m p home a e o c : NodeId} {r x y : Node} {key : Key} {k : NodeKind}

lemma fits_congr (hb : y.bare = x.bare) (ho : y.owner = x.owner) : g.Fits y key ↔ g.Fits x key := by
  obtain ⟨hk, hn, -, hge, hsp, hc, hs, hre, -, -, hst⟩ := Node.bare_congr hb
  cases key <;> simp only [Fits, Connects, Marked, hk, hn, ho, hge, hsp, hc, hs, hre, hst]

lemma marked_back {name : String} (hr : ∀ st ∈ r.stereotypes, ∀ {x'}, g'.node? st = some x' →
    ∃ x, g.node? st = some x ∧ x'.name = x.name) (h : g'.Marked r name) : g.Marked r name := by
  obtain ⟨st, hst, x', hx', hname⟩ := h
  obtain ⟨x, hx, hn⟩ := hr st hst hx'
  exact ⟨st, hst, x, hx, hn ▸ hname⟩

/-- An element of a family is told apart by its place alone. -/
lemma eq_place_of_fits (hk : r.kind.family? = some k) (h : g.Fits r key) :
    key = .place k r.owner r.name := by
  cases key with
  | place k' p name =>
    obtain ⟨hk', rfl, rfl, -⟩ := h
    rw [Option.some.inj (hk.symm.trans hk')]
  | edge k' c p =>
    obtain ⟨-, hc⟩ := h
    unfold Connects at hc
    cases hr : r.kind <;> rw [hr] at hk hc <;> first
      | exact hc.elim
      | exact absurd hk (by simp [NodeKind.family?])
  | residence c =>
    rw [h.1] at hk
    exact absurd hk (by simp [NodeKind.family?])
  | field c p name => exact h.elim

/-- A record fits the keys it fitted before as long as its stereotypes keep their names. -/
lemma fits_back (hr : ∀ st ∈ r.stereotypes, ∀ {x'}, g'.node? st = some x' →
    ∃ x, g.node? st = some x ∧ x'.name = x.name) (h : g'.Fits r key) : g.Fits r key := by
  cases key with
  | edge k c p =>
    obtain ⟨hk, hc⟩ := h
    refine ⟨hk, ?_⟩
    unfold Connects at hc ⊢
    cases hr' : r.kind <;> rw [hr'] at hc <;> first
      | exact hc
      | exact ⟨hc.1, hc.2.1, marked_back hr hc.2.2⟩
  | _ => exact h

/-- A new element gets the keys of its record, and no other element gets any. -/
lemma Built.bears (hg : g.Sound) (ha : g.Addable r) (hj : r.kind.isJoint = false)
    (hb : g.Built r g') (h : g'.Bears m key) : g.Bears m key ∨ m = g.next ∧ g.Fits r key := by
  have names : ∀ {st}, g.isLive st = true → ∀ {x'}, g'.node? st = some x' →
      ∃ x, g.node? st = some x ∧ x'.name = x.name := by
    intro st hst x' hx'
    rcases hb.cases_bare hx' with ⟨rfl, -⟩ | ⟨x, hx, hbare, -⟩
    · exact absurd rfl (ne_next hst)
    · exact ⟨x, hx, (Node.bare_congr hbare).2.1⟩
  cases h with
  | record hy hf =>
    rcases hb.cases_bare hy with ⟨rfl, rfl⟩ | ⟨x, hx, hbare, ho⟩
    · refine Or.inr ⟨rfl, fits_back (fun st hst => names (ha.live st ?_)) hf⟩
      exact Node.stereotypes_subset_links _ hst
    · refine Or.inl (.record hx (fits_back ?_ ((fits_congr hbare ho).mp hf)))
      exact fun st hst => names (hg.live hx st (x.stereotypes_subset_links hst))
  | association hs =>
    rcases hb.isLive.mp (isLive_of_kind? hs.kind?) with rfl | hl
    · have hk := hs.kind?
      rw [hb.kind?_new] at hk
      rw [Option.some.inj hk] at hj
      exact Bool.noConfusion hj
    · have hk := hs.kind?
      rw [hb.kind?_old hl] at hk
      exact Or.inl (.association (hs.back hg hk fun hs =>
        hs.built hb fun hk => absurd hk (NodeKind.ne_associationEnd hj)))

/-- An element that moves keeps the keys that do not say where it is. -/
lemma Moved.bears (hg : g.Sound) (hr : g.node? n = some r) (hne : r.kind ≠ .associationEnd)
    (hm : g.Moved n r (some home) g') (h : g'.Bears m key) :
    g.Bears m key ∨ m = n ∧ g.Fits { r with owner := some home } key := by
  have names : ∀ {st x'}, g'.node? st = some x' → ∃ x, g.node? st = some x ∧ x'.name = x.name := by
    intro st x' hx'
    obtain ⟨x, hx, hb, -⟩ := hm.cases_bare hx'
    exact ⟨x, hx, (Node.bare_congr hb).2.1⟩
  cases h with
  | record hy hf =>
    obtain ⟨x, hx, hb, ho⟩ := hm.cases_bare hy
    split_ifs at ho with hmn
    · subst hmn
      obtain rfl := Option.some.inj (hr.symm.trans hx)
      have hf' := fits_back (r := { r with owner := some home }) (fun _ _ => names)
        ((fits_congr (x := { r with owner := some home }) hb ho).mp hf)
      exact Or.inr ⟨rfl, hf'⟩
    · exact Or.inl (.record hx (fits_back (fun _ _ => names) ((fits_congr hb ho).mp hf)))
  | association hs =>
    have hk := hs.kind?
    rw [hm.kind?] at hk
    exact Or.inl (.association (hs.back hg hk fun hs => hs.moved hm hne))

/-- An element gets the keys of its new record. -/
lemma Edited.bears (hg : g.Sound) (hr : g.node? n = some r) (hed : g.Editable r y)
    (hend : r.kind = .associationEnd → r.SameEnd y) (he : g.Edited n y g') (h : g'.Bears m key) :
    g.Bears m key ∨ m = n ∧ g.Fits y key := by
  have names : ∀ {st x'}, g'.node? st = some x' → ∃ x, g.node? st = some x ∧ x'.name = x.name := by
    intro st x' hx'
    rw [he.node] at hx'
    split_ifs at hx' with hst
    · obtain rfl := Option.some.inj hx'
      exact ⟨r, hst ▸ hr, hed.name⟩
    · exact ⟨x', hx', rfl⟩
  cases h with
  | record hy hf =>
    have hy' := hy
    rw [he.node] at hy'
    split_ifs at hy' with hmn
    · obtain rfl := Option.some.inj hy'
      exact Or.inr ⟨hmn, fits_back (fun _ _ => names) hf⟩
    · exact Or.inl (.record hy' (fits_back (fun _ _ => names) hf))
  | association hs =>
    have hk := hs.kind?
    rw [he.kind? hr hed.place.kind] at hk
    exact Or.inl (.association (hs.back hg hk fun hs => hs.edited hr hed hend he))

/-- A place is free if nothing is found there. -/
lemma Sound.free_place (hg : g.Sound) (hr : g.node? n = some r) {q : Node → Bool}
    {name : Option String} (hfind : g.findIn (r.children k.slot) q = none)
    (hq : ∀ x, x.kind.family? = some k → x.name = name → q x = true) :
    g.Free (.place k (some n) name) := by
  intro m hm
  cases hm with
  | @record x _ hx hf =>
    obtain ⟨hk, ho, hname, -⟩ := hf
    have hmem := (hg.mem_children hr k.slot m).mpr ⟨x, hx, ho, NodeKind.slot_of_family? hk⟩
    have := List.find?_eq_none.mp hfind m hmem
    exact this (by simp [hx, hq x hk hname])

lemma free_classifier {name : Option String} (h : ∀ m, ¬g.IsMember n .inner name m) :
    g.Free (.place .classType (some n) name) := by
  intro m hm
  cases hm with
  | record hx hf =>
    obtain ⟨hk, ho, hname, -⟩ := hf
    exact h m ⟨_, hx, ho, NodeKind.role?_eq_inner.mpr (NodeKind.family?_eq_classType.mp hk), hname⟩

lemma Built.admits (hg : g.Sound) (ha : g.Addable r) (hj : r.kind.isJoint = false)
    (hb : g.Built r g') (hfree : ∀ key, g.Fits r key → g.Free key) : g.Admits g' :=
  admits_of_claim g.next fun h =>
    (hb.bears hg ha hj h).imp_right fun ⟨hm, hf⟩ => ⟨hm, hfree _ hf⟩

lemma Built.releases (hg : g.Sound) (ha : g.Addable r) (hj : r.kind.isJoint = false)
    (hb : g.Built r g') (hf : ∀ key, ¬g.Fits r key) : g.Releases g' :=
  ⟨fun h => (hb.bears hg ha hj h).resolve_right fun ⟨_, h⟩ => hf _ h⟩

lemma Moved.admits (hg : g.Sound) (hr : g.node? n = some r) (hne : r.kind ≠ .associationEnd)
    (hm : g.Moved n r (some home) g')
    (hfree : ∀ key, g.Fits { r with owner := some home } key → g.Fits r key ∨ g.Free key) :
    g.Admits g' := by
  apply admits_of_claim n
  intro m key h
  rcases hm.bears hg hr hne h with h | ⟨rfl, hf⟩
  · exact Or.inl h
  · exact (hfree key hf).imp (Bears.record hr) fun h => ⟨rfl, h⟩

lemma Edited.admits (hg : g.Sound) (hr : g.node? n = some r) (hed : g.Editable r y)
    (hend : r.kind = .associationEnd → r.SameEnd y) (he : g.Edited n y g')
    (hfree : ∀ key, g.Fits y key → g.Fits r key ∨ g.Free key) : g.Admits g' := by
  apply admits_of_claim n
  intro m key h
  rcases he.bears hg hr hed hend h with h | ⟨rfl, hf⟩
  · exact Or.inl h
  · exact (hfree key hf).imp (Bears.record hr) fun h => ⟨rfl, h⟩

lemma Edited.releases (hg : g.Sound) (hr : g.node? n = some r) (hed : g.Editable r y)
    (hend : r.kind = .associationEnd → r.SameEnd y) (he : g.Edited n y g')
    (hf : ∀ key, g.Fits y key → g.Fits r key) : g.Releases g' := by
  refine ⟨fun {m key} h => ?_⟩
  rcases he.bears hg hr hed hend h with h | ⟨rfl, h⟩
  · exact h
  · exact .record hr (hf key h)

lemma fits_forget {doomed : List NodeId} (h : (g.remove doomed).Fits (x.forget doomed) key) :
    g.Fits x key := by
  have marked : ∀ {name}, (g.remove doomed).Marked (x.forget doomed) name → g.Marked x name := by
    rintro name ⟨st, hst, z, hz, hn⟩
    obtain ⟨-, z', hz', rfl⟩ := node?_remove_eq_some.mp hz
    exact ⟨st, (List.mem_filter.mp hst).1, z', hz', hn⟩
  cases key with
  | edge k c p =>
    obtain ⟨hk, hc⟩ := h
    refine ⟨hk, ?_⟩
    unfold Connects at hc ⊢
    rw [show (x.forget doomed).kind = x.kind from rfl] at hc
    cases hx : x.kind <;> rw [hx] at hc <;> first
      | exact hc
      | exact ⟨(List.mem_filter.mp hc.1).1, (List.mem_filter.mp hc.2.1).1, marked hc.2.2⟩
  | _ => exact h

/-- What a removal leaves keeps its keys. -/
lemma Sound.releases_remove (hg : g.Sound) {doomed : List NodeId}
    (hd : g.DragClosed (· ∈ doomed)) : g.Releases (g.remove doomed) := by
  refine ⟨fun {m key} h => ?_⟩
  cases h with
  | record hy hf =>
    obtain ⟨-, x, hx, rfl⟩ := node?_remove_eq_some.mp hy
    exact .record hx (fits_forget hf)
  | association hs =>
    obtain ⟨y, hy, hk⟩ := kind?_eq_some.mp hs.kind?
    obtain ⟨hm, x, hx, rfl⟩ := node?_remove_eq_some.mp hy
    have hkx : g.kind? m = some .association := (kind?_eq hx).trans (congrArg some hk)
    exact .association (hs.back hg hkx fun hs => hs.removed hd hm)

lemma not_fits_of_isJoint (hk : r.kind.isJoint = true) : ¬g.Fits r key := by
  cases key <;> revert hk <;> cases hr : r.kind <;>
    simp [Fits, Connects, NodeKind.isJoint, NodeKind.family?, hr]

/-- A new association is told apart by what it connects and the name of its navigable end. -/
lemma Associated.bears {name : String} (hg : g.Sound) (h : g.Associated r c p name g')
    (hm : g'.Bears m key) : g.Bears m key ∨ m = g.next ∧ key = .field c p name := by
  cases hm with
  | record hy hf =>
    refine Or.inl ?_
    rcases h.cases_bare hy with hj | ⟨x, hx, hb, ho⟩
    · exact absurd hf (not_fits_of_isJoint hj)
    · refine .record hx (fits_back ?_ ((fits_congr hb ho).mp hf))
      intro st hst z hz
      obtain ⟨xs, hxs⟩ := isLive_iff.mp (hg.live hx st (x.stereotypes_subset_links hst))
      have hks := (hg.proper hx).stereotype st hst (kind?_eq hxs)
      rcases h.cases_bare hz with hj | ⟨x', hx', hb', -⟩
      · have hk := h.kind?_old (isLive_of_node? hxs)
        rw [kind?_eq hz, kind?_eq hxs, hks] at hk
        rw [Option.some.inj hk] at hj
        exact Bool.noConfusion hj
      · exact ⟨x', hx', (Node.bare_congr hb').2.1⟩
  | association hs =>
    rcases h.cases_live (isLive_of_kind? hs.kind?) with rfl | hend | hl
    · obtain ⟨-, -, rfl, rfl, rfl⟩ := hs.unique h.spans
      exact Or.inr ⟨rfl, rfl⟩
    · rw [hs.kind?] at hend
      exact absurd hend (by simp)
    · have hk := hs.kind?
      rw [h.kind?_old hl] at hk
      exact Or.inl (.association (hs.back hg hk h.spans_old))

lemma Associated.admits {name : String} (hg : g.Sound) (h : g.Associated r c p name g')
    (hfree : g.Free (.field c p name)) : g.Admits g' :=
  admits_of_claim g.next fun hm =>
    (h.bears hg hm).imp_right fun ⟨hm, hkey⟩ => ⟨hm, hkey ▸ hfree⟩

/-- Nothing gets a key, and dependencies connect what they did. -/
structure Bypasses (g g' : Graph) : Prop extends g.Releases g' where
  edge : ∀ {m r'}, g'.node? m = some r' → g.isLive m = true → ∃ r, g.node? m = some r ∧
    r'.kind = r.kind ∧ r'.clients = r.clients ∧ r'.suppliers = r.suppliers

/-- No element is told apart by what `n` connects if that is a dependency. -/
def Vacant (g : Graph) (n : NodeId) : Prop :=
  ∀ r, g.node? n = some r → r.kind.isDependency = true → ∀ c ∈ r.clients, ∀ p ∈ r.suppliers,
    g.Free (.edge r.kind c p)

namespace Bypasses

lemma refl (g : Graph) : g.Bypasses g := ⟨.refl g, fun hr _ => ⟨_, hr, rfl, rfl, rfl⟩⟩

/-- Handles stay what they are if nothing is deleted in between. -/
lemma trans {g'' : Graph} (h : g.Bypasses g') (h' : g'.Bypasses g'')
    (hl : ∀ {m}, g.isLive m = true → g'.isLive m = true) : g.Bypasses g'' := by
  refine ⟨h.toReleases.trans h'.toReleases, fun {m r''} hr'' hm => ?_⟩
  obtain ⟨r', hr', hk', hc', hs'⟩ := h'.edge hr'' (hl hm)
  obtain ⟨r, hr, hk, hc, hs⟩ := h.edge hr' hm
  exact ⟨r, hr, hk'.trans hk, hc'.trans hc, hs'.trans hs⟩

lemma vacant (h : g.Bypasses g') (hn : g.isLive n = true) (hv : g.Vacant n) : g'.Vacant n := by
  intro r' hr' hk c hc p hp
  obtain ⟨r, hr, hkind, hcl, hsu⟩ := h.edge hr' hn
  rw [hkind] at hk ⊢
  exact h.free (hv r hr hk c (hcl ▸ hc) p (hsu ▸ hp))

end Bypasses

lemma vacant_of_kind (hk : ∀ {k}, g.kind? n = some k → k.isDependency = false) : g.Vacant n := by
  intro r hr hd
  rw [hk (kind?_eq hr)] at hd
  exact Bool.noConfusion hd

lemma Built.bypasses (hg : g.Sound) (ha : g.Addable r) (hj : r.kind.isJoint = false)
    (hb : g.Built r g') (hf : ∀ key, ¬g.Fits r key) : g.Bypasses g' := by
  refine ⟨hb.releases hg ha hj hf, fun {m r'} hr' hm => ?_⟩
  rcases hb.cases_bare hr' with ⟨rfl, -⟩ | ⟨x, hx, hbare, -⟩
  · exact absurd rfl (ne_next hm)
  · obtain ⟨hk, -, -, -, -, hc, hs, -⟩ := Node.bare_congr hbare
    exact ⟨x, hx, hk, hc, hs⟩

end Graph

end DeclGraph
