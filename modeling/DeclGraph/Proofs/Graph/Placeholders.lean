import DeclGraph.Proofs.Graph.Membership
import DeclGraph.Proofs.Graph.Uniqueness

/-! Placeholders: the classifiers that are marked as such. They are made where there is nothing of
their kind, so that no namespace gets two of them of one kind and name. -/

namespace DeclGraph

open DeclGraph.Graph

/-- A change that marks nothing as a placeholder, unless it makes one. -/
def Change.MarksNoOther : Change → Prop
  | .build r => r.kind = .taggedValue → r.name ≠ some generatedTag
  | _ => True

namespace Graph

variable {P : Graph → Change → Prop} {g g' : Graph} {m n : NodeId} {r x y : Node} {c : Change}
  {k : NodeKind} {tag : String}

/-- Placeholders are classifiers, and no two of them have their owner, name and kind in common. What
lies in the profile package is left out. -/
structure Singled (g : Graph) : Prop where
  classifier : ∀ {n r}, g.node? n = some r → g.Tagged n generatedTag → r.kind.isClassifier = true
  unique : ∀ {m n x y}, g.node? m = some x → g.node? n = some y → g.Tagged m generatedTag →
    g.Tagged n generatedTag → x.owner ≠ some profilePackage → x.owner = y.owner →
    x.name = y.name → x.kind = y.kind → m = n
  profile : g.kind? profilePackage = some .package

lemma Sound.isLive_of_tagged (h : g.Sound) (ht : g.Tagged n tag) : g.isLive n = true := by
  obtain ⟨t, x, hx, -, ho, -⟩ := ht
  exact h.owner_live hx ho

/-- Only what is made as a placeholder becomes one. -/
lemma Step.tagged (hg : g.Sound) (hs : g.Step c g') (hc : c.MarksNoOther)
    (ht : g'.Tagged n generatedTag) :
    g.Tagged n generatedTag ∨ n = g.next ∧ ∃ r, c = .force r := by
  cases hs with
  | build _ _ hb _ =>
    refine Or.inl ((hb.tagged ht).resolve_left ?_)
    rintro ⟨hk, hname, -⟩
    exact hc hk hname
  | move hr hmov hm _ => exact Or.inl (hm.tagged hr hmov.notTag ht)
  | edit hr he _ hed _ =>
    obtain ⟨t, y, hy, hk, ho, hname⟩ := ht
    rw [hed.node] at hy
    split_ifs at hy with htn
    · obtain rfl := Option.some.inj hy
      exact Or.inl ⟨t, _, htn ▸ hr, he.place.kind ▸ hk, he.place.owner ▸ ho, he.name ▸ hname⟩
    · exact Or.inl ⟨t, y, hy, hk, ho, hname⟩
  | delete _ _ => exact Or.inl ht.of_remove
  | force _ hcls _ hb hm _ =>
    rcases hm.tagged ht with ⟨-, -, ho⟩ | ht
    · exact Or.inr ⟨(Option.some.inj ho).symm, _, rfl⟩
    · refine Or.inl ((hb.tagged ht).resolve_left ?_)
      rintro ⟨hk, -⟩
      rw [hk] at hcls
      cases hcls
  | supersede hold _ hk _ _ _ hs => exact Or.inl (hs.tagged hg hold hk ht).2
  | associate ha _ =>
    obtain ⟨_, _, _, _, hb₁, hb₂, hb₃⟩ := ha.built
    refine Or.inl ((hb₁.tagged ((hb₂.tagged ((hb₃.tagged ht).resolve_left ?_)).resolve_left
      ?_)).resolve_left ?_)
    · exact fun h => absurd (hb₃.kind.symm.trans h.1) (by decide)
    · exact fun h => absurd (hb₂.kind.symm.trans h.1) (by decide)
    · exact fun h => absurd (ha.kind.symm.trans h.1) (by decide)

namespace Singled

/-- Two placeholders of one owner and name that had these in common before are one. -/
lemma eq_of_bears (h : g.Singled) {key : Key} (hx : g.node? m = some x) (hy : g.node? n = some y)
    (htm : g.Tagged m generatedTag) (htn : g.Tagged n generatedTag) (hk : x.kind = y.kind)
    (hm : g.Bears m key) (hn : g.Bears n key) : m = n := by
  have place : ∀ {m x}, g.node? m = some x → g.Tagged m generatedTag → g.Bears m key →
      key = .place .classType x.owner x.name ∧ x.owner ≠ some profilePackage := by
    intro m x hx ht hm
    have hc := h.classifier hx ht
    cases hm with
    | record hr hf =>
      obtain rfl := Option.some.inj (hx.symm.trans hr)
      exact (fits_of_isClassifier hc).mp hf
    | association hs =>
      have hka := hs.kind?
      rw [kind?_eq hx] at hka
      rw [Option.some.inj hka] at hc
      cases hc
  obtain ⟨hkey, hout⟩ := place hx htm hm
  obtain ⟨hkey', -⟩ := place hy htn hn
  obtain ⟨-, ho, hname⟩ := Key.place.inj (hkey.symm.trans hkey')
  exact h.unique hx hy htm htn hout ho hname hk

/-- Two elements of one place were in one place before, or are one. -/
lemma along (h : g.Singled) (hs : g.Step c g') (hp : g'.kind? profilePackage = some .package)
    (hg : g.Sound) (back : ∀ {n}, g'.Tagged n generatedTag → g.Tagged n generatedTag)
    (places : ∀ {m n key}, g'.Bears m key → g'.Bears n key → g.Tagged m generatedTag →
      g.Tagged n generatedTag → m = n ∨ ∃ key, g.Bears m key ∧ g.Bears n key) : g'.Singled := by
  have old : ∀ {n y}, g'.node? n = some y → g'.Tagged n generatedTag →
      ∃ x, g.node? n = some x ∧ y.kind = x.kind := by
    intro n y hy ht
    obtain ⟨x, hx⟩ := isLive_iff.mp (hg.isLive_of_tagged (back ht))
    exact ⟨x, hx, hs.kind? (kind?_eq hx) (kind?_eq hy)⟩
  have classifier : ∀ {n y}, g'.node? n = some y → g'.Tagged n generatedTag →
      y.kind.isClassifier = true := by
    intro n y hy ht
    obtain ⟨x, hx, hk⟩ := old hy ht
    exact hk ▸ h.classifier hx (back ht)
  refine ⟨classifier, ?_, hp⟩
  intro m n y y' hy hy' htm htn hout ho hname hk
  have hbears : g'.Bears m (.place .classType y.owner y.name) :=
    .record hy ((fits_of_isClassifier (classifier hy htm)).mpr ⟨rfl, hout⟩)
  have hbears' : g'.Bears n (.place .classType y.owner y.name) := by
    apply Bears.record hy' ((fits_of_isClassifier (classifier hy' htn)).mpr ⟨?_, ho ▸ hout⟩)
    rw [ho, hname]
  rcases places hbears hbears' (back htm) (back htn) with rfl | ⟨key, hm, hn⟩
  · rfl
  · obtain ⟨x, hx, hkx⟩ := old hy htm
    obtain ⟨x', hx', hkx'⟩ := old hy' htn
    exact h.eq_of_bears hx hx' (back htm) (back htn) (hkx.symm.trans (hk.trans hkx')) hm hn

/-- A placeholder is made where there is nothing of its name and kind. -/
lemma forced {g₁ : Graph} (h : g.Singled) (hp : g'.kind? profilePackage = some .package)
    (hg : g.Sound) (hc : r.kind.isClassifier = true) (hb : g.Built r g₁)
    (hm : g₁.Built (.mark g.next) g') (hr : g.Unmet r)
    (back : ∀ {n}, g'.Tagged n generatedTag → g.Tagged n generatedTag ∨ n = g.next) :
    g'.Singled := by
  have old : ∀ {n y}, g'.node? n = some y → g.isLive n = true → ∃ x, g.node? n = some x ∧
      y.kind = x.kind ∧ y.name = x.name ∧ y.owner = x.owner := by
    intro n y hy hn
    obtain ⟨x, hx⟩ := isLive_iff.mp hn
    obtain ⟨x₁, hx₁, hb₁, ho₁⟩ := hb.old_bare hx
    obtain ⟨x₂, hx₂, hb₂, ho₂⟩ := hm.old_bare hx₁
    obtain rfl := Option.some.inj (hy.symm.trans hx₂)
    have hbare := Node.bare_congr (hb₂.trans hb₁)
    exact ⟨x, hx, hbare.1, hbare.2.1, ho₂.trans ho₁⟩
  have new : ∀ {y}, g'.node? g.next = some y →
      y.kind = r.kind ∧ y.name = r.name ∧ y.owner = r.owner := by
    intro y hy
    obtain ⟨x, hx, hb₂, ho⟩ := hm.old_bare hb.new_node
    obtain rfl := Option.some.inj (hy.symm.trans hx)
    exact ⟨(Node.bare_congr hb₂).1, (Node.bare_congr hb₂).2.1, ho⟩
  refine ⟨?_, ?_, hp⟩
  · intro n y hy ht
    rcases back ht with ht | rfl
    · obtain ⟨x, hx, hk, -⟩ := old hy (hg.isLive_of_tagged ht)
      exact hk ▸ h.classifier hx ht
    · exact (new hy).1 ▸ hc
  · intro m n y y' hy hy' htm htn hout ho hname hk
    rcases back htm with htm | rfl <;> rcases back htn with htn | rfl
    · obtain ⟨x, hx, hkx, hnx, hox⟩ := old hy (hg.isLive_of_tagged htm)
      obtain ⟨x', hx', hkx', hnx', hox'⟩ := old hy' (hg.isLive_of_tagged htn)
      rw [hox] at hout
      exact h.unique hx hx' htm htn hout (by rw [← hox, ← hox', ho]) (by rw [← hnx, ← hnx', hname])
        (by rw [← hkx, ← hkx', hk])
    · obtain ⟨x, hx, hkx, hnx, hox⟩ := old hy (hg.isLive_of_tagged htm)
      obtain ⟨hkr, hnr, hor⟩ := new hy'
      exact absurd (by rw [← hkx, hk, hkr])
        (hr hx (by rw [← hox, ho, hor]) (by rw [← hnx, hname, hnr]))
    · obtain ⟨x, hx, hkx, hnx, hox⟩ := old hy' (hg.isLive_of_tagged htn)
      obtain ⟨hkr, hnr, hor⟩ := new hy
      exact absurd (by rw [← hkx, ← hk, hkr])
        (hr hx (by rw [← hox, ← ho, hor]) (by rw [← hnx, ← hname, hnr]))
    · rfl

lemma step (h : g.Singled) (hg : g.Sound) (hs : g.Step c g') (hc : c.MarksNoOther) :
    g'.Singled := by
  have hp := hg.package_step hs h.profile rfl
  have back := fun {n} => hs.tagged hg hc (n := n)
  have admitted : g.Admits g' → (∀ r, c ≠ .force r) → g'.Singled := by
    intro ha hf
    refine h.along hs hp hg (fun ht => (back ht).resolve_right ?_) fun hm hn _ _ =>
      (ha hm hn).imp_right fun hb => ⟨_, hb⟩
    rintro ⟨-, r, rfl⟩
    exact hf r rfl
  cases hs with
  | build _ _ _ ha => exact admitted ha fun _ => by simp
  | move _ _ _ ha => exact admitted ha fun _ => by simp
  | edit _ _ _ _ ha => exact admitted ha fun _ => by simp
  | delete hr =>
    exact admitted (hg.releases_remove
      (doomedWith_closed (isLive_of_node? hr) hg.toLinked)).admits fun _ => by simp
  | force _ hcls _ hb hm hunmet =>
    exact h.forced hp hg hcls hb hm hunmet fun ht => (back ht).imp_right And.left
  | @supersede old ro r _ hold hco hcls hn ho hends hsup =>
    -- only the new classifier gets its keys from another element, and it carries no tag
    have hold' : ∀ {n}, g'.Tagged n generatedTag → g.Tagged n generatedTag := fun ht =>
      (hsup.tagged hg hold hcls ht).2
    refine h.along (.supersede hold hco hcls hn ho hends hsup) hp hg hold' ?_
    intro m n key hm hn' htm htn
    have stays : ∀ {n}, g.Tagged n generatedTag → reroute g.next old n = n := fun ht =>
      if_neg (ne_next (hg.isLive_of_tagged ht))
    have hm' := hsup.bears hg hold hco hcls hn ho h.profile hm
    have hn'' := hsup.bears hg hold hco hcls hn ho h.profile hn'
    rw [stays htm] at hm'
    rw [stays htn] at hn''
    exact Or.inr ⟨_, hm', hn''⟩
  | associate ha hfree => exact admitted (ha.admits hg hfree) fun _ => by simp

lemma steps (h : g.Singled) (hg : g.Sound) (hs : Steps P g g')
    (hP : ∀ g c, P g c → c.MarksNoOther) : g'.Singled := by
  induction hs with
  | refl => exact h
  | step hs hPc hc ih => exact ih.step (hg.steps hs) hc (hP _ _ hPc)

end Singled

end Graph

end DeclGraph
