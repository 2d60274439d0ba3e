import DeclGraph.Proofs.Graph.Association

/-! An element that takes the place of another: what creating it, turning the references to the
other one and deleting that one come to. -/

namespace DeclGraph

open DeclGraph.Graph

namespace Ends

variable {ε σ α : Type} {E : σ → Prop}

/-- A loop that keeps track of how far it is. -/
lemma loop_along {P : List α → σ → Prop} {f : α → PUnit → EStateM ε σ (ForInStep PUnit)}
    (xs : List α) (hf : ∀ done a s, a ∈ xs → P done s →
      Ends (f a ⟨⟩ s) (fun step t => step = .yield ⟨⟩ ∧ P (done ++ [a]) t) E)
    (start : List α) {s : σ} (hs : P start s) :
    Ends ((forIn xs PUnit.unit f : EStateM ε σ PUnit) s) (fun _ => P (start ++ xs)) E := by
  induction xs generalizing start s with
  | nil => simpa using (answer hs : Ends ((pure ⟨⟩ : EStateM ε σ PUnit) s) (fun _ => P start) E)
  | cons a xs ih =>
    rw [List.forIn_cons]
    refine bind (hf start a s (by simp) hs) ?_
    rintro _ t ⟨rfl, ht⟩
    have := ih (fun done b s hb => hf done b s (by simp [hb])) (start ++ [a]) ht
    rwa [List.append_assoc] at this

lemma total {r : EStateM.Result ε σ α} {Q : α → σ → Prop} (h : Ends r Q fun _ => False) :
    ∃ a s, r = .ok a s ∧ Q a s := by
  cases r with
  | ok a s => exact ⟨a, s, rfl, h⟩
  | error e s => exact h.elim

end Ends

lemma Node.bare_forget {r : Node} {doomed : List NodeId}
    (h : ∀ y ∈ r.endpoints ++ r.stereotypes, y ∉ doomed) : (r.forget doomed).bare = r.bare := by
  simp only [endpoints, List.mem_append, Option.mem_toList, or_imp, forall_and] at h
  obtain ⟨⟨⟨⟨⟨⟨⟨ht, _⟩, _⟩, hc⟩, hs⟩, _⟩, _⟩, hst⟩ := h
  have filter : ∀ l : List NodeId, (∀ y ∈ l, y ∉ doomed) → l.filter (· ∉ doomed) = l :=
    fun l hl => List.filter_eq_self.mpr fun y hy => by simpa using hl y hy
  have htype : r.type.filter (· ∉ doomed) = r.type := by
    cases hr : r.type with
    | none => rfl
    | some t => simp [Option.filter, ht t hr]
  simp only [bare, forget, filter _ hc, filter _ hs, filter _ hst, htype]

lemma Node.bare_redirect {r r' : Node} (h : r.bare = r'.bare) (old new : NodeId) :
    (r.redirect old new).bare = (r'.redirect old new).bare :=
  congrArg (Node.redirect · old new) h

namespace Graph

/-- The parts `done` of `old` and the stereotypes `sts` have been handed over to `new`, since `g`. -/
structure Handed (g : Graph) (old new : NodeId) (done sts : List NodeId) (g' : Graph) : Prop where
  reworked : Reworked g g'
  node : ∀ {m x}, g.node? m = some x → ∃ x', g'.node? m = some x' ∧
    x'.owner = (if m ∈ done then some new else x.owner) ∧
    x'.bare = (x.stereotyped x'.stereotypes).bare ∧
    (m ≠ new → x'.stereotypes = x.stereotypes) ∧
    (m = new → ∀ st, st ∈ x'.stereotypes ↔ st ∈ sts) ∧
    (m ≠ old → m ≠ new → ∀ s, x'.children s = x.children s)

variable {g g₁ g' : Graph} {n m p c old new : NodeId} {r ro x y : Node} {done sts : List NodeId}

/-- Elements that keep their parts to themselves, have no ends among them and are referred to from
nowhere else can go alone. -/
lemma DragClosed.of_clear {X : NodeId → Prop}
    (hpart : ∀ p r c, X p → g.node? p = some r → c ∈ r.parts → X c)
    (hend : ∀ e r, X e → g.node? e = some r → r.kind ≠ .associationEnd)
    (hclear : ∀ e r, g.node? e = some r → r.kind.isClassifier = false → ∀ z ∈ r.endpoints, ¬X z) :
    g.DragClosed X where
  part := hpart
  whole e r a he hr hk := absurd hk (hend e r he hr)
  generalization e r c hr hk hc hX := by
    refine absurd hX (hclear e r hr (by rw [hk]; rfl) c ?_)
    simp only [Node.endpoints, List.mem_append, Option.mem_toList]
    tauto
  dependency e r hr hk hX := by
    have hk' : r.kind.isClassifier = false := by
      revert hk
      cases r.kind <;> decide
    rcases hX with ⟨hnil, hX⟩ | ⟨hnil, hX⟩
    · obtain ⟨c, hc⟩ := List.exists_mem_of_ne_nil _ hnil
      refine absurd (hX c hc) (hclear e r hr hk' c ?_)
      simp only [Node.endpoints, List.mem_append]
      tauto
    · obtain ⟨c, hc⟩ := List.exists_mem_of_ne_nil _ hnil
      refine absurd (hX c hc) (hclear e r hr hk' c ?_)
      simp only [Node.endpoints, List.mem_append]
      tauto
  residence e r c hr hk hc hX := by
    refine absurd hX (hclear e r hr (by rw [hk]; rfl) c ?_)
    simp only [Node.endpoints, List.mem_append, Option.mem_toList]
    tauto
  typed e r a c hr hk _ hc hX := by
    refine absurd hX (hclear e r hr (by rw [hk]; rfl) c ?_)
    simp [Node.endpoints, hc]

lemma children_relocated_bystander {home : Option NodeId} (ho : r.owner ≠ some m)
    (hh : home ≠ some m) (s : Slot) : (Node.relocated n r home m x).children s = x.children s := by
  unfold Node.relocated
  rw [if_neg ho, if_neg hh]
  split_ifs <;> simp

lemma Handed.move (h : g.Handed old new done sts g') (hc : g.node? c = some r)
    (ho : r.owner = some old) (hn : g.isLive new = true) :
    Ends (GraphM.setNamespace c (some new) g')
      (fun _ => g.Handed old new (done ++ [c]) sts) (fun _ => False) := by
  obtain ⟨r', hr', hro, _⟩ := h.node hc
  have hnew : ∀ p, some new = some p → g'.isLive p = true := fun p hp =>
    Option.some.inj hp ▸ (h.reworked.isLive new).trans hn
  obtain ⟨g'', hrun, hm⟩ := GraphM.setNamespace_ok hr' hnew
  rw [hrun]
  refine ⟨h.reworked.trans (h.reworked.linked.reworked_move hr' hnew hm), ?_⟩
  intro m x hx
  obtain ⟨x', hx', hxo, hb, hs, hsn, hf⟩ := h.node hx
  obtain ⟨y, hy, hyb, hyo⟩ := hm.old_bare hx'
  have hh := Node.bare_congr hyb
  have hst : y.stereotypes = x'.stereotypes := hh.2.2.2.2.2.2.2.2.2.2
  refine ⟨y, hy, ?_, by rw [hyb, hst]; exact hb, fun hmn => hst.trans (hs hmn),
    fun hmn st => by rw [hst]; exact hsn hmn st, ?_⟩
  · rw [hyo, hxo]
    by_cases hmc : m = c <;> by_cases hmd : m ∈ done <;> simp [hmc, hmd]
  · intro hmo hmn s
    rw [← hf hmo hmn s]
    rw [hm.node, hx', Option.map_some] at hy
    obtain rfl := Option.some.inj hy
    refine children_relocated_bystander ?_ (fun hc => hmn (Option.some.inj hc).symm) s
    rw [hro, ho]
    split_ifs
    exacts [fun hc => hmn (Option.some.inj hc).symm, fun hc => hmo (Option.some.inj hc).symm]

lemma Handed.adorn (h : g.Handed old new done sts g') {st : NodeId}
    (hst : g.kind? st = some .stereotype) (hn : g.isLive new = true) :
    Ends (GraphM.addStereotype new st g') (fun _ => g.Handed old new done (sts ++ [st]))
      (fun _ => False) := by
  obtain ⟨rs, hrs, hks⟩ := kind?_eq_some.mp hst
  obtain ⟨rs', hrs', _, hbs, _⟩ := h.node hrs
  have hks' : rs'.kind = .stereotype := (Node.bare_congr hbs).1.trans hks
  have hnl : g'.isLive new = true := (h.reworked.isLive new).trans hn
  have hadd := h.reworked.linked.addStereotype hnl (isLive_of_node? hrs')
  rw [GraphM.addStereotype_run, hrs'] at hadd ⊢
  simp only [hks', if_true, GraphM.update_ok _ hnl] at hadd ⊢
  refine ⟨h.reworked.trans hadd, ?_⟩
  intro m x hx
  obtain ⟨x', hx', hxo, hb, hs, hsn, hf⟩ := h.node hx
  rw [node?_modify, hx']
  by_cases hmn : m = new
  · subst hmn
    rw [if_pos rfl, Option.map_some]
    by_cases hin : st ∈ x'.stereotypes
    · rw [if_pos hin]
      refine ⟨x', rfl, hxo, hb, hs, fun _ z => ?_, hf⟩
      rw [List.mem_append, ← hsn rfl z, List.mem_singleton, iff_self_or]
      exact fun hz => hz ▸ hin
    · rw [if_neg hin]
      refine ⟨_, rfl, hxo, ?_, fun hne => absurd rfl hne, fun _ z => ?_,
        fun _ hne => absurd rfl hne⟩
      · exact congrArg (Node.stereotyped · (x'.stereotypes ++ [st])) hb
      · rw [List.mem_append, List.mem_append, ← hsn rfl z]
  · rw [if_neg hmn]
    exact ⟨x', rfl, hxo, hb, hs, fun h => absurd h hmn, hf⟩

/-- The graph with the references to `old` turned to `new`. -/
def turned (g : Graph) (old new : NodeId) : Graph :=
  g.mapNodes fun n r => if n = old then r else r.redirect old new

lemma node?_turned (hx : g.node? m = some x) :
    (g.turned old new).node? m = some (if m = old then x else x.redirect old new) := by
  rw [turned, node?_mapNodes, hx]
  rfl

lemma kind?_turned (m : NodeId) : (g.turned old new).kind? m = g.kind? m := by
  rw [kind?, kind?, turned, node?_mapNodes, Option.map_map]
  congr 1
  funext x
  simp only [Function.comp_apply]
  split_ifs <;> rfl

/-- The parts that move along. -/
def movedParts (r : Node) : List NodeId := GraphM.movedSlots.flatMap r.children

lemma mem_movedParts : c ∈ movedParts r ↔ ∃ s, s ≠ .taggedValues ∧ c ∈ r.children s := by
  rw [movedParts, List.mem_flatMap]
  constructor
  · rintro ⟨s, hs, hc⟩
    refine ⟨s, ?_, hc⟩
    rintro rfl
    exact absurd hs (by decide)
  · rintro ⟨s, hs, hc⟩
    exact ⟨s, by revert hs; cases s <;> decide, hc⟩

section parts

variable (hparts : ∀ s c, c ∈ ro.children s ↔
  ∃ rc, g.node? c = some rc ∧ rc.owner = some old ∧ rc.kind.slot = s)
include hparts

lemma mem_movedParts_iff (hx : g.node? m = some x) :
    m ∈ movedParts ro ↔ x.owner = some old ∧ x.kind.slot ≠ .taggedValues := by
  rw [mem_movedParts]
  constructor
  · rintro ⟨s, hs, hc⟩
    obtain ⟨x', hx', ho, rfl⟩ := (hparts s m).mp hc
    obtain rfl := Option.some.inj (hx.symm.trans hx')
    exact ⟨ho, hs⟩
  · rintro ⟨ho, hs⟩
    exact ⟨_, hs, (hparts _ m).mpr ⟨x, hx, ho, rfl⟩⟩

lemma mem_tags_iff (hx : g.node? m = some x) :
    m ∈ ro.taggedValues ↔ x.owner = some old ∧ x.kind.slot = .taggedValues := by
  rw [show ro.taggedValues = ro.children .taggedValues from rfl, hparts, hx]
  simp

end parts

lemma handed_of_replaceReferences (h : g.Linked) (hold : g.node? old = some ro)
    (hnew : g.node? new = some r) (hr : r.stereotypes = []) (hne : new ≠ old)
    (hst : ∀ st ∈ ro.stereotypes, g.kind? st = some .stereotype) :
    Ends (GraphM.replaceReferences old new g)
      (fun _ => (g.turned old new).Handed old new (movedParts ro) ro.stereotypes)
      (fun _ => False) := by
  have hnl := isLive_of_node? hnew
  have hbase : g.Reworked (g.turned old new) := h.redirect hnl
  have hlive : (g.turned old new).isLive new = true := (hbase.isLive new).trans hnl
  have hstart : (g.turned old new).Handed old new [] [] (g.turned old new) := by
    refine ⟨Reworked.refl hbase.linked, ?_⟩
    intro m x hx
    refine ⟨x, hx, by simp, rfl, fun _ => rfl, ?_, fun _ _ _ => rfl⟩
    rintro rfl st
    rw [node?_turned hnew, if_neg hne] at hx
    obtain rfl := Option.some.inj hx
    simp [Node.redirect, hr]
  have hpart : ∀ {s c}, c ∈ ro.children s →
      ∃ rc, (g.turned old new).node? c = some rc ∧ rc.owner = some old := by
    intro s c hc
    obtain ⟨rc, hrc, ho, _⟩ := (h.mem_children hold s c).mp hc
    refine ⟨_, node?_turned hrc, ?_⟩
    split_ifs <;> exact ho
  unfold GraphM.replaceReferences
  refine Ends.bind_ok (GraphM.get_ok hold) (Ends.bind_ok (GraphM.get_ok hnew) ?_)
  refine Ends.bind_ok (GraphM.modify_run _ _) (Ends.bind (Q := fun _ =>
    (g.turned old new).Handed old new (movedParts ro) []) ?_ fun _ g₂ h₂ => ?_)
  · refine Ends.loop_along (P := fun slots => (g.turned old new).Handed old new
      (slots.flatMap ro.children) []) GraphM.movedSlots ?_ [] hstart
    intro slots slot g₁ _ h₁
    refine Ends.bind (Q := fun _ => (g.turned old new).Handed old new
      (slots.flatMap ro.children ++ ro.children slot) []) ?_ fun _ g₂ h₂ => ?_
    · refine Ends.loop_along (P := fun parts => (g.turned old new).Handed old new
        (slots.flatMap ro.children ++ parts) []) (ro.children slot) ?_ []
        (by simpa using h₁)
      intro parts c g₁ hc h₁
      obtain ⟨rc, hrc, ho⟩ := hpart hc
      refine Ends.bind (h₁.move hrc ho hlive) fun _ g₂ h₂ => Ends.answer ⟨rfl, ?_⟩
      rwa [List.append_assoc] at h₂
    · refine Ends.answer ⟨rfl, ?_⟩
      simpa only [List.flatMap_append, List.flatMap_cons, List.flatMap_nil, List.append_nil] using h₂
  · refine Ends.bind (Q := fun _ => (g.turned old new).Handed old new (movedParts ro)
      ro.stereotypes) ?_ fun _ _ h₃ => Ends.answer h₃
    refine Ends.loop_along (P := fun sts => (g.turned old new).Handed old new (movedParts ro) sts)
      ro.stereotypes ?_ [] h₂
    intro sts st g₁ hmem h₁
    have hks : (g.turned old new).kind? st = some .stereotype := by
      rw [kind?_turned, hst st hmem]
    exact Ends.bind (h₁.adorn hks hlive) fun _ g₂ h₂ => Ends.answer ⟨rfl, h₂⟩

section

variable {g₂ : Graph} {home : NodeId} {kind : NodeKind} {name : Option String} (h : g.Sound)
  (hold : g.node? old = some ro) (hco : ro.kind.isClassifier = true)
  (hhome : ro.owner = some home) (hne : home ≠ old)
  (hb : g.Built { kind, name, owner := some home } g₁)
  (hd : (g₁.turned old g.next).Handed old g.next (movedParts ro) ro.stereotypes g₂)

include h hold in
lemma next_not_mem_movedParts : g.next ∉ movedParts ro := by
  intro hm
  obtain ⟨s, _, hs⟩ := mem_movedParts.mp hm
  exact h.next_not_mem hold s hs

include hb hd

/-- What was there before, when everything has been handed over. -/
lemma handed_old (hc : kind.isClassifier = true) (hx : g.node? m = some x) (hm : m ≠ old) :
    ∃ y, g₂.node? m = some y ∧ y.bare = (x.redirect old g.next).bare ∧
      y.owner = (if m ∈ movedParts ro then some g.next else x.owner) ∧
      ∀ s, s ≠ .owned → y.children s = x.children s := by
  have hmn := ne_next (isLive_of_node? hx)
  obtain ⟨x₁, hx₁, hb₁, ho₁, hf₁⟩ : ∃ x₁, g₁.node? m = some x₁ ∧ x₁.bare = x.bare ∧
      x₁.owner = x.owner ∧ ∀ s, s ≠ .owned → x₁.children s = x.children s := by
    have hslot : kind.slot = .owned := by
      revert hc
      cases kind <;> decide
    refine ⟨_, hb.old_node hx, ?_, ?_, ?_⟩
    · split_ifs <;> simp
    · split_ifs <;> simp
    · intro s hs
      split_ifs
      · simp [Node.children_attach, hslot, hs]
      · rfl
  have hturned : (g₁.turned old g.next).node? m = _ := node?_turned hx₁
  obtain ⟨y, hy, ho, hbare, hst, _, hf⟩ := hd.node hturned
  rw [if_neg hm] at ho hbare hst hf
  rw [hst hmn] at hbare
  have hchildren : ∀ s, (x₁.redirect old g.next).children s = x₁.children s := fun s => by
    cases s <;> rfl
  exact ⟨y, hy, hbare.trans (Node.bare_redirect hb₁ old g.next),
    by rw [ho]; exact congrArg (fun o => if m ∈ movedParts ro then some g.next else o) ho₁,
    fun s hs => ((hf hm hmn s).trans (hchildren s)).trans (hf₁ s hs)⟩

lemma handed_new (hne : g.next ≠ old) (hnp : g.next ∉ movedParts ro) :
    ∃ rn, g₂.node? g.next = some rn ∧ rn.owner = some home ∧
      rn.bare = (({ kind, name, owner := some home } : Node).stereotyped rn.stereotypes).bare ∧
      ∀ st, st ∈ rn.stereotypes ↔ st ∈ ro.stereotypes := by
  have hturned : (g₁.turned old g.next).node? g.next = _ := node?_turned hb.new_node
  obtain ⟨y, hy, ho, hbare, _, hst, _⟩ := hd.node hturned
  rw [if_neg hne] at ho hbare
  rw [if_neg hnp] at ho
  exact ⟨y, hy, ho, hbare, hst rfl⟩

lemma isLive_handed : g₂.isLive m = true ↔ m = g.next ∨ g.isLive m = true := by
  have hbase : (g₁.turned old g.next).isLive m = g₁.isLive m := isLive_congr (node?_mapNodes _) m
  rw [hd.reworked.isLive, hbase, hb.isLive]

/-- Kinds and associations stay, also those of `old`. -/
lemma handed_kind (hm : m ≠ g.next) (hy : g₂.node? m = some y) :
    ∃ x, g.node? m = some x ∧ y.kind = x.kind ∧ y.association = x.association ∧
      y.owner = if m ∈ movedParts ro then some g.next else x.owner := by
  obtain ⟨x, hx⟩ := isLive_iff.mp (((isLive_handed hb hd).mp (isLive_of_node? hy)).resolve_left hm)
  obtain ⟨x₁, hx₁, hb₁, ho₁⟩ := hb.old_bare hx
  have hturned : (g₁.turned old g.next).node? m = _ := node?_turned hx₁
  obtain ⟨y', hy', ho, hbare, _⟩ := hd.node hturned
  obtain rfl := Option.some.inj (hy.symm.trans hy')
  have hh := Node.bare_congr hb₁
  have hh' := Node.bare_congr hbare
  refine ⟨x, hx, ?_, ?_, ?_⟩
  · rw [← hh.1, hh'.1]
    split_ifs <;> rfl
  · rw [← hh.2.2.2.2.2.2.2.2.2.1, hh'.2.2.2.2.2.2.2.2.2.1]
    split_ifs <;> rfl
  · rw [ho, ← ho₁]
    split_ifs <;> rfl

include h hold hco

lemma coherent_handed : g₂.Coherent := by
  have hne : g.next ≠ old := (ne_next (isLive_of_node? hold)).symm
  refine ⟨hd.reworked.linked, ?_⟩
  intro e y a hy ha
  by_cases he : e = g.next
  · subst he
    obtain ⟨rn, hn, _, hbare, _⟩ := handed_new hb hd hne (next_not_mem_movedParts h hold)
    obtain rfl := Option.some.inj (hn.symm.trans hy)
    have hassoc : rn.association = none := (Node.bare_congr hbare).2.2.2.2.2.2.2.2.2.1
    exact absurd (hassoc.symm.trans ha) (by simp)
  · obtain ⟨x, hx, hk, hassoc, ho⟩ := handed_kind hb hd he hy
    rw [hassoc] at ha
    rw [ho, if_neg, h.endsAtHome hx ha]
    intro hmem
    obtain ⟨hxo, _⟩ := (mem_movedParts_iff (h.mem_children hold) hx).mp hmem
    have hend : x.kind = .associationEnd := by
      by_contra hk
      rw [(h.fit hx).associationEnd hk] at ha
      exact absurd ha (by simp)
    have hmay := (h.proper hx).owner hxo (kind?_eq hold)
    rw [hend] at hmay
    revert hmay hco
    cases ro.kind <;> decide

/-- Apart from `old`, nothing refers to what is to go. -/
lemma clear_handed (hc : kind.isClassifier = true) (hm : m ≠ old) (hy : g₂.node? m = some y)
    {z : NodeId} (hz : z ∈ y.endpoints ++ y.stereotypes) : z ≠ old ∧ z ∉ ro.taggedValues := by
  have hne : g.next ≠ old := (ne_next (isLive_of_node? hold)).symm
  have hst : ∀ {n x}, g.node? n = some x → ∀ st ∈ x.stereotypes,
      st ≠ old ∧ st ∉ ro.taggedValues := by
    intro n x hx st hst
    obtain ⟨xs, hxs⟩ := isLive_iff.mp (h.live hx st (x.stereotypes_subset_links hst))
    have hks := (h.proper hx).stereotype st hst (kind?_eq hxs)
    constructor
    · rintro rfl
      obtain rfl := Option.some.inj (hxs.symm.trans hold)
      rw [hks] at hco
      exact Bool.noConfusion hco
    · intro ht
      have := h.kind?_taggedValue hold ht
      rw [kind?_eq hxs, hks] at this
      exact absurd this (by decide)
  by_cases hmn : m = g.next
  · subst hmn
    obtain ⟨rn, hn, _, hbare, hsts⟩ := handed_new hb hd hne (next_not_mem_movedParts h hold)
    obtain rfl := Option.some.inj (hn.symm.trans hy)
    have hend : rn.endpoints = [] := Node.endpoints_congr hbare
    rw [hend, List.nil_append] at hz
    exact hst hold z ((hsts z).mp hz)
  · obtain ⟨x, hx⟩ := isLive_iff.mp
      (((isLive_handed hb hd).mp (isLive_of_node? hy)).resolve_left hmn)
    obtain ⟨y', hy', hbare, _⟩ := handed_old hb hd hc hx hm
    obtain rfl := Option.some.inj (hy.symm.trans hy')
    have hyst : y.stereotypes = x.stereotypes := (Node.bare_congr hbare).2.2.2.2.2.2.2.2.2.2
    rw [Node.endpoints_congr hbare, hyst, List.mem_append] at hz
    rcases hz with hz | hz
    · rcases endpoints_redirect hz with ⟨hzx, hzo⟩ | rfl
      · refine ⟨hzo, fun ht => ?_⟩
        have := (h.proper hx).endpoint z hzx (h.kind?_taggedValue hold ht)
        exact absurd this (by decide)
      · exact ⟨hne, h.next_not_mem hold .taggedValues⟩
    · exact hst hx z hz

include hhome hne

/-- What goes with `old` is `old` itself and its tagged values. -/
lemma mem_doomedWith_handed (hc : kind.isClassifier = true) :
    m ∈ g₂.doomedWith old ↔ m = old ∨ m ∈ ro.taggedValues := by
  have hno : g.next ≠ old := (ne_next (isLive_of_node? hold)).symm
  have hold₂ : g₂.isLive old = true := (isLive_handed hb hd).mpr (Or.inr (isLive_of_node? hold))
  have tags_kind := fun m => h.kind?_taggedValue hold (m := m)
  have hcoh := coherent_handed h hold hco hb hd
  obtain ⟨y₀, hy₀⟩ := isLive_iff.mp hold₂
  obtain ⟨x₀, hx₀, hk₀, _⟩ := handed_kind hb hd hno.symm hy₀
  obtain rfl := Option.some.inj (hold.symm.trans hx₀)
  constructor
  · refine doomedWith_subset (X := fun m => m = old ∨ m ∈ ro.taggedValues) ?_ (Or.inl rfl)
    have clear : ∀ {e y z}, g₂.node? e = some y → y.kind.isClassifier = false →
        z ∈ y.endpoints → ¬(z = old ∨ z ∈ ro.taggedValues) := by
      intro e y z hy hk hz
      have he : e ≠ old := by
        rintro rfl
        obtain rfl := Option.some.inj (hy₀.symm.trans hy)
        rw [hk₀, hco] at hk
        exact Bool.noConfusion hk
      rw [not_or]
      exact clear_handed h hold hco hb hd hc he hy (List.mem_append_left _ hz)
    refine .of_clear ?_ ?_ fun e y hy hk z hz => clear hy hk hz
    · intro p y c hp hy hcp
      obtain ⟨s, hs⟩ := Node.mem_parts.mp hcp
      obtain ⟨yc, hyc, hyo, hys⟩ := (hcoh.mem_children hy s c).mp hs
      by_cases hcn : c = g.next
      · subst hcn
        obtain ⟨rn, hn, hno', _⟩ := handed_new hb hd hno (next_not_mem_movedParts h hold)
        obtain rfl := Option.some.inj (hn.symm.trans hyc)
        obtain rfl := Option.some.inj (hno'.symm.trans hyo)
        refine absurd hp (not_or.mpr ⟨hne, fun ht => ?_⟩)
        have hmay := (h.proper hold).owner hhome (tags_kind _ ht)
        revert hmay hco
        cases ro.kind <;> decide
      · obtain ⟨x, hx, hk, _, hxo⟩ := handed_kind hb hd hcn hyc
        rw [hxo] at hyo
        split_ifs at hyo with hmoved
        · obtain rfl := Option.some.inj hyo
          exact absurd hp (not_or.mpr ⟨hno, h.next_not_mem hold .taggedValues⟩)
        · rcases hp with rfl | ht
          · refine Or.inr ((mem_tags_iff (h.mem_children hold) hx).mpr ⟨hyo, ?_⟩)
            by_contra hslot
            exact hmoved ((mem_movedParts_iff (h.mem_children hold) hx).mpr ⟨hyo, hslot⟩)
          · have hmay := (h.proper hx).owner hyo (tags_kind _ ht)
            rw [NodeKind.mayOwn_taggedValue] at hmay
            exact Bool.noConfusion hmay
    · intro e y he hy hk
      rcases he with rfl | ht
      · obtain rfl := Option.some.inj (hy₀.symm.trans hy)
        rw [← hk₀, hk] at hco
        exact Bool.noConfusion hco
      · have hen : e ≠ g.next := fun hen => h.next_not_mem hold .taggedValues (hen ▸ ht)
        obtain ⟨x, hx, hkx, _⟩ := handed_kind hb hd hen hy
        have := tags_kind _ ht
        rw [kind?_eq hx, ← hkx, hk] at this
        exact absurd this (by decide)
  · rintro (rfl | ht)
    · exact self_mem_doomedWith hold₂
    · obtain ⟨x, hx, hxk⟩ := kind?_eq_some.mp (tags_kind m ht)
      obtain ⟨hxo, hslot⟩ := (mem_tags_iff (h.mem_children hold) hx).mp ht
      have hmo : m ≠ old := by
        rintro rfl
        obtain rfl := Option.some.inj (hx.symm.trans hold)
        rw [hxk] at hco
        exact Bool.noConfusion hco
      obtain ⟨y, hy, hbare, ho, _⟩ := handed_old hb hd hc hx hmo
      rw [if_neg (fun hm => ((mem_movedParts_iff (h.mem_children hold) hx).mp hm).2 hslot)] at ho
      have hky : y.kind = x.kind := (Node.bare_congr hbare).1
      refine (doomedWith_closed hold₂ hcoh.toLinked).part old y₀ m (self_mem_doomedWith hold₂) hy₀
        (Node.mem_parts.mpr ⟨.taggedValues, ?_⟩)
      exact (hcoh.mem_children hy₀ _ m).mpr ⟨y, hy, ho.trans hxo, by rw [hky, hslot]⟩

lemma superseded_of_handed (hc : kind.isClassifier = true) :
    g.Superseded old ro { kind, name, owner := some home } (g₂.remove (g₂.doomedWith old)) := by
  have hno : g.next ≠ old := (ne_next (isLive_of_node? hold)).symm
  have hold₂ : g₂.isLive old = true := (isLive_handed hb hd).mpr (Or.inr (isLive_of_node? hold))
  have hcoh := coherent_handed h hold hco hb hd
  have doomed := fun m => mem_doomedWith_handed h hold hco hhome hne hb hd hc (m := m)
  have kept : ∀ {m y}, g₂.node? m = some y → m ≠ old →
      (y.forget (g₂.doomedWith old)).bare = y.bare := by
    intro m y hy hm
    refine Node.bare_forget fun z hz hzd => ?_
    obtain ⟨hzo, hzt⟩ := clear_handed h hold hco hb hd hc hm hy hz
    exact ((doomed z).mp hzd).elim hzo hzt
  refine ⟨?_, hcoh.remove (doomedWith_closed hold₂ hcoh.toLinked), ?_, ?_, ?_, ?_⟩
  · rw [next_remove, hd.reworked.next, turned, next_mapNodes, hb.next]
  · obtain ⟨rn, hn, ho, hbare, hst⟩ := handed_new hb hd hno (next_not_mem_movedParts h hold)
    have hk := kept hn hno
    have hks : (rn.forget (g₂.doomedWith old)).stereotypes = rn.stereotypes :=
      (Node.bare_congr hk).2.2.2.2.2.2.2.2.2.2
    refine ⟨_, node?_remove_eq_some.mpr ⟨?_, rn, hn, rfl⟩, ho, ?_, fun st => by rw [hks, hst]⟩
    · rw [doomed, not_or]
      exact ⟨hno, h.next_not_mem hold .taggedValues⟩
    · rw [hk, hks]
      exact hbare
  · intro m hm
    rw [node?_remove, if_pos ((doomed m).mpr hm)]
  · intro m x hx hmo hmt
    obtain ⟨y, hy, hbare, ho, hf⟩ := handed_old hb hd hc hx hmo
    have hmoved : m ∈ movedParts ro ↔ x.owner = some old := by
      rw [mem_movedParts_iff (h.mem_children hold) hx, and_iff_left_iff_imp]
      exact fun hxo hslot => hmt ((mem_tags_iff (h.mem_children hold) hx).mpr ⟨hxo, hslot⟩)
    refine ⟨_, node?_remove_eq_some.mpr ⟨?_, y, hy, rfl⟩, (kept hy hmo).trans hbare, ?_, ?_⟩
    · rw [doomed, not_or]
      exact ⟨hmo, hmt⟩
    · simp only [hmoved] at ho
      exact ho
    · intro s hs
      rw [← hf s hs]
      refine (Node.children_forget y _ s).trans (List.filter_eq_self.mpr fun c hcs => ?_)
      obtain ⟨yc, hyc, hco', hslot⟩ := (hcoh.mem_children hy s c).mp hcs
      rw [decide_eq_true_eq, doomed, not_or]
      constructor
      · rintro rfl
        obtain ⟨xc, hxc, hkc, _⟩ := handed_kind hb hd hno.symm hyc
        obtain rfl := Option.some.inj (hxc.symm.trans hold)
        rw [← hslot, hkc] at hs
        revert hs hco
        cases xc.kind <;> decide
      · intro ht
        have hcn : c ≠ g.next := fun hcn => h.next_not_mem hold .taggedValues (hcn ▸ ht)
        obtain ⟨xc, hxc, _, _, hxo⟩ := handed_kind hb hd hcn hyc
        obtain ⟨hold', hs'⟩ := (mem_tags_iff (h.mem_children hold) hxc).mp ht
        rw [if_neg fun hm => ((mem_movedParts_iff (h.mem_children hold) hxc).mp hm).2 hs', hold', hco'] at hxo
        exact hmo (Option.some.inj hxo)
  · intro m y hy
    obtain ⟨_, x, hx, _⟩ := node?_remove_eq_some.mp hy
    exact (isLive_handed hb hd).mp (isLive_of_node? hx)

end

end Graph

namespace GraphM

/-- Putting a new classifier in the place of an old one succeeds. -/
lemma supersede_ok {g : Graph} {old home : NodeId} {ro : Node} (h : g.Sound)
    (hold : g.node? old = some ro) (hco : ro.kind.isClassifier = true)
    (hhome : ro.owner = some home) (hne : home ≠ old) {kind : NodeKind}
    (hc : kind.isClassifier = true) (name : Option String) :
    ∃ g₁ g₂ g₃, create kind name (some home) g = .ok g.next g₁ ∧
      replaceReferences old g.next g₁ = .ok () g₂ ∧ delete old g₂ = .ok () g₃ ∧
      g.Superseded old ro { kind, name, owner := some home } g₃ := by
  have hlive := h.owner_live hold hhome
  obtain ⟨g₁, hrun₁, hb⟩ := create_under g kind name hlive
  have hl₁ : g₁.Linked := by
    refine h.toLinked.built hb (fun s => by cases s <;> rfl) ?_ (by simpa [Node.links] using hlive)
    refine ⟨fun _ => ⟨rfl, rfl⟩, fun _ => ⟨rfl, rfl⟩, fun _ => rfl⟩
  have hold₁ : g₁.node? old = some ro := by
    rw [hb.old_node hold, if_neg (fun hh => hne (Option.some.inj hh))]
  have hst : ∀ st ∈ ro.stereotypes, g₁.kind? st = some .stereotype := by
    intro st hst
    have hl := h.live hold st (ro.stereotypes_subset_links hst)
    obtain ⟨rs, hrs⟩ := isLive_iff.mp hl
    rw [hb.kind?_old hl, kind?_eq hrs, (h.proper hold).stereotype st hst (kind?_eq hrs)]
  have hno : g.next ≠ old := (ne_next (isLive_of_node? hold)).symm
  obtain ⟨_, g₂, hrun₂, hd⟩ :=
    (handed_of_replaceReferences hl₁ hold₁ hb.new_node rfl hno hst).total
  have hold₂ : g₂.isLive old = true := (isLive_handed hb hd).mpr (Or.inr (isLive_of_node? hold))
  exact ⟨g₁, g₂, _, hrun₁, hrun₂, delete_ok hold₂,
    superseded_of_handed h hold hco hhome hne hb hd hc⟩

end GraphM

end DeclGraph
