import DeclGraph.Proofs.Import.Preparation
import DeclGraph.Proofs.Import.Recollection

/-! Edges to what is imported and realized. An edge is built before the stereotype is looked up that
says what it stands for. Where this stereotype is missing and may not be made, the edge stays behind
bare: no search finds it again, so the next attempt builds another one. -/

namespace DeclGraph

open DeclGraph.Graph

namespace StereotypeRegistry

variable {g : Graph} {n : NodeId}

lemma stereotypeIn?_ok (hn : g.isLive n = true) (name : String) (base : Option String) :
    ∃ found, g.stereotypeIn? n name base = .ok found := by
  obtain ⟨r, hr⟩ := isLive_iff.mp hn
  refine ⟨g.findIn r.owned (fitsStereotype name base), ?_⟩
  unfold stereotypeIn? ownedElements
  rw [get_of_node? hr]
  rfl

/-- Where both of the namespaces are there that are searched, a search has an answer. -/
lemma resolve_ok (ρ : StereotypeRegistry) (name : String) (base : Option String)
    (hroot : g.isLive root = true) (hprofile : g.isLive profilePackage = true) :
    ∃ a g', ρ.resolve name base g = .ok a g' := by
  have hsearch : ∃ found, g.stereotype? name base = .ok found := by
    obtain ⟨inProfile, hp⟩ := stereotypeIn?_ok hprofile name base
    unfold stereotype?
    rw [hp]
    cases inProfile with
    | some n => exact ⟨some n, rfl⟩
    | none => exact stereotypeIn?_ok hroot name base
  obtain ⟨found, hfound⟩ := hsearch
  unfold resolve
  rw [bind_run (show (get : GraphM Graph) g = .ok g g from rfl)]
  cases (ρ.remembered? name base).filter g.isLive with
  | some n => exact ⟨_, _, rfl⟩
  | none =>
    dsimp only
    rw [bind_run (GraphM.query_ok hfound)]
    cases found with
    | some n => exact ⟨_, _, rfl⟩
    | none =>
      dsimp only
      split_ifs
      · obtain ⟨g', hrun, hb⟩ := GraphM.create_under g .stereotype (some name) hroot
        rw [bind_run hrun]
        cases base with
        | none => exact ⟨_, _, rfl⟩
        | some b => exact ⟨_, _, bind_run (GraphM.update_ok _ (isLive_of_node? hb.new_node))⟩
      · exact ⟨_, _, rfl⟩

end StereotypeRegistry

/-- A unit whose edges can be built: the profile is there and what is remembered is right. -/
structure UnitState.Able (u : UnitContext) (s : UnitState) : Prop extends s.Sound where
  profile : s.graph.isLive profilePackage = true
  faithful : s.Faithful
  license : s.registry.allowSynthesis = u.settings.synthesizeStereotypes

namespace UnitState.Able

variable {α : Type} {x : ImportM α} {s t : UnitState} {u : UnitContext} {a : α}

lemma run [hk : Composed .keeping x] [hd : Composed .dutiful x] (h : s.Able u) (ht : t.Sound)
    (hs : s.Prepares t) (hrun : x s = .ok a t) : t.Able u := by
  have hkeeps : s.graph.Keeps t.graph := ImportM.keeps_run hrun
  have hminds : s.Minds t := ((ImportM.minds hd le_rfl).ends s).ok hrun
  obtain ⟨r, hr⟩ := isLive_iff.mp h.profile
  obtain ⟨r', hr', -⟩ := hkeeps.node hr
  exact ⟨ht, isLive_of_node? hr', hminds h.faithful, hs.registry ▸ h.license⟩

/-- The scopes may change as long as the package stays. -/
lemma setScopes (h : s.Able u) {scopes : ScopeStack} (hpack : scopes.package = s.scopes.package) :
    ({ s with scopes } : UnitState).Able u :=
  ⟨⟨h.graph, hpack ▸ h.package, h.component⟩, h.profile, h.faithful, h.license⟩

end UnitState.Able

lemma UnitState.Reached.able {s : UnitState} {u : UnitContext} (h : s.Reached u) : s.Able u := by
  obtain ⟨r, hr, -⟩ := h.framed.rooted.profile
  exact ⟨h.framed.toSound, isLive_of_node? hr, h.faithful, h.allowSynthesis⟩

namespace UnitState

variable {α β : Type} {s t : UnitState} {u : UnitContext} {kind : NodeKind} {m : MissingStereotype}

/-- There is one dependency more, which is marked and noted. -/
structure GainsEdge (s : UnitState) (kind : NodeKind) (mark : String) (e : NodeId) (t : UnitState) :
    Prop where
  dependencies : t.graph.dependencies = s.graph.dependencies ++ [e]
  kind : t.graph.kind? e = some kind
  marked : t.graph.IsMarked e mark
  noted : e ∈ t.session.created

/-- There is one dependency more, which has nothing but its ends and perhaps a name and an owner.
The session has not noted it. -/
structure GainsBareEdge (s : UnitState) (kind : NodeKind) (e : NodeId) (t : UnitState) : Prop where
  dependencies : t.graph.dependencies = s.graph.dependencies ++ [e]
  bare : ∃ name owner client supplier, t.graph.node? e =
    some { kind, name, owner, clients := [client], suppliers := [supplier] }
  new : s.graph.next ≤ e
  unnoted : e ∈ t.session.created → e ∈ s.session.created

/-- What comes of an attempt to find or build an edge that a stereotype marks: nothing changes about
the dependencies, or a whole edge is new, or a bare one is and the attempt has failed. -/
inductive LinkOutcome (s : UnitState) (u : UnitContext) (kind : NodeKind) (m : MissingStereotype)
    {α : Type} : EStateM.Result ImportError UnitState α → Prop
  | same {a : α} {t : UnitState} : t.graph.dependencies = s.graph.dependencies →
      LinkOutcome s u kind m (.ok a t)
  | gained {a : α} {e : NodeId} {t : UnitState} : s.GainsEdge kind m.name e t →
      LinkOutcome s u kind m (.ok a t)
  | missing {e : NodeId} {t : UnitState} : u.settings.synthesizeStereotypes = false →
      s.GainsBareEdge kind e t → LinkOutcome s u kind m (.error (.missingStereotype m) t)
  | failed {f : ImportError} {t : UnitState} : (∀ m', f ≠ .missingStereotype m') →
      t.graph.dependencies = s.graph.dependencies → LinkOutcome s u kind m (.error f t)

namespace LinkOutcome

variable {r : EStateM.Result ImportError UnitState α} {x : ImportM α} {f : α → ImportM β}

lemma of_readies (h : s.Readies r) : s.LinkOutcome u kind m r := by
  have hsame := h.prepares.graph.dependencies
  cases r with
  | ok a t => exact .same hsame
  | error e t =>
    refine .failed (fun m' hm => ?_) hsame
    rw [hm] at h
    exact h.error rfl

/-- What happens before an attempt, as long as it makes no dependency itself. -/
lemma after (hs : s.Prepares t) (h : t.LinkOutcome u kind m r) : s.LinkOutcome u kind m r := by
  have hsame := hs.graph.dependencies
  cases h with
  | same hdeps => exact .same (hdeps.trans hsame)
  | gained hgains =>
    exact .gained ⟨hsame ▸ hgains.dependencies, hgains.kind, hgains.marked, hgains.noted⟩
  | missing hoff hbare =>
    refine .missing hoff ⟨hsame ▸ hbare.dependencies, hbare.bare, ?_, fun he => ?_⟩
    · exact hs.graph.next.trans hbare.new
    · exact (hs.noted _ (hbare.unnoted he)).resolve_right hbare.new.not_gt
  | failed hf hdeps => exact .failed hf (hdeps.trans hsame)

lemma bind_readies (hx : s.Readies (x s))
    (hf : ∀ a t, x s = .ok a t → t.LinkOutcome u kind m (f a t)) :
    s.LinkOutcome u kind m ((x >>= f) s) := by
  cases hrun : x s with
  | ok a t =>
    rw [bind_run hrun]
    exact after (hx.ok hrun) (hf a t hrun)
  | error e t =>
    rw [bind_failed hrun]
    rw [hrun] at hx
    refine of_readies ⟨hx.prepares, fun h => ?_⟩
    cases h
    exact hx.error rfl

lemma map {g : α → β} (h : s.LinkOutcome u kind m (x s)) :
    s.LinkOutcome u kind m ((g <$> x) s) := by
  change s.LinkOutcome u kind m (EStateM.map g x s)
  unfold EStateM.map
  cases hrun : x s <;> rw [hrun] at h
  · cases h with
    | same hdeps => exact .same hdeps
    | gained hgains => exact .gained hgains
  · cases h with
    | missing hoff hbare => exact .missing hoff hbare
    | failed hf hdeps => exact .failed hf hdeps

end LinkOutcome

end UnitState

namespace ImportM

variable {α : Type} {x : ImportM α} {s t : UnitState} {u : UnitContext} {client supplier n : NodeId}
  {kind : NodeKind} {name : Option String} {m : MissingStereotype} {event : Event} {a : α}

/-- A stereotype is found or made, or is missing and may not be made. -/
lemma stereotype_outcome (hs : s.Faithful) (hroot : s.graph.isLive root = true)
    (hprofile : s.graph.isLive profilePackage = true) (m : MissingStereotype) :
    (∃ st t, stereotype m.name m.baseClass s = .ok st t ∧ t.graph.Named st m.name ∧
      s.graph.SameDependencies t.graph ∧ t.scopes = s.scopes) ∨
    ∃ t, stereotype m.name m.baseClass s = .error (.missingStereotype m) t ∧
      s.registry.allowSynthesis = false ∧ t.graph = s.graph ∧ t.session = s.session := by
  obtain ⟨⟨answer, ρ⟩, g, hres⟩ := s.registry.resolve_ok m.name m.baseClass hroot hprofile
  have hanswer := (StereotypeRegistry.ends_answer hs m.name m.baseClass).ok hres
  rw [stereotype_run, hres]
  cases answer with
  | error m' =>
    obtain ⟨rfl, hoff, -, rfl⟩ := hanswer
    exact Or.inr ⟨_, rfl, hoff, rfl, rfl⟩
  | ok st =>
    have hsame : Obeys SameDependencies (s.registry.resolve m.name m.baseClass) := inferInstance
    exact Or.inl ⟨st, _, rfl, hanswer.1, (hsame.ends s.graph).ok hres, rfl⟩

/-- The last steps of building an edge. -/
def markEdge (edge st : NodeId) (event : Event) : ImportM NodeId := do
  change (.addStereotype edge st)
  register edge
  emit event
  return edge

lemma markEdge_ok {st : NodeId} (hn : s.graph.isLive n = true) (hst : s.graph.Named st m.name)
    (event : Event) :
    ∃ t, markEdge n st event s = .ok n t ∧ t.graph.IsMarked n m.name ∧ n ∈ t.session.created ∧
      s.graph.SameDependencies t.graph ∧ t.scopes = s.scopes := by
  obtain ⟨x, hx, hk, -⟩ := id hst
  have hadd : GraphM.addStereotype n st s.graph = .ok () (s.graph.modify n fun r =>
      if st ∈ r.stereotypes then r else { r with stereotypes := r.stereotypes ++ [st] }) := by
    rw [GraphM.addStereotype_run, hx]
    simp only [hk, if_true]
    exact GraphM.update_ok _ hn
  have hsame : Obeys SameDependencies (GraphM.addStereotype n st) := inferInstance
  have hmarked := addStereotype_marks hst (change_ok hadd)
  refine ⟨_, bind_run (change_ok hadd), hmarked, ?_, (hsame.ends s.graph).ok hadd, rfl⟩
  exact UnitState.Booked.mem_register.mpr (Or.inl rfl)

/-- An edge that was not found is built. -/
def link (client supplier : NodeId) (kind : NodeKind) (name : Option String)
    (m : MissingStereotype) (event : Event) : ImportM NodeId := do
  let edge ← change (.buildDependency client supplier kind name)
  let st ← stereotype m.name m.baseClass
  markEdge edge st event

instance keeping_markEdge (edge st : NodeId) : Composed .keeping (markEdge edge st event) := by
  unfold markEdge
  infer_instance

instance keeping_link : Composed .keeping (link client supplier kind name m event) := by
  unfold link
  infer_instance

/-- Building an edge ends well, or for want of the stereotype. -/
lemma link_run (h : s.Able u) (hc : s.graph.isLive client = true)
    (hp : s.graph.isLive supplier = true) (hk : kind.isDependency = true) (name : Option String)
    (m : MissingStereotype) (event : Event) :
    (∃ t, link client supplier kind name m event s = .ok s.graph.next t ∧
      s.GainsEdge kind m.name s.graph.next t ∧ t.scopes = s.scopes) ∨
    ∃ t, link client supplier kind name m event s = .error (.missingStereotype m) t ∧
      u.settings.synthesizeStereotypes = false ∧ s.GainsBareEdge kind s.graph.next t := by
  obtain ⟨rc, hrc⟩ := isLive_iff.mp hc
  obtain ⟨g, hbuild, hb⟩ := GraphM.buildDependency_ok name hk hrc hp
    fun o ho => h.graph.owner_live hrc ho
  have hdeps : g.dependencies = s.graph.dependencies ++ [s.graph.next] := hb.dependencies hk
  have htitles : Obeys Titles (GraphM.buildDependency client supplier kind name) := inferInstance
  have hfaithful : ({ s with graph := g } : UnitState).Faithful :=
    h.faithful.titles ((htitles.ends s.graph).ok hbuild)
  unfold link
  rw [bind_run (change_ok hbuild)]
  rcases stereotype_outcome hfaithful (hb.live h.graph.root_live) (hb.live h.profile) m with
    ⟨st, t, hst, hnamed, hsame, hscopes⟩ | ⟨t, hmissing, hoff, hgraph, hsession⟩
  · have hkeeps : g.Keeps t.graph := keeps_run hst
    obtain ⟨r, hr, -⟩ := hkeeps.node hb.new_node
    obtain ⟨t', hmark, hmarked, hnoted, hsame', hscopes'⟩ :=
      markEdge_ok (isLive_of_node? hr) hnamed event
    refine Or.inl ⟨t', (bind_run hst).trans hmark, ⟨?_, ?_, hmarked, hnoted⟩,
      hscopes'.trans hscopes⟩
    · rw [hsame'.dependencies, hsame.dependencies, hdeps]
    · have hkeeps' : t.Keeps t' := keeps_run hmark
      obtain ⟨r', hr', hkind⟩ := (trans_of Graph.Keeps hkeeps hkeeps').node hb.new_node
      rw [kind?_eq hr', hkind.kind]
  · refine Or.inr ⟨t, bind_failed hmissing, h.license.symm.trans hoff, ?_, ?_, le_rfl, ?_⟩
    · rw [hgraph, hdeps]
    · exact ⟨name, rc.owner, client, supplier, hgraph ▸ hb.new_node⟩
    · rw [hsession]
      exact id

lemma outcome_link (h : s.Able u) (hc : s.graph.isLive client = true)
    (hp : s.graph.isLive supplier = true) (hk : kind.isDependency = true) :
    s.LinkOutcome u kind m (link client supplier kind name m event s) := by
  rcases link_run h hc hp hk name m event with ⟨t, hrun, hgains, -⟩ | ⟨t, hrun, hoff, hbare⟩ <;>
    rw [hrun]
  · exact .gained hgains
  · exact .missing hoff hbare

/-! Imports -/

lemma isLive_of_clientDependencies {g : Graph} {deps : List NodeId}
    (h : g.clientDependencies n = .ok deps) : g.isLive n = true := by
  obtain ⟨r, hr, -⟩ := except_bind_eq_ok.mp h
  exact isLive_of_node? (get_eq_ok.mp hr)

lemma outcome_buildImport (h : s.Able u) (hp : s.graph.isLive n = true) :
    s.LinkOutcome u .dependency ⟨Profile.importStereotype, none⟩ (buildImport u n s) := by
  unfold buildImport
  refine .bind_readies .get fun _ _ hget => ?_
  cases hget
  cases s.component with
  | none => exact .of_readies (.failure nofun)
  | some c =>
    refine .bind_readies (.query _) fun deps t hdeps => ?_
    refine .bind_readies (.query _) fun found t' hfound => ?_
    obtain ⟨hdeps, rfl⟩ := query_eq_ok.mp hdeps
    obtain ⟨-, rfl⟩ := query_eq_ok.mp hfound
    obtain ⟨cs, hcs, -⟩ := except_bind_eq_ok.mp hdeps
    cases found with
    | some dep => exact .of_readies (.answer dep)
    | none =>
      refine .bind_readies (readies_edgeName c n _) fun name t hname => ?_
      obtain rfl := eq_of_edgeName hname
      exact outcome_link h (isLive_of_clientDependencies hcs) hp rfl

/-- A clause makes something visible and becomes a dependency on it. -/
lemma outcome_importOf (h : s.Able u) (hn : s.graph.isLive n = true) {f : ScopeStack → ScopeStack}
    (hpack : (f s.scopes).package = s.scopes.package) :
    s.LinkOutcome u .dependency ⟨Profile.importStereotype, none⟩ ((do
      modifyScopes f
      some <$> buildImport u n : ImportM (Option NodeId)) s) := by
  refine .bind_readies (.modifyScopes f) fun _ t hrun => ?_
  cases hrun
  exact .map (outcome_buildImport (h.setScopes hpack) hn)

lemma outcome_addImport (h : s.Able u) (name : String) :
    s.LinkOutcome u .dependency ⟨Profile.importStereotype, none⟩ (addImport u name s) := by
  unfold addImport
  split_ifs
  · exact .of_readies (.answer none)
  rcases QualifiedName.split name with ⟨qualifier, simple⟩
  dsimp only
  split_ifs
  · have hready := readies_getPackage qualifier s
    refine .bind_readies hready fun p t hrun => ?_
    obtain ⟨-, ht, hu, k, hk, -⟩ := (performs_getPackage_unit (u := u) h.toSound qualifier).ok hrun
    refine outcome_importOf (h.run ht (hready.ok hrun) hrun) (isLive_of_kind? hk) ?_
    unfold ScopeStack.addImportedPackage
    split <;> rfl
  · have hready : s.Readies (resolve u name .any "an imported classifier" s) :=
      readies_resolve name .any _ s
    refine .bind_readies hready fun found t hrun => ?_
    obtain ⟨hs, hu, hfound⟩ := (performs_resolve name .any _ h.graph).ok hrun
    cases found with
    | none => exact .of_readies (.answer none)
    | some n =>
      obtain ⟨k, hk, -⟩ := hfound n rfl
      refine outcome_importOf (h.run (h.steps hs hu) (hready.ok hrun) hrun) (isLive_of_kind? hk) ?_
      unfold ScopeStack.addImportedClassifier
      split <;> rfl

/-! Realizations -/

/-- An edge goes to the current package. -/
def place (edge : NodeId) : ImportM NodeId := do
  change (.setNamespace edge (some (← get).scopes.package))
  return edge

lemma readies_place (edge : NodeId) (s : UnitState) : s.Readies (place edge s) := by
  have hmove : s.Readies (change (.setNamespace edge (some s.scopes.package)) s) := .change _
  exact .bind_ok rfl (refl_of UnitState.Prepares s) (hmove.bind fun _ _ _ => .answer edge)

/-- A new edge can be put into the package, where it stays what it is. -/
lemma place_ok (h : s.GainsEdge kind m.name n t) (hp : t.graph.isLive t.scopes.package = true) :
    ∃ t', place n t = .ok n t' ∧ s.GainsEdge kind m.name n t' := by
  obtain ⟨r, hr, hk⟩ := kind?_eq_some.mp h.kind
  have hhome (p) (hp' : some t.scopes.package = some p) : t.graph.isLive p = true :=
    Option.some.inj hp' ▸ hp
  obtain ⟨g, hset, -⟩ := GraphM.setNamespace_ok hr hhome
  have hrun : place n t = .ok n { t with graph := g } :=
    (bind_run rfl).trans (bind_run (change_ok hset))
  have hkeeps : t.Keeps { t with graph := g } := keeps_run (change_ok hset)
  obtain ⟨r', hr', hsame⟩ := hkeeps.node hr
  refine ⟨_, hrun, ?_, ?_, Graph.Keeps.isMarked hkeeps h.marked, h.noted⟩
  · exact ((readies_place n t).ok hrun).graph.dependencies.trans h.dependencies
  · rw [kind?_eq hr', hsame.kind, hk]

lemma upsertRealization_eq (u : UnitContext) (client supplier : NodeId) :
    upsertRealization u client supplier = (do
      let deps ← query (·.clientDependencies client)
      match ← findRealization client supplier deps with
      | some dep => place dep
      | none =>
        let name ← edgeName u client supplier
        let dep ← link client supplier .abstraction name
          ⟨Profile.realizeStereotype, some "Abstraction"⟩ (.abstractionCreated (name.getD ""))
        place dep) := by
  unfold upsertRealization link markEdge place
  congr 1
  funext deps
  congr 1
  funext found
  cases found with
  | some dep => rfl
  | none => simp only [bind_assoc, pure_bind]

lemma outcome_upsertRealization (h : s.Able u) (client : NodeId)
    (hp : s.graph.isLive supplier = true) :
    s.LinkOutcome u .abstraction ⟨Profile.realizeStereotype, some "Abstraction"⟩
      (upsertRealization u client supplier s) := by
  rw [upsertRealization_eq]
  refine .bind_readies (.query _) fun deps t hdeps => ?_
  obtain ⟨hdeps, rfl⟩ := query_eq_ok.mp hdeps
  have hclient := isLive_of_clientDependencies hdeps
  have hdep (d) (hd : d ∈ deps) := once_of_clientDependencies hdeps hd
  refine .bind_readies (readies_findRealization h.graph hdep) fun found t' hfound => ?_
  obtain rfl := eq_of_findRealization h.graph hdeps hfound
  cases found with
  | some dep => exact .of_readies (readies_place dep t')
  | none =>
    refine .bind_readies (readies_edgeName client supplier t') fun name t hname => ?_
    obtain rfl := eq_of_edgeName hname
    obtain ⟨k, hk, -⟩ := h.package
    have hkind : NodeKind.abstraction.isDependency = true := rfl
    rcases link_run h hclient hp hkind name _ (.abstractionCreated (name.getD "")) with
      ⟨t', hrun, hgains, hscopes⟩ | ⟨t', hrun, hoff, hbare⟩
    · have hkeeps : t.Keeps t' := keeps_run hrun
      obtain ⟨r, hr, -⟩ := kind?_eq_some.mp hk
      obtain ⟨r', hr', -⟩ := hkeeps.node hr
      obtain ⟨t'', hplace, hgains'⟩ := place_ok hgains (hscopes ▸ isLive_of_node? hr')
      rw [bind_run hrun, hplace]
      exact .gained hgains'
    · rw [bind_failed hrun]
      exact .missing hoff hbare

lemma outcome_realize (h : s.Able u) (client : NodeId) (interface : String) :
    s.LinkOutcome u .abstraction ⟨Profile.realizeStereotype, some "Abstraction"⟩
      (realize u client interface s) := by
  unfold realize
  have hready : s.Readies (resolve u interface .interfaceOnly "an abstraction" s) :=
    readies_resolve interface .interfaceOnly _ s
  refine .bind_readies hready fun found t hrun => ?_
  obtain ⟨hs, hu, hfound⟩ := (performs_resolve interface .interfaceOnly _ h.graph).ok hrun
  cases found with
  | none => exact .of_readies (.answer ())
  | some i =>
    obtain ⟨k, hk, -⟩ := hfound i rfl
    have ht : t.Able u := h.run (h.steps hs hu) (hready.ok hrun) hrun
    exact .map (outcome_upsertRealization ht client (isLive_of_kind? hk))

end ImportM

/-- What a unit asks for edges that a stereotype marks: import clauses, and interfaces that
classifiers realize. -/
inductive EdgeRequest
  | clause (name : String)
  | realization (client : NodeId) (interface : String)

namespace EdgeRequest

def run (u : UnitContext) : EdgeRequest → ImportM Unit
  | clause name => discard <| ImportM.addImport u name
  | realization client interface => ImportM.realize u client interface

def kind : EdgeRequest → NodeKind
  | clause _ => .dependency
  | realization .. => .abstraction

/-- The stereotype that marks the edge. -/
def mark : EdgeRequest → MissingStereotype
  | clause _ => ⟨Profile.importStereotype, none⟩
  | realization .. => ⟨Profile.realizeStereotype, some "Abstraction"⟩

lemma outcome {s : UnitState} {u : UnitContext} (h : s.Able u) (c : EdgeRequest) :
    s.LinkOutcome u c.kind c.mark (c.run u s) := by
  cases c with
  | clause name => exact .map (g := fun _ => ()) (ImportM.outcome_addImport h name)
  | realization client interface => exact ImportM.outcome_realize h client interface

end EdgeRequest

/-- Import clauses that fail for want of a stereotype, one after the other: in one unit, or in units
that start again on the graph that the one before has left. -/
inductive FailedClauses (u : UnitContext) (s : UnitState) : UnitContext → UnitState → ℕ → Prop
  | none : FailedClauses u s u s 0
  | clause {u' : UnitContext} {t t' : UnitState} {k : ℕ} {m : MissingStereotype} {name : String} :
      FailedClauses u s u' t k → ImportM.addImport u' name t = .error (.missingStereotype m) t' →
      FailedClauses u s u' t' (k + 1)
  | restart {u' : UnitContext} {t : UnitState} {k : ℕ} (u'' : UnitContext) {store : Store} :
      FailedClauses u s u' t k → store.graph = t.graph →
      FailedClauses u s u'' (UnitCall.addComponent.after u'' (.start u'' store)) k

namespace FailedClauses

variable {u u' : UnitContext} {s t : UnitState} {k : ℕ}

lemma reached (h : FailedClauses u s u' t k) (hs : s.Reached u) : t.Reached u' := by
  induction h with
  | none => exact hs
  | @clause u' t t' _ m name _ hrun ih =>
    have hafter : (UnitCall.addImport name).after u' t = t' := by
      rw [UnitCall.after, UnitCall.run, final_discard, hrun]
      rfl
    exact hafter ▸ ih.call (.addImport name)
  | restart u'' _ hstore ih => exact (ih.next u'' hstore).call .addComponent

/-- Each failure leaves one dependency more. -/
lemma length_dependencies (h : FailedClauses u s u' t k) (hs : s.Reached u) :
    t.graph.dependencies.length = s.graph.dependencies.length + k := by
  induction h with
  | none => rfl
  | @clause u' t t' k m name hbefore hrun ih =>
    have houtcome := ImportM.outcome_addImport (hbefore.reached hs).able name
    rw [hrun] at houtcome
    cases houtcome with
    | missing _ hbare =>
      rw [hbare.dependencies, List.length_append, ih]
      rfl
    | failed hf _ => exact absurd rfl (hf m)
  | @restart _ t _ u'' store _ hstore ih =>
    have hsame : (UnitState.start u'' store).Readies (ImportM.addComponent u'' _) :=
      ImportM.readies_addComponent _
    rw [UnitCall.after, UnitCall.run, final_discard, hsame.prepares.graph.dependencies, ← ih]
    exact congrArg (·.dependencies.length) hstore

end FailedClauses

/-- An import clause or a realization that misses its stereotype leaves a bare edge that the session
does not know of. It misses the stereotype only where none may be made; every other attempt leaves a
whole edge or none. So each import clause that fails in this way makes the model grow, also where it
failed before. -/
theorem missing_stereotype_leaves_edge {u : UnitContext} {s : UnitState} (h : s.Reached u) :
    (∀ c : EdgeRequest, s.LinkOutcome u c.kind c.mark (c.run u s)) ∧
      ∀ u' t k, FailedClauses u s u' t k →
        t.graph.dependencies.length = s.graph.dependencies.length + k :=
  ⟨fun c => c.outcome h.able, fun _ _ _ ht => ht.length_dependencies h⟩

/-- A unit that may not make stereotypes. -/
def strictUnit : UnitContext where
  name := "a.idl"
  pass := .references
  settings := { synthesizeStereotypes := false }

/-- The unit comes to its import clauses, and the profile has no stereotype for them. -/
def strictStart : UnitState :=
  UnitCall.addComponent.after strictUnit (.start strictUnit { graph := .new "m" ⟨"idl", [], []⟩ })

/-- A clause has failed. -/
def strictOnce : UnitState := finalState (ImportM.addImport strictUnit "q.*" strictStart)

/-- It fails again in a unit that has started again. -/
def strictTwice : UnitState :=
  finalState (ImportM.addImport strictUnit "q.*"
    (UnitCall.addComponent.after strictUnit (.start strictUnit strictOnce.toStore)))

lemma reached_strictStart : strictStart.Reached strictUnit := by
  have hfresh : Imported (fun _ => True) ({ graph := .new "m" ⟨"idl", [], []⟩ } : Store).graph :=
    .fresh "m" ⟨"idl", [], []⟩
  exact (UnitState.Reached.first strictUnit hfresh).call .addComponent

lemma failed_strictOnce : ImportM.addImport strictUnit "q.*" strictStart =
    .error (.missingStereotype ⟨Profile.importStereotype, none⟩) strictOnce :=
  eq_error_of_failure? (by decide +kernel)

lemma failed_strictTwice : ImportM.addImport strictUnit "q.*"
    (UnitCall.addComponent.after strictUnit (.start strictUnit strictOnce.toStore)) =
    .error (.missingStereotype ⟨Profile.importStereotype, none⟩) strictTwice :=
  eq_error_of_failure? (by decide +kernel)

theorem missing_stereotype_leaves_edge_twice :
    strictStart.Reached strictUnit ∧
      strictStart.LinkOutcome strictUnit .dependency ⟨Profile.importStereotype, none⟩
        ((EdgeRequest.clause "q.*").run strictUnit strictStart) ∧
      FailedClauses strictUnit strictStart strictUnit strictTwice 2 ∧
      strictTwice.graph.dependencies.length = strictStart.graph.dependencies.length + 2 := by
  have hs := reached_strictStart
  have hfailed : FailedClauses strictUnit strictStart strictUnit strictTwice 2 :=
    ((FailedClauses.none.clause failed_strictOnce).restart strictUnit rfl).clause failed_strictTwice
  obtain ⟨houtcome, hgrows⟩ := missing_stereotype_leaves_edge hs
  exact ⟨hs, houtcome (.clause "q.*"), hfailed, hgrows _ _ _ hfailed⟩

/-- The clause leaves a dependency without stereotype behind, and then another one from the same
component to the same package. -/
theorem failed_clause_leaves_bare_edges :
    strictStart.Reached strictUnit ∧ strictUnit.settings.synthesizeStereotypes = false ∧
      ImportM.addImport strictUnit "q.*" strictStart =
        .error (.missingStereotype ⟨Profile.importStereotype, none⟩) strictOnce ∧
      strictStart.graph.dependencies = [] ∧ strictOnce.graph.dependencies = [5] ∧
      strictOnce.graph.hasStereotype 5 Profile.importStereotype = .ok false ∧
      5 ∉ strictOnce.session.created ∧
      strictTwice.graph.dependenciesBetween 4 3 = .ok [5, 6] :=
  ⟨reached_strictStart, rfl, failed_strictOnce, by decide +kernel, by decide +kernel,
    by decide +kernel, by decide +kernel, by decide +kernel⟩

end DeclGraph
