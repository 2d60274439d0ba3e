import DeclGraph.Graph.Registry
import DeclGraph.Proofs.Graph.Stock

/-! Readings and changes of a graph answer or are refused, whatever handles they are given, and the
lists of the records can be followed afterwards if they could before. Only the reading that leads
from one end of an association to the other follows anything else. -/

namespace DeclGraph

/-- A graph has refused what was asked of it; its records do not contradict each other. -/
def GraphFault.IsRefusal : GraphFault → Prop
  | .missingRecord _ => False
  | _ => True

/-- A reading of a graph answers or is refused, if the lists of the records can be followed. -/
class Refuses {α : Type} (g : Graph) (x : Except GraphFault α) : Prop where
  refusal : g.Stocked → ∀ {f}, x = .error f → f.IsRefusal

/-- A program that is started in a state with an invariant keeps it and fails with errors of a set
alone. -/
structure FailsFrom {ε σ α : Type} (I : σ → Prop) (P : ε → Prop) (s : σ) (x : EStateM ε σ α) :
    Prop where
  keeps : I s → I (finalState (x s))
  error : I s → ∀ {e t}, x s = .error e t → P e

/-- A program keeps an invariant and fails with errors of a set alone where it holds. -/
class FailsIn {ε σ α : Type} (I : σ → Prop) (P : ε → Prop) (x : EStateM ε σ α) : Prop where
  start : ∀ s, FailsFrom I P s x

section readings

variable {α β : Type} {x y : Except GraphFault α} {f : α → Except GraphFault β} {g : Graph}
  {n : NodeId}

instance refuses_ok (a : α) : Refuses g (.ok a : Except GraphFault α) := ⟨fun _ => nofun⟩

instance refuses_pure (a : α) : Refuses g (pure a : Except GraphFault α) := ⟨fun _ => nofun⟩

lemma Refuses.bind (hx : Refuses g x) (hf : ∀ a, Refuses g (f a)) : Refuses g (x >>= f) := by
  refine ⟨fun hg {e} h => ?_⟩
  cases hr : x with
  | error e' =>
    rw [hr] at h
    obtain rfl : e' = e := Except.error.inj h
    exact hx.refusal hg hr
  | ok a =>
    rw [hr] at h
    exact (hf a).refusal hg h

instance refuses_bind [hx : Refuses g x] [hf : ∀ a, Refuses g (f a)] : Refuses g (x >>= f) := hx.bind hf

instance refuses_map {f : α → β} [hx : Refuses g x] : Refuses g (f <$> x) := by
  rw [map_eq_pure_bind]
  infer_instance

instance refuses_filterM {xs : List α} {p : α → Except GraphFault Bool} [hp : ∀ a, Refuses g (p a)] :
    Refuses g (xs.filterM p) := by
  have aux (kept : List α) : Refuses g (xs.filterAuxM p kept) := by
    induction xs generalizing kept with
    | nil => exact refuses_ok kept
    | cons a xs ih => exact (hp a).bind fun _ => ih _
  exact (aux []).bind fun _ => refuses_ok _

instance refuses_ite {p : Prop} [Decidable p] [hx : Refuses g x] [hy : Refuses g y] :
    Refuses g (if p then x else y) := by
  split_ifs
  exacts [hx, hy]

lemma Refuses.bind_ok (hx : Refuses g x) (hf : ∀ a, x = .ok a → Refuses g (f a)) :
    Refuses g (x >>= f) := by
  refine ⟨fun hg {e} h => ?_⟩
  rcases except_bind_eq_error.mp h with he | ⟨a, ha, he⟩
  exacts [hx.refusal hg he, (hf a ha).refusal hg he]

/-- What comes after a value was found or not. -/
lemma Refuses.found {o : Except GraphFault (Option α)} {f : Option α → Except GraphFault β}
    (ho : Refuses g o) (hnone : Refuses g (f none)) (hsome : ∀ a, Refuses g (f (some a))) :
    Refuses g (o >>= f) :=
  ho.bind fun found => found.casesOn hnone hsome

namespace Graph

instance refuses_get : Refuses g (g.get n) := by
  refine ⟨fun _ {f} h => ?_⟩
  unfold get at h
  split at h
  · exact nomatch h
  · cases h
    trivial

/-! Lists of parts and of stereotypes are followed -/

lemma children_live [hg : g.Stocked] {slot : Slot} {ns : List NodeId}
    (h : (·.children slot) <$> g.get n = .ok ns) : ∀ m ∈ ns, g.isLive m = true := by
  obtain ⟨r, hr, rfl⟩ := except_map_eq_ok.mp h
  exact hg.part (get_eq_ok.mp hr) slot

lemma refuses_of_ok (h : g.Stocked → ∃ a, x = .ok a) : Refuses g x := by
  refine ⟨fun hg {e} he => ?_⟩
  obtain ⟨a, ha⟩ := h hg
  exact nomatch ha.symm.trans he

lemma refuses_followFirst (slot : Slot) (p : Node → Bool) : Refuses g (do
    g.followFirst p (← (·.children slot) <$> g.get n)) :=
  .bind_ok inferInstance fun _ hns =>
    refuses_of_ok fun _ => ⟨_, followFirst_of_live (children_live hns)⟩

lemma refuses_followAll (slot : Slot) (p : Node → Bool) : Refuses g (do
    g.followAll p (← (·.children slot) <$> g.get n)) :=
  .bind_ok inferInstance fun _ hns =>
    refuses_of_ok fun _ => ⟨_, followAll_of_live (children_live hns)⟩

instance refuses_lookupIn (name : Option String) : Refuses g (g.lookupIn n name) :=
  refuses_followFirst .owned _

instance refuses_innerClassifiers : Refuses g (g.innerClassifiers n) := refuses_followAll .owned _

instance refuses_featuresOfKind (k : NodeKind) : Refuses g (g.featuresOfKind n k) :=
  refuses_followAll .features _

instance refuses_taggedValueNode? (tag : String) : Refuses g (g.taggedValueNode? n tag) := by
  have h := refuses_followFirst (g := g) (n := n) .taggedValues (·.name = some tag)
  unfold taggedValueNode?
  rwa [show ((·.children .taggedValues) <$> g.get n : Except GraphFault _) = _ from
    (map_eq_pure_bind _ _), bind_assoc] at h

instance refuses_taggedValue? (tag : String) : Refuses g (g.taggedValue? n tag) := by
  unfold taggedValue?
  infer_instance

instance refuses_stereotypesOf : Refuses g (g.stereotypesOf n) := by
  unfold stereotypesOf
  infer_instance

instance refuses_hasStereotype (name : String) : Refuses g (g.hasStereotype n name) := by
  refine .bind_ok inferInstance fun ns hns => .bind (refuses_of_ok fun hg => ?_) inferInstance
  obtain ⟨r, hr, rfl⟩ := except_map_eq_ok.mp hns
  refine ⟨_, followFirst_of_live fun st hst => ?_⟩
  obtain ⟨x, hx, -⟩ := hg.stereotype (get_eq_ok.mp hr) st hst
  exact isLive_of_node? hx

instance refuses_associationEnd? (classifier association : NodeId) :
    Refuses g (g.associationEnd? classifier association) :=
  refuses_followFirst .connections _

instance refuses_kindOf : Refuses g (g.kindOf n) := by unfold kindOf; infer_instance

instance refuses_nameOf : Refuses g (g.nameOf n) := by unfold nameOf; infer_instance

instance refuses_namespaceOf : Refuses g (g.namespaceOf n) := by unfold namespaceOf; infer_instance

instance refuses_ownedElements : Refuses g (g.ownedElements n) := by
  unfold ownedElements
  infer_instance

instance refuses_childOfKind? (name : Option String) (k : NodeKind) :
    Refuses g (g.childOfKind? n name k) := by
  unfold childOfKind?
  infer_instance

instance refuses_classifier? (name : Option String) : Refuses g (g.classifier? n name) := by
  unfold classifier?
  infer_instance

instance refuses_featuresOf : Refuses g (g.featuresOf n) := by unfold featuresOf; infer_instance

instance refuses_parametersOf : Refuses g (g.parametersOf n) := by unfold parametersOf; infer_instance

instance refuses_feature? (name : String) (k : NodeKind) : Refuses g (g.feature? n name k) := by
  unfold feature?
  infer_instance

instance refuses_suppliersOf : Refuses g (g.suppliersOf n) := by unfold suppliersOf; infer_instance

instance refuses_clientDependencies : Refuses g (g.clientDependencies n) := by
  unfold clientDependencies
  infer_instance

instance refuses_dependenciesBetween (supplier client : NodeId) :
    Refuses g (g.dependenciesBetween supplier client) := by
  unfold dependenciesBetween
  infer_instance

instance refuses_elementResidences : Refuses g (g.elementResidences n) := by
  unfold elementResidences
  infer_instance

instance refuses_associationEnds : Refuses g (g.associationEnds n) := by
  unfold associationEnds
  infer_instance

instance refuses_stereotypeIn? (name : String) (base : Option String) :
    Refuses g (g.stereotypeIn? n name base) := by
  unfold stereotypeIn?
  infer_instance

instance refuses_stereotype? (name : String) (base : Option String) :
    Refuses g (g.stereotype? name base) := by
  unfold stereotype?
  exact .found (refuses_stereotypeIn? name base) inferInstance inferInstance

end Graph

end readings

section programs

variable {ε σ α β : Type} {I J : σ → Prop} {P : ε → Prop} {x y : EStateM ε σ α}
  {f : α → EStateM ε σ β}

namespace FailsFrom

variable {s t : σ} {a : α}

lemma answer (a : α) (s : σ) : FailsFrom I P s (pure a : EStateM ε σ α) := ⟨id, fun _ => nofun⟩

lemma failure {e : ε} (h : P e) (s : σ) : FailsFrom I P s (throw e : EStateM ε σ α) := by
  refine ⟨id, fun _ {e' t} he => ?_⟩
  cases he
  exact h

lemma bind (hx : FailsFrom I P s x) (hf : ∀ a t, x s = .ok a t → FailsFrom I P t (f a)) :
    FailsFrom I P s (x >>= f) := by
  cases hr : x s with
  | ok a t =>
    have ht (hs : I s) : I t := by
      have h := hx.keeps hs
      rwa [hr] at h
    refine ⟨fun hs => ?_, fun hs {e u} h => ?_⟩
    · rw [bind_run hr]
      exact (hf a t hr).keeps (ht hs)
    · rw [bind_run hr] at h
      exact (hf a t hr).error (ht hs) h
  | error e t =>
    refine ⟨fun hs => ?_, fun hs {e' u} h => ?_⟩
    · rw [bind_failed hr]
      have h := hx.keeps hs
      rwa [hr] at h
    · rw [bind_failed hr] at h
      cases h
      exact hx.error hs hr

lemma bind_ok (hrun : x s = .ok a t) (hI : I s → I t) (hf : FailsFrom I P t (f a)) :
    FailsFrom I P s (x >>= f) :=
  ⟨fun hs => bind_run hrun ▸ hf.keeps (hI hs), fun hs {_ _} h => hf.error (hI hs) (bind_run hrun ▸ h)⟩

lemma keeps_ok (hx : FailsFrom I P s x) (hrun : x s = .ok a t) (hs : I s) : I t := by
  have h := hx.keeps hs
  rwa [hrun] at h

/-- The invariant may be made use of. -/
lemma assume (h : I s → FailsFrom I P s x) : FailsFrom I P s x :=
  ⟨fun hs => (h hs).keeps hs, fun hs => (h hs).error hs⟩

/-- What comes after a failure does not matter. -/
lemma failure_bind {e : ε} (h : P e) (s : σ) {f : α → EStateM ε σ β} :
    FailsFrom I P s ((throw e : EStateM ε σ α) >>= f) :=
  (failure h s).bind fun _ _ hrun => nomatch hrun

/-- Another invariant may be used on the way. -/
lemma under (h : FailsFrom J P s x) (hs : I s → J s) (hI : ∀ t, J t → I t) :
    FailsFrom I P s x :=
  ⟨fun h' => hI _ (h.keeps (hs h')), fun h' => h.error (hs h')⟩

/-- Something that the body keeps besides is there whenever the body is started. -/
lemma forM {xs : List α} {f : α → EStateM ε σ PUnit} (hs : J s)
    (hf : ∀ a ∈ xs, ∀ s, J s → FailsFrom I P s (f a))
    (hJ : ∀ a ∈ xs, ∀ s t, J s → f a s = .ok ⟨⟩ t → J t) :
    FailsFrom I P s (xs.forM f : EStateM ε σ PUnit) := by
  induction xs generalizing s with
  | nil => exact .answer _ s
  | cons a xs ih =>
    refine (hf a (by simp) s hs).bind fun _ t ht => ?_
    exact ih (hJ a (by simp) s t hs ht) (fun a ha => hf a (by simp [ha]))
      fun a ha => hJ a (by simp [ha])

end FailsFrom

lemma FailsIn.error (h : FailsIn I P x) {s t : σ} {e : ε} (hs : I s) (hx : x s = .error e t) :
    P e :=
  (h.start s).error hs hx

lemma FailsIn.keeps (h : FailsIn I P x) {s : σ} (hs : I s) : I (finalState (x s)) :=
  (h.start s).keeps hs

lemma FailsIn.imp {Q : ε → Prop} (h : FailsIn I P x) (hPQ : ∀ e, P e → Q e) : FailsIn I Q x :=
  ⟨fun s => ⟨(h.start s).keeps, fun hs {_ _} he => hPQ _ ((h.start s).error hs he)⟩⟩

instance failsIn_pure (a : α) : FailsIn I P (pure a : EStateM ε σ α) := ⟨.answer a⟩

instance failsIn_get : FailsIn I P (get : EStateM ε σ σ) := ⟨fun _ => ⟨id, fun _ => nofun⟩⟩

lemma failsIn_modify {g : σ → σ} (hg : ∀ s, I s → I (g s)) :
    FailsIn I P (modify g : EStateM ε σ PUnit) :=
  ⟨fun s => ⟨hg s, fun _ => nofun⟩⟩

lemma failsIn_throw {e : ε} (h : P e) : FailsIn I P (throw e : EStateM ε σ α) := ⟨.failure h⟩

lemma FailsIn.bind (hx : FailsIn I P x) (hf : ∀ a, FailsIn I P (f a)) : FailsIn I P (x >>= f) :=
  ⟨fun s => (hx.start s).bind fun a t _ => (hf a).start t⟩

instance failsIn_bind [hx : FailsIn I P x] [hf : ∀ a, FailsIn I P (f a)] : FailsIn I P (x >>= f) :=
  hx.bind hf

instance failsIn_map {g : α → β} [hx : FailsIn I P x] : FailsIn I P (g <$> x) := by
  rw [map_eq_pure_bind]
  infer_instance

instance failsIn_ite {p : Prop} [Decidable p] [hx : FailsIn I P x] [hy : FailsIn I P y] :
    FailsIn I P (if p then x else y) := by
  split_ifs
  exacts [hx, hy]

/-- What comes after a value was found or not. -/
lemma FailsIn.found {o : EStateM ε σ (Option α)} {f : Option α → EStateM ε σ β}
    (ho : FailsIn I P o) (hnone : FailsIn I P (f none)) (hsome : ∀ a, FailsIn I P (f (some a))) :
    FailsIn I P (o >>= f) :=
  ho.bind fun found => found.casesOn hnone hsome

instance failsIn_forM {xs : List α} {f : α → EStateM ε σ PUnit} [hf : ∀ a, FailsIn I P (f a)] :
    FailsIn I P (xs.forM f : EStateM ε σ PUnit) := by
  induction xs with
  | nil => exact failsIn_pure _
  | cons a xs ih => exact (hf a).bind fun _ => ih

instance failsIn_forIn {xs : List α} {b : β} {f : α → β → EStateM ε σ (ForInStep β)}
    [hf : ∀ a b, FailsIn I P (f a b)] : FailsIn I P (forIn xs b f) := by
  induction xs generalizing b with
  | nil => exact failsIn_pure b
  | cons a xs ih =>
    rw [List.forIn_cons]
    refine (hf a b).bind fun step => ?_
    cases step
    exacts [failsIn_pure _, ih]

end programs

-- the instance for a program is as long as the program
set_option synthInstance.maxSize 4096

/-! Changes of graphs -/

namespace GraphM

variable {α : Type} {n : NodeId}

/-- Changes of a graph that are made or refused, and keep the lists such that they can be followed. -/
abbrev Sure (m : GraphM α) : Prop := FailsIn Graph.Stocked GraphFault.IsRefusal m

/-- What is known of the graph besides is of use. -/
lemma failsIn_query {I : Graph → Prop} {f : Graph → Except GraphFault α}
    (hI : ∀ g, I g → g.Stocked) (hf : ∀ g, I g → Refuses g (f g)) :
    FailsIn I GraphFault.IsRefusal (query f) := by
  refine ⟨fun g => ⟨fun hg => ?_, fun hg {e t} h => ?_⟩⟩
  · unfold query
    cases f g <;> exact hg
  · unfold query at h
    split at h
    · exact nomatch h
    · next hr =>
      cases h
      exact (hf g hg).refusal (hI g hg) hr

instance sure_query {f : Graph → Except GraphFault α} [hf : ∀ g, Refuses g (f g)] :
    Sure (query f) :=
  failsIn_query (fun _ => id) fun g _ => hf g

instance sure_get : Sure (get n) := by unfold get; infer_instance

/-- What is done with a record starts in a graph that has it. -/
lemma sure_get_bind {f : Node → GraphM α} (hf : ∀ g r, g.node? n = some r →
    FailsFrom Graph.Stocked GraphFault.IsRefusal g (f r)) : Sure (get n >>= f) := by
  refine ⟨fun g => (sure_get.start g).bind fun r t hr => ?_⟩
  rw [get_run] at hr
  cases hx : g.node? n with
  | none =>
    rw [hx] at hr
    cases hr
  | some x =>
    rw [hx] at hr
    cases hr
    exact hf g r hx

lemma sure_modifyNode {f : Node → Node} (hf : ∀ r : Node, r.SameLists (f r)) (n : NodeId) :
    Sure (modify (·.modify n f) : GraphM Unit) :=
  failsIn_modify fun _ _ => .modify_same hf

lemma sure_update {f : Node → Node} (hf : ∀ r : Node, r.SameLists (f r)) : Sure (update n f) :=
  .bind sure_get fun _ => sure_modifyNode hf n

instance sure_add (kind : NodeKind) (name : Option String) : Sure (add kind name) :=
  ⟨fun _ => ⟨fun _ => .add (fun s => by cases s <;> rfl) rfl, fun _ => nofun⟩⟩

instance sure_delete : Sure (delete n) :=
  .bind sure_get fun _ => failsIn_modify fun _ _ => .remove _

/-- The lists get longer by live elements alone. -/
lemma failsIn_extend {J : Graph → Prop} {f : Node → Node} (hk : ∀ r, (f r).kind = r.kind)
    (hJ : ∀ g, J g → J (g.modify n f))
    (hc : ∀ g, J g → ∀ r s, ∀ c ∈ (f r).children s, c ∈ r.children s ∨ g.isLive c = true)
    (hst : ∀ g, J g → ∀ r, ∀ st ∈ (f r).stereotypes, st ∈ r.stereotypes ∨ g.IsStereotype st) :
    FailsIn (fun g => g.Stocked ∧ J g) GraphFault.IsRefusal
      (modify (·.modify n f) : GraphM Unit) :=
  failsIn_modify fun g hg => ⟨have := hg.1; .modify hk (hc g hg.2) (hst g hg.2), hJ g hg.2⟩

instance sure_setNamespace (home : Option NodeId) : Sure (setNamespace n home) := by
  -- Once the element is found, it stays live until it is in the list of its new owner.
  let J : Graph → Prop := fun g => g.isLive n = true
  have hget (m : NodeId) : FailsIn (fun g => g.Stocked ∧ J g) GraphFault.IsRefusal (get m) :=
    failsIn_query (fun _ h => h.1) fun _ _ => inferInstance
  have hplace (m : NodeId) {f : Node → Node} (hb : ∀ r, (f r).bare = r.bare)
      (hc : ∀ r s, ∀ c ∈ (f r).children s, c ∈ r.children s ∨ c = n) :
      FailsIn (fun g => g.Stocked ∧ J g) GraphFault.IsRefusal
        (modify (·.modify m f) : GraphM Unit) := by
    refine failsIn_extend (fun r => (Node.bare_congr (hb r)).1) ?_ ?_ ?_
    · exact fun g hg => (Graph.isLive_modify m f n).trans hg
    · exact fun g hg r s c hcs => (hc r s c hcs).imp_right fun hcn : c = n => hcn ▸ hg
    · intro g _ r st hst
      exact Or.inl ((Node.bare_congr (hb r)).2.2.2.2.2.2.2.2.2.2 ▸ hst)
  have hdetach (owner : NodeId) (slot : Slot) := hplace owner (f := (·.detach slot n))
    (fun r => Node.bare_detach r slot n) fun r s c hc => by
      rw [Node.children_detach] at hc
      split_ifs at hc with hs
      · exact Or.inl (hs ▸ List.mem_of_mem_erase hc)
      · exact Or.inl hc
  have howner := hplace n (f := ({ · with owner := home })) (fun _ => rfl)
    fun r s c hc => Or.inl (by simpa using hc)
  have hattach (owner : NodeId) (slot : Slot) : FailsIn (fun g => g.Stocked ∧ J g)
      GraphFault.IsRefusal (update owner (·.attach slot n)) :=
    (hget owner).bind fun _ => hplace owner (fun r => Node.bare_attach r slot n) fun r s c hc => by
      rw [Node.children_attach] at hc
      split_ifs at hc with hs
      · rcases List.mem_append.mp hc with hc | hc
        · exact Or.inl (hs.1 ▸ hc)
        · exact Or.inr (List.mem_singleton.mp hc)
      · exact Or.inl hc
  unfold setNamespace
  refine sure_get_bind fun g r hr => ?_
  refine FailsFrom.under (J := fun g => g.Stocked ∧ J g) (@FailsIn.start _ _ _ _ _ _ ?_ g)
    (fun h => ⟨h, Graph.isLive_of_node? hr⟩) fun _ h => h.1
  cases r.owner with
  | none =>
    cases home with
    | none => exact howner
    | some p => exact howner.bind fun _ => hattach p _
  | some owner =>
    cases home with
    | none => exact (hdetach owner _).bind fun _ => howner
    | some p => exact (hdetach owner _).bind fun _ => howner.bind fun _ => hattach p _

instance sure_create (kind : NodeKind) (name : Option String) (home : Option NodeId) :
    Sure (create kind name home) := by
  unfold create
  infer_instance

instance sure_setType (type : Option NodeId) : Sure (setType n type) := by
  have : Sure (update n ({ · with type })) := sure_update fun _ => .of_lists rfl
  unfold setType
  cases type <;> dsimp only <;> infer_instance

section plain

variable {f : Node → Node}

/-- Changes of what places the element nowhere and refers to nothing. -/
lemma sure_plain (hf : ∀ r : Node, (f r).lists = r.lists) : Sure (update n f) :=
  sure_update fun r => .of_lists (hf r)

instance sure_setName (name : Option String) : Sure (setName n name) := sure_plain fun _ => rfl

instance sure_setVisibility (v : Visibility) : Sure (setVisibility n v) := sure_plain fun _ => rfl

instance sure_setMultiplicity (m : Option String) : Sure (setMultiplicity n m) :=
  sure_plain fun _ => rfl

instance sure_setInitialValue (v : Option String) : Sure (setInitialValue n v) :=
  sure_plain fun _ => rfl

instance sure_setAbstract (b : Bool) : Sure (setAbstract n b) := sure_plain fun _ => rfl

instance sure_setLeaf (b : Bool) : Sure (setLeaf n b) := sure_plain fun _ => rfl

instance sure_setRoot (b : Bool) : Sure (setRoot n b) := sure_plain fun _ => rfl

instance sure_setReadOnly (b : Bool) : Sure (setReadOnly n b) := sure_plain fun _ => rfl

instance sure_setNavigable (b : Bool) : Sure (setNavigable n b) := sure_plain fun _ => rfl

instance sure_addBaseClass (base : String) : Sure (addBaseClass n base) :=
  sure_plain fun r => by split_ifs <;> rfl

end plain

instance sure_addStereotype (st : NodeId) : Sure (addStereotype n st) := by
  let f : Node → Node := fun r =>
    if st ∈ r.stereotypes then r else { r with stereotypes := r.stereotypes ++ [st] }
  have hadd : FailsIn (fun g => g.Stocked ∧ g.IsStereotype st) GraphFault.IsRefusal
      (update n f) := by
    refine 
      .bind (failsIn_query (fun _ h => h.1) fun _ _ => inferInstance) fun _ => failsIn_extend ?_ ?_ ?_ ?_
    · intro r
      dsimp only [f]
      split_ifs <;> rfl
    · rintro g ⟨x, hx, hk⟩
      rw [Graph.IsStereotype, Graph.node?_modify, hx]
      split_ifs
      · refine ⟨f x, rfl, ?_⟩
        dsimp only [f]
        split_ifs <;> exact hk
      · exact ⟨x, rfl, hk⟩
    · intro g _ r s c hc
      refine Or.inl ?_
      dsimp only [f] at hc
      split_ifs at hc
      · exact hc
      · cases s <;> exact hc
    · intro g hg r st' hst
      dsimp only [f] at hst
      split_ifs at hst
      · exact Or.inl hst
      · exact (List.mem_append.mp hst).imp_right fun h => (List.mem_singleton.mp h : st' = st) ▸ hg
  unfold addStereotype
  refine sure_get_bind fun g r hr => ?_
  split_ifs with hk
  · exact .failure_bind trivial _
  · exact (hadd.start g).under (fun h => ⟨h, r, hr, not_not.mp hk⟩) fun _ h => h.1

instance sure_setTaggedValue (tag value : String) : Sure (setTaggedValue n tag value) := by
  have (tv : NodeId) := sure_modifyNode (f := ({ · with value := some value }))
    (fun _ => .of_lists rfl) tv
  unfold setTaggedValue
  exact .found inferInstance inferInstance inferInstance

instance sure_removeTaggedValues (tag : String) : Sure (removeTaggedValues n tag) := by
  unfold removeTaggedValues
  refine sure_get_bind fun g r hr => ?_
  have hquery : FailsIn (fun g => g.Stocked ∧ g.node? n = some r) GraphFault.IsRefusal
      (query (·.followAll (·.name = some tag) r.taggedValues)) :=
    failsIn_query (fun _ h => h.1) fun _ ⟨hg, hr⟩ =>
      Graph.refuses_of_ok fun _ => ⟨_, Graph.followAll_of_live (hg.part hr .taggedValues)⟩
  refine FailsFrom.bind ((hquery.start g).under (⟨·, hr⟩) fun _ h => h.1) fun victims t _ => ?_
  exact FailsIn.start t

instance sure_replaceReferences (old new : NodeId) : Sure (replaceReferences old new) := by
  have : Sure (modify (·.mapNodes fun n r => if n = old then r else r.redirect old new)) :=
    failsIn_modify fun _ _ => .mapNodes fun m r => by
      split_ifs
      exacts [.of_lists rfl, .of_lists rfl]
  unfold replaceReferences
  infer_instance

instance sure_buildGeneralization (child parent : NodeId) :
    Sure (buildGeneralization child parent) := by
  have := sure_modifyNode (f := ({ · with specific := some child, general := some parent }))
    fun _ => .of_lists rfl
  unfold buildGeneralization
  infer_instance

instance sure_buildDependency (client supplier : NodeId) (kind : NodeKind) (name : Option String) :
    Sure (buildDependency client supplier kind name) := by
  have : Sure (throw (.notDependency kind) : GraphM PUnit) := failsIn_throw trivial
  have := sure_modifyNode (f := fun r =>
    { r with clients := r.clients ++ [client], suppliers := r.suppliers ++ [supplier] })
    fun _ => .of_lists rfl
  unfold buildDependency
  infer_instance

instance sure_removeClientDependency (client dep : NodeId) :
    Sure (removeClientDependency client dep) := by
  have : Sure (update dep fun r => { r with clients := r.clients.erase client }) :=
    sure_update fun _ => .of_lists rfl
  unfold removeClientDependency
  infer_instance

instance sure_buildEnd (association type : NodeId) (isNavigable : Bool) :
    Sure (buildEnd association type isNavigable) := by
  have := sure_modifyNode (f := ({ · with association := some association, isNavigable }))
    fun _ => .of_lists rfl
  unfold buildEnd
  infer_instance

instance sure_buildAssociation (target source : NodeId) (b b' : Bool) (name : Option String) :
    Sure (buildAssociation target b source b' name) := by
  unfold buildAssociation
  infer_instance

instance sure_buildResidence (resident container : NodeId) :
    Sure (buildResidence resident container) := by
  have := sure_modifyNode
    (f := ({ · with resident := some resident, container := some container })) fun _ => .of_lists rfl
  unfold buildResidence
  infer_instance

instance sure_buildOperation (name : Option String) : Sure (buildOperation n name) := sure_create ..

instance sure_buildAttribute (type : Option NodeId) (name : Option String) :
    Sure (buildAttribute n type name) := by
  unfold buildAttribute
  infer_instance

instance sure_buildParameter (type : Option NodeId) (name : Option String) (d : Direction) :
    Sure (buildParameter n type name d) := by
  have (p : NodeId) : Sure (update p ({ · with direction := some d })) :=
    sure_update fun _ => .of_lists rfl
  unfold buildParameter
  infer_instance

instance sure_removeParameter (op p : NodeId) : Sure (removeParameter op p) := by
  have : Sure (throw (.notParameterOf p op) : GraphM PUnit) := failsIn_throw trivial
  unfold removeParameter
  infer_instance

instance sure_resolve (registry : StereotypeRegistry) (name : String) (base : Option String) :
    Sure (registry.resolve name base) := by
  unfold StereotypeRegistry.resolve
  refine .bind failsIn_get fun g => ?_
  cases (registry.remembered? name base).filter g.isLive with
  | some st => exact failsIn_pure _
  | none =>
    refine .found inferInstance ?_ inferInstance
    cases base <;> dsimp only <;> infer_instance

end GraphM

end DeclGraph
