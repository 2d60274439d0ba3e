import DeclGraph.Import.Replay
import DeclGraph.Proofs.Import.Eviction

/-! Visits to classifier declarations: the members of a classifier are those that its declaration
has, and what declares it sees one member declared. -/

namespace DeclGraph

open DeclGraph.Graph

/-- The last part of a name, which is all of it in declarations that are accepted. -/
def Head.simple (h : Head) : String := (QualifiedName.split h.name).2

namespace Classifier

/-- What the declaration asks for. -/
def kind : Classifier → ClassifierKind
  | typed _ (.ofClass ..) _ => .classType
  | typed _ (.ofInterface _) _ => .interfaceType
  | enumeration .. => .enumeration

def superclass : Classifier → Option String
  | typed _ (.ofClass superclass _) _ => superclass
  | _ => none

/-- The interfaces that are implemented, or those that an interface extends. -/
def interfaces : Classifier → List String
  | typed _ (.ofClass _ interfaces) _ => interfaces
  | typed _ (.ofInterface parents) _ => parents
  | enumeration _ interfaces _ => interfaces

def members : Classifier → List Member
  | typed _ _ members => members
  | enumeration .. => []

def literals : Classifier → List String
  | typed .. => []
  | enumeration _ _ literals => literals

end Classifier

namespace Member

def operationName? : Member → Option String
  | operation o => some o.head.simple
  | _ => none

def innerName? : Member → Option String
  | classifier c => some c.head.simple
  | _ => none

end Member

namespace ImportM

/-- The field that becomes an attribute when a member is imported in a state. -/
def attributeName? (u : UnitContext) (s : UnitState) : Member → Option String
  | .attr a => if becomesAttribute u (some a.type.spelling) s then some a.head.simple else none
  | _ => none

/-- What a member declares when it is imported in a state. -/
def memberKeys (u : UnitContext) (s : UnitState) (m : Member) : List (MemberRole × String) :=
  (if u.pass.buildsReferences then
      (m.operationName?.map (.operation, ·)).toList ++ ((attributeName? u s m).map (.attr, ·)).toList
    else []) ++ (m.innerName?.map (.inner, ·)).toList

/-- What members declare when they are imported one after the other. -/
def keysAlong (u : UnitContext) (file : Option String) :
    List Member → UnitState → List (MemberRole × String)
  | [], _ => []
  | m :: rest, s => memberKeys u s m ++
      keysAlong u file rest (finalState (importMember u file m s))

/-- The fields that become attributes when members are imported one after the other. -/
def attributesAlong (u : UnitContext) (file : Option String) : List Member → UnitState → List String
  | [], _ => []
  | m :: rest, s => (attributeName? u s m).toList ++
      attributesAlong u file rest (finalState (importMember u file m s))

/-- The first part of the import of a classifier, which opens its scope. -/
def enterClassifier (u : UnitContext) (file : Option String) (c : Classifier) :
    ImportM NodeId := do
  let name ← c.head.simpleName file
  let n ← addClassifier u c.kind name c.head.modifierSet c.head.doc
  addInheritance u n c.kind c.superclass c.interfaces
  return n

/-- The second part, which declares its members. -/
def importBody (u : UnitContext) (file : Option String) (c : Classifier) : ImportM Unit :=
  match c with
  | .typed _ _ members => importMembers u file members
  | .enumeration _ _ literals => literals.forM fun literal => do
    let _ ← addEnumerationLiteral u literal

lemma importClassifier_eq (u : UnitContext) (file : Option String) (c : Classifier) :
    importClassifier u file c = (do
      let _ ← enterClassifier u file c
      importBody u file c
      let _ ← popClassifier u : ImportM Unit) := by
  cases c with
  | typed head heritage members =>
    cases heritage <;>
      simp [importClassifier, enterClassifier, importHead, importBody, addClass, addInterface,
        Classifier.kind, Classifier.superclass, Classifier.interfaces, Classifier.head]
  | enumeration head interfaces literals =>
    simp [importClassifier, enterClassifier, importBody, addEnumeration, Classifier.kind,
      Classifier.superclass, Classifier.interfaces, Classifier.head]

end ImportM

namespace UnitState

variable {s t t' : UnitState} {n m : NodeId} {name : String} {scope : Scope} {rest : List Scope}

/-- A classifier has been declared, and its scope is closed again. -/
structure Settled (name : String) (n : NodeId) (s t : UnitState) : Prop where
  component : t.component = s.component
  scopes : t.scopes = s.scopes.touch n
  declared : ∀ {scope rest}, s.scopes.opened = scope :: rest →
    s.graph.Declares scope.frame.home .inner name n t.graph ∧
      ∀ scope' ∈ rest, s.graph.Spares scope'.frame.home t.graph

lemma Settled.visit (h : Settled name n s t) (ho : s.scopes.opened = scope :: rest) :
    Visit scope rest [(.inner, name)] (n :: scope.touched) s t := by
  obtain ⟨hd, hout⟩ := h.declared ho
  exact visit_declares hd hout ho h.scopes h.component

lemma Settled.nested {P : Permit} (h : Settled name n s t) (hs : s.Nested)
    (hst : Steps P s.graph t.graph) : t.Nested := by
  cases ho : s.scopes.opened with
  | cons scope rest => exact (h.visit ho).nested hs ho hst
  | nil =>
    obtain ⟨k, hk, hp⟩ := hs.package
    refine ⟨⟨hs.graph.steps hst, ⟨k, ?_, hp⟩, fun c hc => ?_⟩, ?_, ?_⟩
    · rw [h.scopes, ScopeStack.package_touch]
      exact hs.graph.package_steps hst hk hp
    · rw [h.component] at hc
      exact (hs.component c hc).steps hst
    · simp [h.scopes, ScopeStack.touch, ho, Graph.Nested]
    · simp [h.scopes, ScopeStack.touch, ho]

end UnitState

namespace ImportM

variable {s t : UnitState} {u : UnitContext} {file : Option String} {n : NodeId} {scope : Scope}
  {rest : List Scope}

lemma simpleName_cases (file : Option String) (h : Head) :
    h.simpleName file = pure h.simple ∨ ∃ e, h.simpleName file = throw e := by
  rcases hsplit : QualifiedName.split h.name with ⟨q, simple⟩
  unfold Head.simpleName Head.simple
  rw [hsplit]
  split
  · rename_i heq
    obtain ⟨-, rfl⟩ := Prod.mk.inj heq
    exact Or.inl rfl
  · exact Or.inr ⟨_, rfl⟩

lemma performs_simpleName {P : Permit} (h : Head) :
    Performs P s (h.simpleName file s) fun name t => t = s ∧ name = h.simple := by
  rcases simpleName_cases file h with hrun | ⟨e, hrun⟩ <;> rw [hrun]
  exacts [Performs.answer ⟨rfl, rfl⟩, Performs.failure]

lemma performs_enterClassifier (h : s.Nested) (c : Classifier) :
    Performs (.free u) s (enterClassifier u file c s) fun n t => ∃ (t₀ : UnitState) (frame : ScopeFrame),
      addClassifier u c.kind c.head.simple c.head.modifierSet c.head.doc s = .ok n t₀ ∧
      addInheritance u n c.kind c.superclass c.interfaces t₀ = .ok () t ∧
      UnitState.Opened c.kind.nodeKind c.head.simple n frame s t₀ ∧ t₀.Leads t := by
  have hkind : c.kind.nodeKind.isClassifier = true := by cases c.kind <;> rfl
  unfold enterClassifier
  refine Performs.bind (performs_simpleName c.head) ?_
  rintro _ _ _ ⟨rfl, rfl⟩
  refine Performs.bind ((performs_addClassifier h c.kind c.head.simple c.head.modifierSet
    c.head.doc).weaken Permit.clear_le_free).recorded ?_
  rintro n t₀ hs₀ ⟨⟨frame, hopened⟩, hrun₀⟩
  obtain ⟨r, hr, hk, _⟩ := hopened.upserted.node
  have hn : t₀.graph.Once n (·.isClassifier = true) := by
    refine once (kind?_eq hr) ?_
    rw [hk, hkind]
  have hinherit : Performs (.aroundClassifiers u) t₀
      (addInheritance u n c.kind c.superclass c.interfaces t₀) fun _ t => t₀.SameUnit t :=
    (performs_addInheritance hopened.nested.toSound hn c.kind c.superclass c.interfaces).weaken
      (Permit.within_mono (by decide) (by decide))
  refine Performs.bind (Performs.leads hopened.nested.toSound hinherit
    Permit.within_le_free).recorded ?_
  rintro _ t _ ⟨hl, hrun⟩
  exact Performs.answer ⟨t₀, frame, hrun₀, hrun, hopened, hl⟩

lemma performs_importAttribute (h : s.Nested) (ho : s.scopes.opened = scope :: rest)
    (a : AttributeDecl) : Performs (.ofMembers u) s (importAttribute u file a s) fun _ t =>
      ∃ touched, UnitState.Visit scope rest (memberKeys u s (.attr a)) touched s t := by
  unfold importAttribute
  refine Performs.bind (performs_simpleName a.head) ?_
  rintro _ _ _ ⟨rfl, rfl⟩
  refine Performs.bind (performs_addAttribute h ho _ _ _ _ _) ?_
  rintro _ t _ ⟨touched, hv⟩
  refine Performs.answer ⟨touched, ?_⟩
  convert hv using 1
  cases hb : u.pass.buildsReferences <;>
    cases ha : becomesAttribute u (some a.type.spelling) _ <;>
    simp [memberKeys, Member.operationName?, Member.innerName?, attributeName?, hb, ha]

lemma performs_importOperation (h : s.Nested) (ho : s.scopes.opened = scope :: rest)
    (o : OperationDecl) : Performs (.ofMembers u) s (importOperation u file o s) fun _ t =>
      ∃ touched, UnitState.Visit scope rest (memberKeys u s (.operation o)) touched s t := by
  unfold importOperation
  refine Performs.bind (performs_simpleName o.head) ?_
  rintro _ _ _ ⟨rfl, rfl⟩
  refine Performs.bind (performs_addOperation h ho _ _ _ _ _) ?_
  rintro _ t _ ⟨touched, hv⟩
  refine Performs.answer ⟨touched, ?_⟩
  convert hv using 1
  simp [memberKeys, Member.operationName?, Member.innerName?, attributeName?]

lemma performs_importMember {m : Member} (h : s.Nested) (ho : s.scopes.opened = scope :: rest)
    (hinner : ∀ c, m = .classifier c → Performs (.free u) s (importClassifier u file c s) fun _ t =>
      ∃ n, UnitState.Settled c.head.simple n s t) :
    Performs (.free u) s (importMember u file m s) fun _ t =>
      ∃ touched, UnitState.Visit scope rest (memberKeys u s m) touched s t := by
  cases m with
  | attr a =>
    rw [importMember]
    exact (performs_importAttribute h ho a).weaken Permit.ofMembers_le_free
  | operation o =>
    rw [importMember]
    exact (performs_importOperation h ho o).weaken Permit.ofMembers_le_free
  | classifier c =>
    rw [importMember]
    refine (hinner c rfl).imp ?_
    rintro _ t ⟨n, hn⟩
    refine ⟨n :: scope.touched, ?_⟩
    have hkeys : memberKeys u s (.classifier c) = [(.inner, c.head.simple)] := by
      simp [memberKeys, Member.operationName?, Member.innerName?, attributeName?]
    rw [hkeys]
    exact hn.visit ho

end ImportM

end DeclGraph
