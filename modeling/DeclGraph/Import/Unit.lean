import DeclGraph.Import.Event
import DeclGraph.Import.Scope
import DeclGraph.Import.Session
import DeclGraph.Import.Settings

/-!
One compilation unit in the course of one pass: what is fixed for it, the state that its
declarations change, and the monad they run in. A failure keeps what was done before it.
-/

namespace DeclGraph

/-- What the units of a run share. -/
structure Store where
  graph : Graph
  session : Session := {}
  /-- The events so far, the latest first. -/
  log : List Event := []

/-- What is fixed while a unit is imported. -/
structure UnitContext where
  name : String
  pass : Pass
  settings : Settings := {}

/-- The state of a unit that is being imported. -/
structure UnitState extends Store where
  scopes : ScopeStack
  registry : StereotypeRegistry
  /-- The component that stands for the unit. -/
  component : Option NodeId := none

abbrev ImportM := EStateM ImportError UnitState

namespace UnitState

/-- A unit at its start: in the model root, with a registry of its own. -/
def start (u : UnitContext) (store : Store) : UnitState where
  graph := store.graph
  session := store.session.beginPass u.pass
  log := store.log
  scopes := { package := Graph.root }
  registry := { allowSynthesis := u.settings.synthesizeStereotypes }

end UnitState

namespace ImportM

/-- Changes the graph. -/
def change {α : Type} (m : GraphM α) : ImportM α := fun s =>
  match m s.graph with
  | .ok a g => .ok a { s with graph := g }
  | .error e g => .error (.graph e) { s with graph := g }

/-- Reads from the graph. -/
def query {α : Type} (f : Graph → Except GraphFault α) : ImportM α := fun s =>
  match f s.graph with
  | .ok a => .ok a s
  | .error e => .error (.graph e) s

/-- Turns the refusal of a scope operation into a failure. -/
def placed {α : Type} : Except Misplacement α → ImportM α
  | .ok a => pure a
  | .error m => throw (.misplaced m)

def emit (e : Event) : ImportM Unit :=
  modify fun s => { s with log := e :: s.log }

def register (n : NodeId) : ImportM Unit :=
  modify fun s => { s with session := s.session.register n }

def discard (n : NodeId) : ImportM Unit :=
  modify fun s => { s with session := s.session.discard n }

def modifyScopes (f : ScopeStack → ScopeStack) : ImportM Unit :=
  modify fun s => { s with scopes := f s.scopes }

/-- Records a warning about the unit. -/
def warn (u : UnitContext) (code message : String) : ImportM Unit := do
  let d : Diagnostic := { message, code := some code, unit := some u.name }
  modify fun s => { s with session := s.session.warn d }
  emit (.warned d)

/-- The stereotype of a name for a base class; one that had to be made counts as new. -/
def stereotype (name : String) (baseClass : Option String) : ImportM NodeId := do
  let s ← get
  let (result, registry) ← change (s.registry.resolve name baseClass)
  modify ({ · with registry })
  match result with
  | .ok n =>
    if n ∈ registry.synthesized then register n
    return n
  | .error m => throw (.missingStereotype m)

end ImportM

end DeclGraph
