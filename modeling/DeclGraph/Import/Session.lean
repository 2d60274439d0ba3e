import DeclGraph.Diagnostic
import DeclGraph.Import.Settings

/-!
The session of an import run: the elements it made, in order and each once, and the diagnostics.
-/

namespace DeclGraph

structure Session where
  /-- The pass under way. -/
  pass : Pass := .skeleton
  created : List NodeId := []
  diagnostics : List Diagnostic := []
  deriving DecidableEq, Repr

namespace Session

def beginPass (s : Session) (pass : Pass) : Session := { s with pass }

/-- Notes a new element; noting it again changes nothing. -/
def register (s : Session) (n : NodeId) : Session :=
  if n ∈ s.created then s else { s with created := s.created ++ [n] }

/-- Drops an element that is gone again. -/
def discard (s : Session) (n : NodeId) : Session :=
  { s with created := s.created.filter (· ≠ n) }

def warn (s : Session) (d : Diagnostic) : Session :=
  { s with diagnostics := s.diagnostics ++ [d] }

def warnings (s : Session) : List Diagnostic :=
  s.diagnostics.filter (·.severity = "warning")

end Session

end DeclGraph
