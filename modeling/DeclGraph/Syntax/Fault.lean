import DeclGraph.Span
import DeclGraph.Text.Quoted

/-!
Faults of source texts.
-/

namespace DeclGraph

/-- What is wrong with a source text. -/
inductive SourceFault where
  /-- A token that cannot stand there: the name of its terminal and its text. -/
  | unexpectedToken (terminal text : String)
  | unexpectedChar (c : Char)
  | unexpectedEnd
  | qualifiedDeclaration (name : String)
  deriving DecidableEq, Repr

def SourceFault.message : SourceFault → String
  | unexpectedToken terminal text => "unexpected " ++ terminal ++ " " ++ Text.quoted text
  | unexpectedChar c => "unexpected character " ++ Text.quoted (String.singleton c)
  | unexpectedEnd => "unexpected end of input"
  | qualifiedDeclaration name => "declared name " ++ name ++ " must not be qualified"

/-- A fault in a source text and where it is. -/
structure SourceError where
  fault : SourceFault
  span : Span
  deriving DecidableEq, Repr

end DeclGraph
