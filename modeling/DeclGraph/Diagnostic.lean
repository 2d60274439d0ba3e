/-!
Diagnostics: problems that do not stop an import.
-/

namespace DeclGraph

structure Diagnostic where
  message : String
  code : Option String := none
  unit : Option String := none
  severity : String := "warning"
  deriving DecidableEq, Repr, Inhabited

/-- The diagnostic on one line: unit, severity, code, message. An empty unit or code is left
out. -/
def Diagnostic.format (d : Diagnostic) : String :=
  let unit := match d.unit with
    | none | some "" => ""
    | some unit => unit ++ ": "
  let code := match d.code with
    | none | some "" => ""
    | some code => "[" ++ code ++ "] "
  unit ++ d.severity ++ ": " ++ code ++ d.message

end DeclGraph
