/-!
Profiles: the data types and stereotypes that a model starts with.
-/

namespace DeclGraph

/-- A stereotype with the metaclasses it extends. -/
structure StereotypeDef where
  name : String
  baseClasses : List String := []
  deriving DecidableEq, Repr

structure Profile where
  name : String
  datatypes : List String := []
  stereotypes : List StereotypeDef := []
  deriving DecidableEq, Repr

namespace Profile

def stereotype? (p : Profile) (name : String) : Option StereotypeDef :=
  p.stereotypes.find? (·.name = name)

/-- The stereotype of constructors. -/
def createStereotype : String := "create"

/-- The stereotype of the edge from a classifier to an interface it implements. -/
def realizeStereotype : String := "realize"

/-- The stereotype of the classes that stand for enumerations. -/
def enumerationStereotype : String := "enumeration"

/-- The stereotype of the dependencies that stand for import clauses. -/
def importStereotype : String := "idlImport"

/-- The profile of the declaration language. -/
def idl : Profile where
  name := "IDL"
  datatypes := ["any", "boolean", "char", "double", "fixed", "float", "int", "long", "octet",
    "short", "string", "void", "wchar", "wstring"]
  stereotypes := [
    { name := createStereotype, baseClasses := ["BehavioralFeature"] },
    { name := realizeStereotype, baseClasses := ["Abstraction"] },
    { name := enumerationStereotype, baseClasses := ["Class"] }]

end Profile

end DeclGraph
