import DeclGraph.Import.Classifier

/-!
Members of classifiers: operations with their parameters, fields and enumeration literals. They
are built in the second pass. A field whose type is a class or an interface becomes an association
from the classifier to that type, any other field an attribute.
-/

namespace DeclGraph

/-- A parameter as declared. -/
structure ParameterDeclaration where
  type : String
  name : String
  direction : Direction := .input
  deriving DecidableEq, Repr

namespace Graph

/-- Whether an operation is a constructor: it declares no return type, or no value under the name
of its classifier. -/
def isConstructor (g : Graph) (classifier : NodeId) (returnType : Option String)
    (name : Option String) : Except GraphFault Bool :=
  match returnType with
  | none => .ok true
  | some type =>
    if type = "void" then (fun n => name = n) <$> g.nameOf classifier else .ok false

/-- Whether an association end stands for the field of a name in a classifier: it has that name
and the other one of two ends is typed by the classifier. -/
def standsForField (g : Graph) (classifier : NodeId) (name : String) (n : NodeId) :
    Except GraphFault Bool := do
  match (← g.associationOf n, ← g.nameOf n) with
  | (some association, some endName) =>
    if endName ≠ name then return false
    if (← g.connectionsOf association).length ≠ 2 then return false
    match ← g.nextEnd? n with
    | none => return false
    | some other => return (← g.typeOf other) = some classifier
  | _ => return false

/-- The last end typed by `target` that stands for a field. -/
def fieldEnd? (g : Graph) (classifier target : NodeId) (name : String) :
    Except GraphFault (Option NodeId) := do
  return (← (← g.associationEnds target).filterM (g.standsForField classifier name)).getLast?

end Graph

/-- The mark of a parameter that takes any number of values. -/
def varargsMark : List Char := ['.', '.', '.']

/-- The type of a parameter without the mark, if it ends with it. -/
def withoutVarargs? (type : String) : Option String :=
  let s := type.toList
  if varargsMark.isSuffixOf s then
    some (String.ofList (s.take (s.length - varargsMark.length)))
  else none

def single : String := "1..1"
def many : String := "1..*"

/-- The element type and the multiplicity of a field; array types are for many elements. -/
def elementType (arraysAsDatatype : Bool) (type : String) : String × String :=
  if arraysAsDatatype || !type.toList.contains '[' then (type, single)
  else (Text.strip (String.ofList (type.toList.takeWhile (· ≠ '['))), many)

/-- An initial value on one line. -/
def onOneLine (s : String) : String :=
  s.map fun c => if c = '\n' ∨ c = '\t' then ' ' else c

namespace ImportM

/-- The innermost open classifier. -/
def requireClassifier (fault : Misplacement) : ImportM NodeId := do
  match (← get).scopes.classifier with
  | some n => return n
  | none => throw (.misplaced fault)

/-- Builds the result of an operation: constructors are marked, others get a parameter for what
they return if its type means something. -/
def addResult (u : UnitContext) (classifier op : NodeId) (returnType : Option String)
    (name : String) : ImportM Unit := do
  if ← query (·.isConstructor classifier returnType (some name)) then
    let st ← stereotype Profile.createStereotype (some "BehavioralFeature")
    change (.addStereotype op st)
  else
    match returnType with
    | none => throw .inconsistent
    | some type =>
      if let some n ← resolve u type .any "operation return type" then
        let _ ← change (.buildParameter op (some n) (some "return") .result)

/-- Builds a parameter; its type may mean nothing. -/
def addParameter (u : UnitContext) (op : NodeId) (p : ParameterDeclaration) : ImportM Unit := do
  let type ← match withoutVarargs? p.type with
    | none => pure p.type
    | some type =>
      warn u "unsupported" ("unsupported variable length parameter list notation: " ++ p.name)
      pure type
  let n ← resolve u type .any "operation params"
  let _ ← change (.buildParameter op n (some p.name) p.direction)

/-- The operation of a name in a classifier. -/
def upsertOperation (classifier : NodeId) (name : String) : ImportM NodeId := do
  match ← query (·.feature? classifier name .operation) with
  | some op =>
    emit (.operationFound name)
    return op
  | none =>
    emit (.operationCreated name)
    let op ← change (.buildOperation classifier (some name))
    register op
    return op

/-- An operation or constructor declaration. Operations are told apart by their names alone; the
parameters are those of the last declaration. -/
def addOperation (u : UnitContext) (modifiers : ModifierSet) (returnType : Option String)
    (name : String) (parameters : List ParameterDeclaration) (doc : Option String) :
    ImportM (Option NodeId) := do
  let classifier ← requireClassifier (.operationOutside name)
  if !u.pass.buildsReferences then return none
  let op ← upsertOperation classifier name
  modifyScopes (·.touch op)
  change (.setRoot op false)
  change (.setVisibility op modifiers.visibility)
  change (.setAbstract op modifiers.isAbstract)
  (← query (·.parametersOf op)).forM fun p => change (.removeParameter op p)
  addResult u classifier op returnType name
  parameters.forM (addParameter u op)
  let _ ← change (.addDocumentation op doc)
  return some op

/-- The attribute that a field becomes. -/
def upsertAttribute (classifier : NodeId) (type : Option NodeId) (name : String) :
    ImportM NodeId := do
  match ← query (·.feature? classifier name .attr) with
  | some n => return n
  | none =>
    let n ← change (.buildAttribute classifier type (some name))
    register n
    emit (.attributeCreated name)
    return n

/-- The association end that a field becomes. -/
def upsertFieldEnd (u : UnitContext) (classifier target : NodeId) (name : String) :
    ImportM NodeId := do
  match ← query (·.fieldEnd? classifier target name) with
  | some n => return n
  | none =>
    let edge ← edgeName u classifier target
    let association ← change (.buildAssociation target true classifier false edge)
    register association
    emit (.associationCreated (edge.getD ""))
    match ← query (·.associationEnd? target association) with
    | some n => return n
    | none => throw .inconsistent

/-- The type with which a field is associated, unless the field is to be an attribute. -/
def associatedType? (u : UnitContext) (type : Option NodeId) : ImportM (Option NodeId) := do
  match type.filter fun _ => u.settings.generateAssociations with
  | none => return none
  | some n => return if (← query (·.kindOf n)) = .dataType then none else some n

/-- A field of a type that was resolved, or of none, as an attribute. -/
def addPlainField (modifiers : ModifierSet) (classifier : NodeId) (type : Option NodeId)
    (multiplicity name : String) (initializer doc : Option String) : ImportM NodeId := do
  let n ← upsertAttribute classifier type name
  modifyScopes (·.touch n)
  change (.setVisibility n modifiers.visibility)
  change (.setMultiplicity n (some multiplicity))
  change (.setType n type)
  change (.setReadOnly n modifiers.isReadOnly)
  if let some text := initializer then
    change (.setInitialValue n (some (onOneLine text)))
  let _ ← change (.addDocumentation n doc)
  return n

/-- A field as the navigable end of an association to its type. -/
def addAssociatedField (u : UnitContext) (modifiers : ModifierSet) (classifier type : NodeId)
    (multiplicity name : String) (doc : Option String) : ImportM NodeId := do
  let n ← upsertFieldEnd u classifier type name
  change (.setVisibility n modifiers.visibility)
  change (.setMultiplicity n (some multiplicity))
  change (.setType n (some type))
  change (.setName n (some name))
  if type ≠ classifier then change (.setNavigable n true)
  let _ ← change (.addDocumentation n doc)
  return n

/-- A field declaration; literals of enumerations have no type. -/
def addAttribute (u : UnitContext) (modifiers : ModifierSet) (type : Option String)
    (name : String) (initializer doc : Option String) : ImportM (Option NodeId) := do
  let classifier ← requireClassifier (.attributeOutside name)
  if !u.pass.buildsReferences then return none
  let (target, multiplicity) ← match type with
    | none => pure (none, single)
    | some type =>
      let (element, multiplicity) := elementType u.settings.arraysAsDatatype type
      pure (← resolve u element .any "an attribute", multiplicity)
  match ← associatedType? u target with
  | none => some <$> addPlainField modifiers classifier target multiplicity name initializer doc
  | some n => some <$> addAssociatedField u modifiers classifier n multiplicity name doc

/-- Whether literals may be declared in an element: it is a class marked as an enumeration. -/
def isEnumeration (n : NodeId) : ImportM Bool := do
  if (← query (·.kindOf n)) ≠ .classType then return false
  query (·.hasStereotype n Profile.enumerationStereotype)

/-- A literal of an enumeration: a public attribute without type. -/
def addEnumerationLiteral (u : UnitContext) (name : String) : ImportM (Option NodeId) := do
  let fault : Misplacement := .literalOutside name
  let enumeration ← requireClassifier fault
  if !(← isEnumeration enumeration) then throw (.misplaced fault)
  addAttribute u { isPublic := true } none name none none

end ImportM

end DeclGraph
