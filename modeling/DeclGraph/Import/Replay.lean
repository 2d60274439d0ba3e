import DeclGraph.Import.Clause
import DeclGraph.Import.Member
import DeclGraph.Syntax.Parse

/-!
The import of a compilation unit: its declarations in source order, each classifier followed by
its members. A unit is imported once a pass.
-/

namespace DeclGraph

/-- The simple name of a declaration, which must not be qualified. -/
def Head.simpleName (h : Head) (file : Option String) : ImportM String := do
  match QualifiedName.split h.name with
  | ("", simple) => return simple
  | _ =>
    let place : Place := ⟨h.loc.start, h.loc.line, h.loc.column⟩
    let span : Span := { file, line := some place.line, column := some place.column }
    throw (.source ⟨.qualifiedDeclaration h.name, span⟩)

/-- The set of modifiers that a declaration has. -/
def Head.modifierSet (h : Head) : ModifierSet := .declared h.modifiers

def Param.declaration (p : Param) : ParameterDeclaration :=
  ⟨p.type.spelling, p.name, p.direction⟩

namespace ImportM

def importAttribute (u : UnitContext) (file : Option String) (a : AttributeDecl) :
    ImportM Unit := do
  let name ← a.head.simpleName file
  let _ ← addAttribute u a.head.modifierSet (some a.type.spelling) name a.initializer a.head.doc

def importOperation (u : UnitContext) (file : Option String) (o : OperationDecl) :
    ImportM Unit := do
  let name ← o.head.simpleName file
  let returnType := o.returnType.map (·.spelling)
  let params := o.params.map (·.declaration)
  let _ ← addOperation u o.head.modifierSet returnType name params o.head.doc

/-- The declaration of a class or an interface up to its body. -/
def importHead (u : UnitContext) (file : Option String) (h : Head) :
    Heritage → ImportM Unit
  | .ofClass superclass interfaces => do
    let name ← h.simpleName file
    let _ ← addClass u name h.modifierSet superclass interfaces h.doc
  | .ofInterface parents => do
    let name ← h.simpleName file
    let _ ← addInterface u name h.modifierSet parents h.doc

mutual

def importClassifier (u : UnitContext) (file : Option String) : Classifier → ImportM Unit
  | .typed head heritage members => do
    importHead u file head heritage
    importMembers u file members
    let _ ← popClassifier u
  | .enumeration head interfaces literals => do
    let name ← head.simpleName file
    let _ ← addEnumeration u name head.modifierSet interfaces head.doc
    literals.forM fun literal => do
      let _ ← addEnumerationLiteral u literal
    let _ ← popClassifier u

def importMember (u : UnitContext) (file : Option String) : Member → ImportM Unit
  | .attr a => importAttribute u file a
  | .operation o => importOperation u file o
  | .classifier c => importClassifier u file c

def importMembers (u : UnitContext) (file : Option String) : List Member → ImportM Unit
  | [] => return
  | m :: rest => do
    importMember u file m
    importMembers u file rest

end

/-- All of a unit. -/
def importUnit (u : UnitContext) (unit : CompilationUnit) : ImportM Unit := do
  let _ ← addComponent u
  if let some (name, _) := unit.package then
    let _ ← enterPackage u name
  unit.imports.forM fun clause => do
    let _ ← addImport u clause.target
  unit.definitions.forM (importClassifier u unit.file)
  finish u

end ImportM

/-- Changes of what the units of a run share. -/
abbrev StoreM := EStateM ImportError Store

namespace StoreM

/-- Runs one pass over a unit. -/
def runPass (name : String) (settings : Settings) (unit : CompilationUnit) (pass : Pass) :
    StoreM Unit := fun store =>
  let u : UnitContext := { name, pass, settings }
  match ImportM.importUnit u unit (.start u store) with
  | .ok a s => .ok a s.toStore
  | .error e s => .error e s.toStore

/-- Imports a source text, pass by pass. -/
def importSource (source name : String) (settings : Settings) (passes : List Pass) :
    StoreM Unit := do
  match parseSource source (some name) with
  | .error e => throw (.source e)
  | .ok unit => passes.forM (runPass name settings unit)

end StoreM

end DeclGraph
