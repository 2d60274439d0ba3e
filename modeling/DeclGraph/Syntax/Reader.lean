import DeclGraph.Syntax.Place
import DeclGraph.Syntax.Terminal
import DeclGraph.Syntax.Tree
import DeclGraph.Text.Blank

/-!
The reader of compilation units: a machine that takes one token at a time. Its position says where
in a declaration it stands and holds what was read of it; the classifiers around it are on a
stack. At every position certain terminals are offered. What is offered depends on the position
alone, so a token may be offered and yet not fit the declarations around it.
-/

namespace DeclGraph

/-- A token with its extent. -/
structure Token where
  terminal : Terminal
  text : List Char
  start : Place
  stop : Nat
  deriving DecidableEq, Repr

def Token.string (t : Token) : String := String.ofList t.text

/-- The extent from a place to an offset. -/
def Loc.between (start : Place) (stop : Nat) : Loc :=
  ⟨start.line, start.column, start.offset, stop⟩

/-- What stands before the keyword, the type or the name of a declaration. -/
structure Opening where
  start : Place
  modifiers : List Modifier := []
  deriving DecidableEq, Repr

/-- A declaration whose name was read. -/
structure Draft where
  opening : Opening
  name : String
  deriving DecidableEq, Repr

/-- The head of a declaration that ends at an offset. -/
def Draft.head (d : Draft) (stop : Nat) : Head where
  name := d.name
  modifiers := d.opening.modifiers
  loc := .between d.opening.start stop

/-- An operation whose parameters are being read. -/
structure OperationDraft where
  draft : Draft
  returnType : Option TypeRef
  params : List Param := []
  deriving DecidableEq, Repr

def OperationDraft.decl (d : OperationDraft) (raises : List String) (stop : Nat) :
    OperationDecl where
  head := d.draft.head stop
  returnType := d.returnType
  params := d.params
  raises := raises

/-- A class or an interface whose members are being read. -/
structure OpenClassifier where
  draft : Draft
  heritage : Heritage
  members : List Member := []

inductive ClassifierWord where
  | classWord
  | interfaceWord
  | enumWord
  deriving DecidableEq, Repr

/-- What a list of names is for. -/
inductive ListUse where
  | classInterfaces (d : Draft) (superclass : Option String)
  | interfaceParents (d : Draft)
  | enumInterfaces (d : Draft)
  | raised (op : OperationDraft)
  deriving DecidableEq, Repr

/-- What a type is for: a field, a member of which it is not known yet whether it is a field, or a
parameter. -/
inductive TypeUse where
  | field (o : Opening)
  | member (o : Opening)
  | parameter (op : OperationDraft) (direction : Direction)
  deriving DecidableEq, Repr

inductive Position where
  | fileStart
  | packageWord (start : Place)
  | packageName (start : Place) (name : String)
  /-- After a package or import clause. -/
  | clauseEnd
  | importWord (start : Place)
  | importName (start : Place) (name : String)
  | importWildcard (start : Place) (name : String)
  | modifiers (o : Opening)
  | classifierWord (word : ClassifierWord) (o : Opening)
  | className (d : Draft)
  | interfaceName (d : Draft)
  | enumName (d : Draft)
  | extendsWord (d : Draft)
  | superclass (d : Draft) (name : String)
  /-- Before a name of a list. -/
  | listNext (use : ListUse) (names : List String)
  /-- After a name of a list. -/
  | listName (use : ListUse) (names : List String)
  | enumOpened (d : Draft) (interfaces : List String)
  | literal (d : Draft) (interfaces literals : List String)
  | literalComma (d : Draft) (interfaces literals : List String)
  | bodyOpened
  /-- After the closing brace of a classifier. -/
  | closed (c : Classifier)
  /-- After a semicolon that follows the closing brace of a classifier. -/
  | settled
  /-- After a member that is no classifier. -/
  | memberEnd
  | attributeWord (o : Opening)
  /-- After the first name of a member, which is a type or the name of a constructor. -/
  | memberName (d : Draft)
  /-- Before a type of which nothing was read. -/
  | typeNext (use : TypeUse)
  /-- After a type to which brackets or the mark of a variable number may be added. -/
  | typed (use : TypeUse) (type : TypeRef)
  | typeEnd (use : TypeUse) (type : TypeRef)
  | fieldName (d : Draft) (type : TypeRef)
  | typedName (d : Draft) (type : TypeRef)
  | equalSign (d : Draft) (type : TypeRef)
  | initialValue (d : Draft) (type : TypeRef) (text : String)
  | paramsOpened (op : OperationDraft)
  | paramsNext (op : OperationDraft)
  | param (op : OperationDraft)
  | paramsClosed (op : OperationDraft)
  | raisesWord (op : OperationDraft)
  | raisesClosed (op : OperationDraft) (raises : List String)

namespace Position

open Keyword Mark Terminal

def modifierTerminals : List Terminal := Modifier.all.map (.keyword <| .modifier ·)

/-- The terminals with which a classifier starts. -/
def classifierStart : List Terminal :=
  modifierTerminals ++ [.keyword classKw, .keyword interfaceKw, .keyword enumKw]

/-- The terminals with which a member starts. -/
def memberStart : List Terminal :=
  classifierStart ++ [.keyword attributeKw, .name]

/-- The terminals with which a parameter starts. -/
def paramStart : List Terminal :=
  [.keyword inKw, .keyword outKw, .keyword inoutKw, .name]

/-- The terminals offered at a position. After a closing brace both what may follow it in a file
and what may follow it in a body is offered, after a name of a list what may follow any list. -/
def offers : Position → List Terminal
  | fileStart => classifierStart ++ [.keyword importKw, .keyword packageKw]
  | clauseEnd => classifierStart ++ [.keyword importKw]
  | packageWord _ | importWord _ | classifierWord .. | extendsWord _ | listNext .. =>
    [.name]
  | attributeWord _ | typeNext _ | typeEnd .. => [.name]
  | packageName .. | importWildcard .. | initialValue .. | raisesClosed .. => [.mark semicolon]
  | importName .. => [.mark semicolon, .mark wildcard]
  | modifiers _ => memberStart
  | className _ => [.keyword extendsKw, .keyword implementsKw, .mark lbrace]
  | interfaceName _ => [.keyword extendsKw, .mark colon, .mark lbrace]
  | enumName _ | superclass .. => [.keyword implementsKw, .mark lbrace]
  | listName _ [_] => [.mark comma, .mark lbrace, .mark rpar]
  | listName .. => [.mark comma, .mark lbrace, .mark rbrace, .mark rpar]
  | enumOpened .. | literalComma .. => [.name, .mark rbrace]
  | literal _ _ [_] => [.mark comma, .mark rbrace]
  | literal .. => [.mark comma, .mark lbrace, .mark rbrace, .mark rpar]
  | bodyOpened | settled | memberEnd => memberStart ++ [.mark rbrace]
  | closed _ => memberStart ++ [.mark rbrace, .mark semicolon]
  | memberName _ => [.name, .array, .mark varargs, .mark lpar]
  | typed .. => [.name, .array, .mark varargs]
  | fieldName .. => [.mark equal, .mark semicolon]
  | typedName .. => [.mark equal, .mark semicolon, .mark lpar]
  | equalSign .. => [.initializer]
  | paramsOpened _ => paramStart ++ [.mark rpar]
  | paramsNext _ => paramStart
  | param _ => [.mark comma, .mark rpar]
  | paramsClosed _ => [.keyword raisesKw, .mark semicolon]
  | raisesWord _ => [.mark lpar]

end Position

/-- The reader: what is complete, the classifiers that are open, innermost first, and the
position. -/
structure Reader where
  unit : CompilationUnit := {}
  opened : List OpenClassifier := []
  position : Position := .fileStart

namespace Reader

/-- Moves to another position. -/
def goTo (r : Reader) (position : Position) : Option Reader :=
  some { r with position }

/-- Adds a member to the innermost open classifier. -/
def addMember (r : Reader) (m : Member) : Option Reader :=
  match r.opened with
  | [] => none
  | c :: rest => some { r with opened := { c with members := c.members ++ [m] } :: rest }

/-- Adds a complete classifier to what it is declared in. -/
def addClassifier (r : Reader) (c : Classifier) : Reader :=
  match r.opened with
  | [] => { r with unit := { r.unit with definitions := r.unit.definitions ++ [c] } }
  | o :: rest =>
    { r with opened := { o with members := o.members ++ [.classifier c] } :: rest }

/-- Opens a class or an interface. -/
def openClassifier (r : Reader) (draft : Draft) (heritage : Heritage) : Option Reader :=
  some { r with opened := { draft, heritage } :: r.opened, position := .bodyOpened }

/-- Closes the innermost open classifier with the given token. -/
def closeClassifier (r : Reader) (t : Token) : Option Reader :=
  match r.opened with
  | [] => none
  | c :: rest =>
    let closed := Classifier.typed (c.draft.head t.stop) c.heritage c.members
    some { r with opened := rest, position := .closed closed }

def closeEnumeration (r : Reader) (d : Draft) (interfaces literals : List String) (t : Token) :
    Option Reader :=
  r.goTo (.closed (.enumeration (d.head t.stop) interfaces literals))

/-- Takes a modifier or the word of a classifier. -/
def stepOpening (r : Reader) (o : Opening) (t : Token) : Option Reader :=
  match t.terminal with
  | .keyword (.modifier m) => r.goTo (.modifiers { o with modifiers := o.modifiers ++ [m] })
  | .keyword .classKw => r.goTo (.classifierWord .classWord o)
  | .keyword .interfaceKw => r.goTo (.classifierWord .interfaceWord o)
  | .keyword .enumKw => r.goTo (.classifierWord .enumWord o)
  | _ => none

/-- Takes a token of a member that may have modifiers before it. -/
def stepMember (r : Reader) (o : Opening) (t : Token) : Option Reader :=
  match t.terminal with
  | .keyword .attributeKw => r.goTo (.attributeWord o)
  | .name => r.goTo (.memberName ⟨o, t.string⟩)
  | _ => r.stepOpening o t

/-- Takes the token that follows a complete declaration, in a file or in a body. -/
def stepDeclaration (r : Reader) (t : Token) : Option Reader :=
  match r.opened with
  | [] => r.stepOpening { start := t.start } t
  | _ :: _ =>
    if t.terminal = .mark .rbrace then r.closeClassifier t
    else r.stepMember { start := t.start } t

/-- Takes the token that follows a clause. -/
def stepClause (r : Reader) (t : Token) : Option Reader :=
  if t.terminal = .keyword .importKw then r.goTo (.importWord t.start) else r.stepDeclaration t

def addImport (r : Reader) (start : Place) (name : String) (wildcard : Bool) (t : Token) :
    Option Reader :=
  let clause : ImportClause := ⟨name, wildcard, .between start t.stop⟩
  some { r with
    unit := { r.unit with imports := r.unit.imports ++ [clause] }, position := .clauseEnd }

/-- Adds an attribute that the given token ends. -/
def addAttribute (r : Reader) (d : Draft) (type : TypeRef) (initializer : Option String)
    (t : Token) : Option Reader := do
  (← r.addMember (.attr { head := d.head t.stop, type, initializer })).goTo .memberEnd

/-- Adds an operation that the given token ends. -/
def addOperation (r : Reader) (op : OperationDraft) (raises : List String) (t : Token) :
    Option Reader := do
  (← r.addMember (.operation (op.decl raises t.stop))).goTo .memberEnd

/-- Takes the token after a list of names. -/
def stepListEnd (r : Reader) (use : ListUse) (names : List String) (t : Token) :
    Option Reader :=
  match use, t.terminal with
  | .classInterfaces d superclass, .mark .lbrace =>
    r.openClassifier d (.ofClass superclass names)
  | .interfaceParents d, .mark .lbrace => r.openClassifier d (.ofInterface names)
  | .enumInterfaces d, .mark .lbrace => r.goTo (.enumOpened d names)
  | .raised op, .mark .rpar => r.goTo (.raisesClosed op names)
  | _, _ => none

/-- Takes the name after a complete type. -/
def stepTypedName (r : Reader) (use : TypeUse) (type : TypeRef) (name : String) : Option Reader :=
  match use with
  | .field o => r.goTo (.fieldName ⟨o, name⟩ type)
  | .member o => r.goTo (.typedName ⟨o, name⟩ type)
  | .parameter op direction =>
    r.goTo (.param { op with params := op.params ++ [⟨name, type, direction⟩] })

/-- Takes a token that goes on with a type or names what has it. -/
def stepTyped (r : Reader) (use : TypeUse) (type : TypeRef) (t : Token) : Option Reader :=
  match t.terminal with
  | .array => r.goTo (.typed use { type with dims := type.dims + 1 })
  | .mark .varargs => r.goTo (.typeEnd use { type with varargs := true })
  | .name => r.stepTypedName use type t.string
  | _ => none

/-- Takes the first token of a parameter. -/
def stepParam (r : Reader) (op : OperationDraft) (t : Token) : Option Reader :=
  match t.terminal with
  | .keyword .inKw => r.goTo (.typeNext (.parameter op .input))
  | .keyword .outKw => r.goTo (.typeNext (.parameter op .output))
  | .keyword .inoutKw => r.goTo (.typeNext (.parameter op .inout))
  | .name => r.goTo (.typed (.parameter op .input) { name := t.string })
  | _ => none

/-- Takes a token; there is no next state if it does not fit. -/
def step (r : Reader) (t : Token) : Option Reader :=
  match r.position, t.terminal with
  | .fileStart, .keyword .packageKw => r.goTo (.packageWord t.start)
  | .fileStart, _ => r.stepClause t
  | .packageWord start, .name => r.goTo (.packageName start t.string)
  | .packageName start name, .mark .semicolon =>
    some { r with
      unit := { r.unit with package := some (name, .between start t.stop) }
      position := .clauseEnd }
  | .clauseEnd, _ => r.stepClause t
  | .importWord start, .name => r.goTo (.importName start t.string)
  | .importName start name, .mark .wildcard => r.goTo (.importWildcard start name)
  | .importName start name, .mark .semicolon => r.addImport start name false t
  | .importWildcard start name, .mark .semicolon => r.addImport start name true t
  | .modifiers o, _ => if r.opened.isEmpty then r.stepOpening o t else r.stepMember o t
  | .classifierWord .classWord o, .name => r.goTo (.className ⟨o, t.string⟩)
  | .classifierWord .interfaceWord o, .name => r.goTo (.interfaceName ⟨o, t.string⟩)
  | .classifierWord .enumWord o, .name => r.goTo (.enumName ⟨o, t.string⟩)
  | .className d, .keyword .extendsKw => r.goTo (.extendsWord d)
  | .className d, .keyword .implementsKw => r.goTo (.listNext (.classInterfaces d none) [])
  | .className d, .mark .lbrace => r.openClassifier d (.ofClass none [])
  | .extendsWord d, .name => r.goTo (.superclass d t.string)
  | .superclass d name, .keyword .implementsKw =>
    r.goTo (.listNext (.classInterfaces d (some name)) [])
  | .superclass d name, .mark .lbrace => r.openClassifier d (.ofClass (some name) [])
  | .interfaceName d, .keyword .extendsKw => r.goTo (.listNext (.interfaceParents d) [])
  | .interfaceName d, .mark .colon => r.goTo (.listNext (.interfaceParents d) [])
  | .interfaceName d, .mark .lbrace => r.openClassifier d (.ofInterface [])
  | .enumName d, .keyword .implementsKw => r.goTo (.listNext (.enumInterfaces d) [])
  | .enumName d, .mark .lbrace => r.goTo (.enumOpened d [])
  | .listNext use names, .name => r.goTo (.listName use (names ++ [t.string]))
  | .listName use names, .mark .comma => r.goTo (.listNext use names)
  | .listName use names, _ => r.stepListEnd use names t
  | .enumOpened d interfaces, .name => r.goTo (.literal d interfaces [t.string])
  | .enumOpened d interfaces, .mark .rbrace => r.closeEnumeration d interfaces [] t
  | .literal d interfaces literals, .mark .comma => r.goTo (.literalComma d interfaces literals)
  | .literal d interfaces literals, .mark .rbrace => r.closeEnumeration d interfaces literals t
  | .literalComma d interfaces literals, .name =>
    r.goTo (.literal d interfaces (literals ++ [t.string]))
  | .literalComma d interfaces literals, .mark .rbrace =>
    r.closeEnumeration d interfaces literals t
  | .closed c, .mark .semicolon => (r.addClassifier (c.withStop t.stop)).goTo .settled
  | .closed c, _ => (r.addClassifier c).stepDeclaration t
  | .bodyOpened, _ | .settled, _ | .memberEnd, _ => r.stepDeclaration t
  | .attributeWord o, .name => r.goTo (.typed (.field o) { name := t.string })
  | .memberName d, .mark .lpar => r.goTo (.paramsOpened { draft := d, returnType := none })
  | .memberName d, _ => r.stepTyped (.member d.opening) { name := d.name } t
  | .typeNext use, .name => r.goTo (.typed use { name := t.string })
  | .typed use type, _ => r.stepTyped use type t
  | .typeEnd use type, .name => r.stepTypedName use type t.string
  | .fieldName d type, .mark .semicolon => r.addAttribute d type none t
  | .fieldName d type, .mark .equal => r.goTo (.equalSign d type)
  | .typedName d type, .mark .semicolon => r.addAttribute d type none t
  | .typedName d type, .mark .equal => r.goTo (.equalSign d type)
  | .typedName d type, .mark .lpar =>
    r.goTo (.paramsOpened { draft := d, returnType := some type })
  | .equalSign d type, .initializer =>
    r.goTo (.initialValue d type (String.ofList (Text.trim Text.isBlank t.text)))
  | .initialValue d type text, .mark .semicolon => r.addAttribute d type (some text) t
  | .paramsOpened op, .mark .rpar => r.goTo (.paramsClosed op)
  | .paramsOpened op, _ => r.stepParam op t
  | .paramsNext op, _ => r.stepParam op t
  | .param op, .mark .comma => r.goTo (.paramsNext op)
  | .param op, .mark .rpar => r.goTo (.paramsClosed op)
  | .paramsClosed op, .keyword .raisesKw => r.goTo (.raisesWord op)
  | .paramsClosed op, .mark .semicolon => r.addOperation op [] t
  | .raisesWord op, .mark .lpar => r.goTo (.listNext (.raised op) [])
  | .raisesClosed op raises, .mark .semicolon => r.addOperation op raises t
  | _, _ => none

/-- The unit that was read, if it may end here. -/
def finish (r : Reader) : Option CompilationUnit :=
  if !r.opened.isEmpty then none
  else match r.position with
    | .fileStart | .clauseEnd | .settled => some r.unit
    | .closed c => some (r.addClassifier c).unit
    | _ => none

end Reader

end DeclGraph
