import DeclGraph.Syntax.Terminal
import DeclGraph.Syntax.Tree

/-!
The written form of compilation units: their tokens in order, with one blank between two of them.
Places and documentation comments are not written.
-/

namespace DeclGraph

/-- A token as it is written, wherever that is. -/
structure Word where
  terminal : Terminal
  text : String
  deriving DecidableEq, Repr

namespace Word

def name (text : String) : Word := ⟨.name, text⟩
def keyword (k : Keyword) : Word := ⟨.keyword k, k.text⟩
def mark (m : Mark) : Word := ⟨.mark m, m.text⟩
def brackets : Word := ⟨.array, "[]"⟩
def initializer (text : String) : Word := ⟨.initializer, text⟩

/-- Items with commas between them. -/
def commas (items : List (List Word)) : List Word :=
  List.intercalate [mark .comma] items

/-- Names with commas between them. -/
def names (ns : List String) : List Word :=
  commas (ns.map fun n => [name n])

/-- A keyword with the names it introduces; nothing if there are none. -/
def clause (k : Keyword) (ns : List String) : List Word :=
  if ns.isEmpty then [] else keyword k :: names ns

end Word

def TypeRef.words (t : TypeRef) : List Word :=
  .name t.name :: List.replicate t.dims .brackets ++ if t.varargs then [.mark .varargs] else []

/-- The keyword of the way a parameter passes values. What is returned is no parameter of the
notation. -/
def Direction.words : Direction → List Word
  | .input => [.keyword .inKw]
  | .output => [.keyword .outKw]
  | .inout => [.keyword .inoutKw]
  | .result => []

def Param.words (p : Param) : List Word :=
  p.direction.words ++ p.type.words ++ [.name p.name]

/-- The modifiers of a declaration. -/
def Head.modifierWords (h : Head) : List Word :=
  h.modifiers.map fun m => .keyword (.modifier m)

def AttributeDecl.words (a : AttributeDecl) : List Word :=
  a.head.modifierWords ++ a.type.words ++ [.name a.head.name]
    ++ (match a.initializer with
      | none => []
      | some text => [.mark .equal, .initializer text])
    ++ [.mark .semicolon]

/-- The exceptions that an operation may raise. -/
def OperationDecl.raisesWords (o : OperationDecl) : List Word :=
  if o.raises.isEmpty then []
  else .keyword .raisesKw :: .mark .lpar :: Word.names o.raises ++ [.mark .rpar]

def OperationDecl.words (o : OperationDecl) : List Word :=
  o.head.modifierWords ++ (o.returnType.map TypeRef.words).getD []
    ++ .name o.head.name :: .mark .lpar :: Word.commas (o.params.map Param.words)
    ++ .mark .rpar :: o.raisesWords ++ [.mark .semicolon]

/-- The keyword of a class or an interface. -/
def Heritage.keyword : Heritage → Keyword
  | ofClass .. => .classKw
  | ofInterface _ => .interfaceKw

def Heritage.words : Heritage → List Word
  | ofClass superclass interfaces =>
    Word.clause .extendsKw superclass.toList ++ Word.clause .implementsKw interfaces
  | ofInterface parents => Word.clause .extendsKw parents

mutual

def Classifier.words : Classifier → List Word
  | .typed h heritage members =>
    h.modifierWords ++ .keyword heritage.keyword :: .name h.name :: heritage.words
      ++ .mark .lbrace :: Member.wordsOf members ++ [.mark .rbrace]
  | .enumeration h interfaces literals =>
    h.modifierWords ++ .keyword .enumKw :: .name h.name :: Word.clause .implementsKw interfaces
      ++ .mark .lbrace :: Word.names literals ++ [.mark .rbrace]

def Member.words : Member → List Word
  | .attr a => a.words
  | .operation o => o.words
  | .classifier c => c.words

def Member.wordsOf : List Member → List Word
  | [] => []
  | m :: rest => m.words ++ Member.wordsOf rest

end

def ImportClause.words (i : ImportClause) : List Word :=
  .keyword .importKw :: .name i.name :: (if i.wildcard then [.mark .wildcard] else [])
    ++ [.mark .semicolon]

namespace CompilationUnit

/-- The tokens of a unit, in order. -/
def words (u : CompilationUnit) : List Word :=
  (match u.package with
    | none => []
    | some (name, _) => [.keyword .packageKw, .name name, .mark .semicolon])
    ++ u.imports.flatMap ImportClause.words ++ u.definitions.flatMap Classifier.words

/-- The written form of a unit. -/
def render (u : CompilationUnit) : String :=
  " ".intercalate (u.words.map (·.text))

end CompilationUnit

end DeclGraph
