import DeclGraph.Modifier

/-!
The terminals of the notation: names, array brackets, initializers, keywords and marks.
-/

namespace DeclGraph

inductive Keyword where
  | packageKw
  | importKw
  | interfaceKw
  | classKw
  | extendsKw
  | implementsKw
  | enumKw
  | attributeKw
  | raisesKw
  | inKw
  | outKw
  | inoutKw
  | modifier (m : Modifier)
  deriving DecidableEq, Repr

namespace Keyword

def all : List Keyword :=
  [packageKw, importKw, interfaceKw, classKw, extendsKw, implementsKw, enumKw, attributeKw,
    raisesKw, inKw, outKw, inoutKw] ++ Modifier.all.map modifier

def text : Keyword → String
  | packageKw => "package"
  | importKw => "import"
  | interfaceKw => "interface"
  | classKw => "class"
  | extendsKw => "extends"
  | implementsKw => "implements"
  | enumKw => "enum"
  | attributeKw => "attribute"
  | raisesKw => "raises"
  | inKw => "in"
  | outKw => "out"
  | inoutKw => "inout"
  | modifier m => m.word

end Keyword

inductive Mark where
  | semicolon
  | lbrace
  | rbrace
  | colon
  | comma
  | equal
  | lpar
  | rpar
  | wildcard
  | varargs
  deriving DecidableEq, Repr

namespace Mark

def all : List Mark :=
  [semicolon, lbrace, rbrace, colon, comma, equal, lpar, rpar, wildcard, varargs]

def text : Mark → String
  | semicolon => ";"
  | lbrace => "\x7b"
  | rbrace => "\x7d"
  | colon => ":"
  | comma => ","
  | equal => "="
  | lpar => "("
  | rpar => ")"
  | wildcard => ".*"
  | varargs => "..."

def label : Mark → String
  | semicolon => "SEMICOLON"
  | lbrace => "LBRACE"
  | rbrace => "RBRACE"
  | colon => "COLON"
  | comma => "COMMA"
  | equal => "EQUAL"
  | lpar => "LPAR"
  | rpar => "RPAR"
  | wildcard => "WILDCARD"
  | varargs => "VARARGS"

end Mark

inductive Terminal where
  | name
  | array
  | initializer
  | keyword (k : Keyword)
  | mark (m : Mark)
  deriving DecidableEq, Repr

namespace Terminal

/-- The terminals with a fixed text. -/
def literals : List Terminal :=
  Keyword.all.map keyword ++ Mark.all.map mark

/-- The fixed text of a terminal that has one. -/
def text? : Terminal → Option String
  | keyword k => some k.text
  | mark m => some m.text
  | _ => none

/-- How messages name a terminal. -/
def label : Terminal → String
  | name => "NAME"
  | array => "ARRAY"
  | initializer => "INITIALIZER"
  | keyword k => k.text.toUpper
  | mark m => m.label

end Terminal

end DeclGraph
