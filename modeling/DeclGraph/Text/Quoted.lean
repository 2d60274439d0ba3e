import DeclGraph.Text.Hex
import DeclGraph.Text.Printable

/-!
Quoted text, as messages show names and characters: between single quotes unless that would need
an escape that double quotes avoid, with control and invisible characters written as escapes.
-/

namespace DeclGraph.Text

def singleQuote : Char := '\x27'
def doubleQuote : Char := '\x22'

/-- Double quotes are used for a text with single quotes and no double quotes in it. -/
def quoteFor (s : List Char) : Char :=
  if s.contains singleQuote && !s.contains doubleQuote then doubleQuote else singleQuote

/-- How one character is written between quotes of the given kind. -/
def escapeChar (quote c : Char) : List Char :=
  if c = '\\' || c = quote then ['\\', c]
  else if c = '\n' then ['\\', 'n']
  else if c = '\r' then ['\\', 'r']
  else if c = '\t' then ['\\', 't']
  else if isPrintable c then [c]
  else if c.toNat < 0x100 then '\\' :: 'x' :: hexDigits 2 c.toNat
  else if c.toNat < 0x10000 then '\\' :: 'u' :: hexDigits 4 c.toNat
  else '\\' :: 'U' :: hexDigits 8 c.toNat

/-- A text between quotes. -/
def quoted (s : String) : String :=
  let quote := quoteFor s.toList
  String.ofList (quote :: s.toList.flatMap (escapeChar quote) ++ [quote])

end DeclGraph.Text
