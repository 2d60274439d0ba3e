/-!
Hexadecimal numerals in lower case, filled up with zeros to a least width.
-/

namespace DeclGraph.Text

/-- The lower case hexadecimal digits of a number, at least `width` of them. -/
def hexDigits (width n : Nat) : List Char :=
  let digits := Nat.toDigits 16 n
  List.replicate (width - digits.length) '0' ++ digits

end DeclGraph.Text
