import DeclGraph.Text.Hex

/-!
UTF-8: strict decoding of a byte sequence. The first ill-formed sequence is reported with its
place and cause; surrogates and overlong forms are ill-formed.
-/

namespace DeclGraph.Text

inductive Utf8Cause where
  | startByte
  | continuationByte
  | endOfData
  deriving DecidableEq, Repr

/-- An ill-formed sequence: its first byte, its position and its length in bytes. -/
structure Utf8Fault where
  byte : UInt8
  position : Nat
  length : Nat
  cause : Utf8Cause
  deriving DecidableEq, Repr

def Utf8Cause.message : Utf8Cause → String
  | .startByte => "invalid start byte"
  | .continuationByte => "invalid continuation byte"
  | .endOfData => "unexpected end of data"

def Utf8Fault.message (f : Utf8Fault) : String :=
  let place :=
    if f.length = 1 then
      "byte 0x" ++ String.ofList (hexDigits 2 f.byte.toNat) ++ " in position "
        ++ toString f.position
    else
      "bytes in position " ++ toString f.position ++ "-" ++ toString (f.position + f.length - 1)
  "'utf-8' codec can't decode " ++ place ++ ": " ++ f.cause.message

def isContinuation (b : UInt8) : Bool := 0x80 ≤ b && b ≤ 0xbf

/-- Whether `b` may stand second after `lead`: a continuation byte that makes no overlong form, no
surrogate and no number above the last code point. -/
def isSecond (lead b : UInt8) : Bool :=
  isContinuation b &&
    !(lead == 0xe0 && b < 0xa0) && !(lead == 0xed && 0xa0 ≤ b) &&
    !(lead == 0xf0 && b < 0x90) && !(lead == 0xf4 && 0x90 ≤ b)

/-- The number of bytes that a lead byte announces. -/
def sequenceLength? (lead : UInt8) : Option Nat :=
  if lead < 0x80 then some 1
  else if lead < 0xc2 then none
  else if lead < 0xe0 then some 2
  else if lead < 0xf0 then some 3
  else if lead < 0xf5 then some 4
  else none

/-- How many bytes of `tail` continue the sequence that `lead` starts, of `wanted` at most. -/
def continued (lead : UInt8) (wanted : Nat) (tail : List UInt8) : Nat :=
  match wanted, tail with
  | 0, _ => 0
  | _, [] => 0
  | n + 1, b :: rest =>
    if isSecond lead b then 1 + ((rest.take n).takeWhile isContinuation).length else 0

/-- The bits that a lead byte contributes. -/
def leadBits (lead : UInt8) : Nat :=
  if lead < 0x80 then lead.toNat
  else if lead < 0xe0 then lead.toNat % 0x20
  else if lead < 0xf0 then lead.toNat % 0x10
  else lead.toNat % 0x08

/-- Decodes bytes from a position on. -/
def decodeFrom (position : Nat) (bytes : List UInt8) : Except Utf8Fault (List Char) :=
  match bytes with
  | [] => .ok []
  | lead :: tail =>
    match sequenceLength? lead with
    | none => .error ⟨lead, position, 1, .startByte⟩
    | some n =>
      let k := continued lead (n - 1) tail
      if k = n - 1 then do
        let code := (tail.take k).foldl (fun acc b => acc * 0x40 + b.toNat % 0x40) (leadBits lead)
        return Char.ofNat code :: (← decodeFrom (position + n) (tail.drop k))
      else if tail.length = k then .error ⟨lead, position, k + 1, .endOfData⟩
      else .error ⟨lead, position, k + 1, .continuationByte⟩
termination_by bytes.length
decreasing_by
  simp only [List.length_cons, List.length_drop]
  omega

/-- Decodes a whole byte sequence. -/
def decodeUtf8 (bytes : List UInt8) : Except Utf8Fault String :=
  (decodeFrom 0 bytes).map String.ofList

/-- The text with every kind of line end, carriage return included, turned into a line feed. -/
def unifyLineEnds : List Char → List Char
  | [] => []
  | '\r' :: '\n' :: rest => '\n' :: unifyLineEnds rest
  | c :: rest => (if c = '\r' then '\n' else c) :: unifyLineEnds rest

end DeclGraph.Text
