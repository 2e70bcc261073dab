import FrontEnd.Text.Quoted

/-!
# Numerals

What integers and floating-point numbers have in common when they are read: the digits,
and the two ways in which a numeral can be wrong.
-/

namespace FrontEnd

namespace Number

/-- Why a numeral has no value. -/
inductive Fault where
  /-- It is not written as a number. -/
  | syntactic
  /-- It is written as a number, which is too great. -/
  | range
  deriving DecidableEq, Repr, Inhabited

/-- The wording of a fault. -/
def Fault.message : Fault → Text
  | .syntactic => Text.ofString "invalid syntax"
  | .range => Text.ofString "value out of range"

/-- The value of a digit `0` to `9`. -/
def digit? (b : UInt8) : Option Nat :=
  if 0x30 ≤ b ∧ b ≤ 0x39 then some (b.toNat - 0x30) else none

/-- The lower-case form of an unaccented letter. -/
def lowerByte (b : UInt8) : UInt8 := if 0x41 ≤ b ∧ b ≤ 0x5A then b + 0x20 else b

/-- The value of a hexadecimal digit. -/
def hexDigit? (b : UInt8) : Option Nat :=
  let c := lowerByte b
  if 0x61 ≤ c ∧ c ≤ 0x66 then some (c.toNat - 0x61 + 10) else digit? b

end Number

end FrontEnd
