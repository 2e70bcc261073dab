/-!
# Binary floating-point numbers of 64 bits

A number is held by its bits: a sign, eleven bits of exponent and 52 bits of fraction.
The finite numbers are the products `m · 2 ^ q` with `m < 2 ^ 53` and
`-1074 ≤ q ≤ 971`.

`nearest?` takes a fraction to the nearest of them, where of two equally near ones the
one with even `m` wins.
-/

namespace FrontEnd

/-- A floating-point number, by its bits. -/
structure Binary64 where
  bits : UInt64
  deriving DecidableEq, Repr, Inhabited

namespace Binary64

/-- Plus infinity. -/
def infinity : Binary64 := ⟨0x7FF0000000000000⟩

/-- A value that is no number. -/
def nan : Binary64 := ⟨0x7FF8000000000001⟩

/-- Whether the sign bit is set. -/
def isNegative (x : Binary64) : Bool := Nat.pow 2 63 ≤ x.bits.toNat

/-- The bits without the sign. -/
def magnitude (x : Binary64) : Nat := x.bits.toNat % Nat.pow 2 63

/-- Whether `x` is no number. -/
def isNaN (x : Binary64) : Bool := infinity.magnitude < x.magnitude

/-- Whether `x` is plus or minus infinity. -/
def isInfinite (x : Binary64) : Bool := x.magnitude = infinity.magnitude

/-- The number with the opposite sign. -/
def neg (x : Binary64) : Binary64 := ⟨x.bits ^^^ 0x8000000000000000⟩

/-- The factor `m` of a finite number `m · 2 ^ q`. -/
def significand (x : Binary64) : Nat :=
  let fraction := x.magnitude % Nat.pow 2 52
  if x.magnitude < Nat.pow 2 52 then fraction else fraction + Nat.pow 2 52

/-- The exponent `q` of a finite number `m · 2 ^ q`. -/
def exponent (x : Binary64) : Int :=
  if x.magnitude < Nat.pow 2 52 then -1074 else (x.magnitude / Nat.pow 2 52 : Nat) - 1075

/-- `num / den` to the nearest integer, and to the even one of two equally near. -/
def divNearest (num den : Nat) : Nat :=
  let q := num / den
  let r := num % den
  if 2 * r < den then q
  else if den < 2 * r then q + 1
  else q + q % 2

/-- `base ^ e` for a natural exponent, and 1 for a negative one. -/
def powUp (base : Nat) (e : Int) : Nat := base.pow e.toNat

/-- The exponent of the greatest power of two that is not above `num / den`. -/
def floorLog2 (num den : Nat) : Int :=
  let e : Int := (num.log2 : Int) - (den.log2 : Int)
  if num * powUp 2 (-e) < den * powUp 2 e then e - 1 else e

/-- The floating-point number nearest to `num / den`; none if it is too great for one.
The bits of `m · 2 ^ q` are those of the number `(q + 1074) · 2 ^ 52 + m`: a carry out of
`m` goes to the exponent, where it belongs. -/
def nearest? (num den : Nat) : Option Binary64 :=
  if num = 0 then some ⟨0⟩
  else
    let q := max (floorLog2 num den - 52) (-1074)
    let m := divNearest (num * powUp 2 (-q)) (den * powUp 2 q)
    let bits := (q + 1074).toNat * Nat.pow 2 52 + m
    if bits < infinity.magnitude then some ⟨UInt64.ofNat bits⟩ else none

end Binary64

end FrontEnd
