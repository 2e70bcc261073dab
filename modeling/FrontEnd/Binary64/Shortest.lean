import FrontEnd.Binary64.Basic
import FrontEnd.Text.Basic

/-!
# The shortest decimal form of a floating-point number

A floating-point number is printed with the fewest digits that read back as the same
number.  On the grid of decimals with `n` digits, only the two neighbours of the number
can do so; the first grid with a hit wins, and of two hits the nearer one.

`Binary64.toText` writes the digits with an exponent if the leading digit stands for
less than `10 ^ -4` or for at least `10 ^ 6`, and positionally otherwise.
-/

namespace FrontEnd

namespace Binary64

/-- Digits `d` and an exponent `e`, for the decimal `d · 10 ^ e`. -/
structure Decimal where
  digits : Nat
  exponent : Int
  deriving DecidableEq, Repr, Inhabited

/-- Whether `d · 10 ^ e ≤ x · 2 ^ q`. -/
def Decimal.le (d : Decimal) (x : Nat) (q : Int) : Bool :=
  d.digits * powUp 10 d.exponent * powUp 2 (-q) ≤ x * powUp 2 q * powUp 10 (-d.exponent)

/-- Whether `x · 2 ^ q ≤ d · 10 ^ e`. -/
def Decimal.ge (d : Decimal) (x : Nat) (q : Int) : Bool :=
  x * powUp 2 q * powUp 10 (-d.exponent) ≤ d.digits * powUp 10 d.exponent * powUp 2 (-q)

/-- Whether `d` lies between the decimals that round to the finite number `x` and those
that round to its neighbours.  The bounds themselves round to `x` if its factor is even.
Below a power of two the neighbour is only half as far away. -/
def Decimal.readsAs (d : Decimal) (x : Binary64) : Bool :=
  let m := x.significand
  let q := x.exponent - 2
  let low := if m = Nat.pow 2 52 ∧ -1074 < x.exponent then 4 * m - 1 else 4 * m - 2
  let high := 4 * m + 2
  if m % 2 = 0 then d.ge low q && d.le high q
  else !d.le low q && !d.ge high q

/-- The number of decimal digits of `n`. -/
def digitCount (n : Nat) : Nat := (Nat.toDigits 10 n).length

/-- The exponent of the greatest power of ten that is not above `num / den`. -/
def floorLog10 (num den : Nat) : Int :=
  if den ≤ num then (digitCount (num / den) : Int) - 1
  else -(digitCount ((den - 1) / num) : Int)

/-- The shorter decimals that read back as `x`, on the grid with step `10 ^ e`: the
neighbour below and the neighbour above, the nearer one of two. -/
def onGrid? (x : Binary64) (e : Int) : Option Decimal :=
  let num := x.significand * powUp 2 x.exponent * powUp 10 (-e)
  let den := powUp 2 (-x.exponent) * powUp 10 e
  let below : Decimal := ⟨num / den, e⟩
  let above : Decimal := ⟨num / den + 1, e⟩
  match below.readsAs x, above.readsAs x with
  | true, true => some (if divNearest num den = num / den then below else above)
  | true, false => some below
  | false, true => some above
  | false, false => none

/-- The shortest decimal that reads back as the finite number `x`, which is not zero:
the grids with 1, 2, … 17 digits are tried in turn, and 17 digits always suffice. -/
def shortest (x : Binary64) : Decimal :=
  let top := floorLog10 (x.significand * powUp 2 x.exponent) (powUp 2 (-x.exponent))
  let grids := (List.range 17).map fun (n : Nat) => top - (n : Int)
  (grids.findSome? (onGrid? x)).getD ⟨x.significand, 0⟩

/-- A run of digits with a decimal point behind the first `whole` of them. -/
def positional (digits : List Char) (whole : Int) : List Char :=
  if whole ≤ 0 then '0' :: '.' :: (List.replicate (-whole).toNat '0' ++ digits)
  else if digits.length ≤ whole.toNat then
    digits ++ List.replicate (whole.toNat - digits.length) '0'
  else digits.take whole.toNat ++ '.' :: digits.drop whole.toNat

/-- A run of digits with the decimal point behind the first one, and an exponent of at
least two digits with its sign. -/
def scientific (digits : List Char) (exponent : Int) : List Char :=
  let rest := digits.drop 1
  let point := if rest.isEmpty then [] else '.' :: rest
  let size := Nat.toDigits 10 exponent.natAbs
  let padding := List.replicate (2 - size.length) '0'
  digits.take 1 ++ point ++ ['e', if exponent < 0 then '-' else '+'] ++ padding ++ size

/-- A finite number that is not negative. -/
def finiteChars (x : Binary64) : List Char :=
  if x.significand = 0 then ['0']
  else
    let d := x.shortest
    let all := Nat.toDigits 10 d.digits
    let lead := d.exponent + all.length - 1
    let digits := (all.reverse.dropWhile (· == '0')).reverse
    if lead < -4 ∨ 6 ≤ lead then scientific digits lead
    else positional digits (lead + 1)

/-- The text of a floating-point number. -/
def toText (x : Binary64) : Text :=
  if x.isNaN then Text.ofString "NaN"
  else if x.isInfinite then Text.ofString (if x.isNegative then "-Inf" else "+Inf")
  else Text.ofChars ((if x.isNegative then ['-'] else []) ++ x.finiteChars)

end Binary64

end FrontEnd
