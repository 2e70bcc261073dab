import FrontEnd.Binary64.Basic
import FrontEnd.Number.Numeral

/-!
# Floating-point numbers

A floating-point number is written in decimal digits with an optional point and an
optional exponent of ten, or behind `0x` in hexadecimal digits with an optional point and
an exponent of two, or as one of the words `inf`, `infinity` and `nan`.  Single
underscores may stand between digits, and between the base and the first digit.

A finite numeral stands for a fraction, and its value is the floating-point number
nearest to that fraction.
-/

namespace FrontEnd

namespace Number

/-- The two bases of floating-point numerals. -/
inductive Base where
  | ten
  | sixteen
  deriving DecidableEq, Repr

namespace Base

/-- The number of different digits. -/
def radix : Base → Nat
  | .ten => 10
  | .sixteen => 16

/-- The value of a digit. -/
def digit? : Base → UInt8 → Option Nat
  | .ten => Number.digit?
  | .sixteen => hexDigit?

/-- The letter in front of the exponent, in lower case. -/
def exponentMark : Base → UInt8
  | .ten => 0x65
  | .sixteen => 0x70

/-- The number that the exponent is a power of. -/
def exponentRadix : Base → Nat
  | .ten => 10
  | .sixteen => 2

end Base

/-- The digits of a numeral in front of its exponent. -/
structure Mantissa where
  /-- The number that all digits make up, without regard to the point. -/
  value : Nat
  /-- Whether there was a point. -/
  pointed : Bool
  /-- The number of digits behind the point. -/
  fraction : Nat
  /-- Whether there was any digit. -/
  digits : Bool
  deriving DecidableEq, Repr

/-- The mantissa before anything is read. -/
def Mantissa.empty : Mantissa := ⟨0, false, 0, false⟩

/-- The mantissa with one more digit. -/
def Mantissa.push (m : Mantissa) (base : Base) (d : Nat) : Mantissa :=
  { m with
    value := base.radix * m.value + d
    fraction := if m.pointed then m.fraction + 1 else 0
    digits := true }

/-- Reads digits, underscores and at most one point, and returns what follows. -/
def readMantissa (base : Base) (m : Mantissa) : Text → Mantissa × Text
  | [] => (m, [])
  | b :: rest =>
    if b = 0x5F then readMantissa base m rest
    else if b = 0x2E then
      if m.pointed then (m, b :: rest) else readMantissa base { m with pointed := true } rest
    else
      match base.digit? b with
      | some d => readMantissa base (m.push base d) rest
      | none => (m, b :: rest)

/-- Reads the digits of an exponent, which may be divided by underscores. -/
def readExponentDigits (e : Nat) : Text → Nat × Text
  | [] => (e, [])
  | b :: rest =>
    if b = 0x5F then readExponentDigits e rest
    else
      match digit? b with
      | some d => readExponentDigits (10 * e + d) rest
      | none => (e, b :: rest)

/-- Reads the sign and the digits of an exponent, the first of which is no underscore. -/
def readSignedExponent : Text → Option (Int × Text)
  | [] => none
  | b :: rest =>
    let (sign, digits) : Int × Text :=
      if b = 0x2D then (-1, rest) else if b = 0x2B then (1, rest) else (1, b :: rest)
    match digits with
    | [] => none
    | d :: more =>
      match digit? d with
      | none => none
      | some _ =>
        let (e, rest) := readExponentDigits 0 (d :: more)
        some (sign * e, rest)

/-- Reads the exponent of a numeral.  It may be missing in base ten only. -/
def readExponent (base : Base) : Text → Option (Int × Text)
  | [] => if base = .ten then some (0, []) else none
  | b :: rest =>
    if lowerByte b = base.exponentMark then readSignedExponent rest
    else if base = .ten then some (0, b :: rest) else none

/-- Whether every underscore stands between digits; `afterDigit` tells whether a digit, or
the mark of the base, comes right before, and `afterLine` whether an underscore does. -/
def underscoresFit (base : Base) (afterDigit afterLine : Bool) : Text → Bool
  | [] => !afterLine
  | b :: rest =>
    if (base.digit? b).isSome then underscoresFit base true false rest
    else if b = 0x5F then afterDigit && underscoresFit base false true rest
    else !afterLine && underscoresFit base false false rest

/-- Splits off the mark of base sixteen, which has to be followed by something. -/
def splitBase : Text → Base × Text
  | 0x30 :: x :: b :: rest => if lowerByte x = 0x78 then (.sixteen, b :: rest)
    else (.ten, 0x30 :: x :: b :: rest)
  | t => (.ten, t)

/-- The exponent, brought into the bounds beyond which it makes no difference: above them a
value other than zero is too great, and below them it is nearest to zero. -/
def clampExponent (value : Nat) (exponent : Int) : Int :=
  max (-(value.log2 + 1100 : Nat)) (min 1100 exponent)

/-- The floating-point number nearest to `value · 10 ^ exponent` in base ten, and to
`value · 2 ^ exponent` in base sixteen. -/
def scaled? (base : Base) (value : Nat) (exponent : Int) : Option Binary64 :=
  let e := clampExponent value exponent
  Binary64.nearest? (value * Binary64.powUp base.exponentRadix e)
    (Binary64.powUp base.exponentRadix (-e))

/-- The exponent of the last digit of a mantissa. -/
def lastDigitExponent (base : Base) (fraction : Nat) (exponent : Int) : Int :=
  match base with
  | .ten => exponent - fraction
  | .sixteen => exponent - 4 * fraction

/-- The value of a finite numeral without sign. -/
def readFinite (t : Text) : Except Fault Binary64 :=
  let (base, body) := splitBase t
  let (m, tail) := readMantissa base .empty body
  if !m.digits then .error .syntactic
  else
    match readExponent base tail with
    | some (e, []) =>
      if underscoresFit base (base = .sixteen) false body then
        match scaled? base m.value (lastDigitExponent base m.fraction e) with
        | some x => .ok x
        | none => .error .range
      else .error .syntactic
    | _ => .error .syntactic

/-- The value of a numeral without sign. -/
def readUnsigned (t : Text) : Except Fault Binary64 :=
  let word := t.map lowerByte
  if word = Text.ofString "inf" ∨ word = Text.ofString "infinity" then .ok .infinity
  else if word = Text.ofString "nan" then .ok .nan
  else readFinite t

/-- A lexeme that is no floating-point number. -/
inductive MalformedFloat where
  /-- Nothing, or one more sign, follows the sign. -/
  | sign (lexeme : Text)
  /-- The part behind the sign has no value. -/
  | body (lexeme unsigned : Text) (fault : Fault)
  deriving DecidableEq, Repr

/-- The wording of the error for a malformed floating-point number. -/
def MalformedFloat.message : MalformedFloat → Text
  | .sign lexeme => Text.ofString "malformed number " ++ lexeme.quoted
  | .body lexeme unsigned fault =>
    Text.ofString "malformed number " ++ lexeme.quoted
      ++ Text.ofString " (strconv.ParseFloat: parsing " ++ unsigned.quoted
      ++ Text.ofString ": " ++ fault.message ++ Text.ofString ")"

/-- Splits off one sign and tells whether it is a minus. -/
def splitSign : Text → Bool × Text
  | 0x2B :: rest => (false, rest)
  | 0x2D :: rest => (true, rest)
  | t => (false, t)

/-- Whether a text starts with a sign. -/
def startsWithSign : Text → Bool
  | 0x2B :: _ => true
  | 0x2D :: _ => true
  | _ => false

/-- The value of a lexeme that should be a floating-point number. -/
def floatValue (lexeme : Text) : Except MalformedFloat Binary64 :=
  let (negative, body) := splitSign lexeme
  if body.isEmpty || startsWithSign body then .error (.sign lexeme)
  else
    match readUnsigned body with
    | .ok x => .ok (if negative then x.neg else x)
    | .error fault => .error (.body lexeme body fault)

end Number

end FrontEnd
