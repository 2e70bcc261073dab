import FrontEnd.Number.Numeral

/-!
# Integers

An integer is a run of decimal digits with an optional sign.  Its value has to fit into
a signed word of 64 bits.

Digits are read from left to right, and a value that does not fit even an unsigned word
is out of range whatever follows.
-/

namespace FrontEnd

namespace Number

/-- The value of a run of digits behind digits with value `n`. -/
def readDigits (n : Nat) : Text → Except Fault Nat
  | [] => .ok n
  | b :: rest =>
    match digit? b with
    | none => .error .syntactic
    | some d => if 10 * n + d < Nat.pow 2 64 then readDigits (10 * n + d) rest else .error .range

/-- The value of a non-empty run of digits. -/
def readNatural : Text → Except Fault Nat
  | [] => .error .syntactic
  | digits => readDigits 0 digits

/-- The value of an integer. -/
def readInteger : Text → Except Fault Int
  | 0x2D :: digits => do
    let n ← readNatural digits
    if n ≤ Nat.pow 2 63 then .ok (-n) else .error .range
  | 0x2B :: digits => do
    let n ← readNatural digits
    if n < Nat.pow 2 63 then .ok n else .error .range
  | digits => do
    let n ← readNatural digits
    if n < Nat.pow 2 63 then .ok n else .error .range

/-- A lexeme that is no integer. -/
structure MalformedInteger where
  lexeme : Text
  fault : Fault
  deriving DecidableEq, Repr

/-- The wording of the error for a malformed integer. -/
def MalformedInteger.message (e : MalformedInteger) : Text :=
  Text.ofString "malformed integer " ++ e.lexeme.quoted
    ++ Text.ofString " (strconv.ParseInt: parsing " ++ e.lexeme.quoted
    ++ Text.ofString ": " ++ e.fault.message ++ Text.ofString ")"

/-- The value of a lexeme that should be an integer. -/
def integerValue (lexeme : Text) : Except MalformedInteger Int :=
  match readInteger lexeme with
  | .ok n => .ok n
  | .error fault => .error ⟨lexeme, fault⟩

end Number

end FrontEnd
