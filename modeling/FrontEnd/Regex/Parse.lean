import FrontEnd.Regex.Basic

/-!
# Reading regular expressions

The notation of regular expressions:

* `r|s` matches the texts of `r` and those of `s`, and `rs` those of `r` followed by those
  of `s`; parentheses group;
* `r*`, `r+` and `r?` match any number of texts of `r`, at least one, and at most one;
* `.` is any byte, `[a-z_]` a byte of a class and `[^a-z]` a byte outside of it;
* `\d`, `\s` and `\w` are a digit, a blank and a byte of a word, and `\D`, `\S` and `\W` a
  byte that is none; `\n`, `\r` and `\t` are control characters, and a backslash takes its
  meaning from any other byte.

The text is divided into signs first.  The signs are read from left to right, with the
groups that are still open on a stack.  What is left open at the end of the text (a group,
a class, a backslash or an alternative) counts for nothing if something stands before it.
-/

namespace FrontEnd

namespace Regex

/-- Ranges of bytes. -/
abbrev ByteRanges := List (UInt8 × UInt8)

/-- The ranges of the bytes that `\d`, `\s` and `\w` stand for. -/
def namedRanges? (b : UInt8) : Option ByteRanges :=
  if b = 0x64 then some [(0x30, 0x39)]
  else if b = 0x73 then some [(0x09, 0x0A), (0x0C, 0x0D), (0x20, 0x20)]
  else if b = 0x77 then some [(0x30, 0x39), (0x41, 0x5A), (0x5F, 0x5F), (0x61, 0x7A)]
  else none

/-- The ranges outside of those in a list, which is in ascending order; `next` is the first
byte not yet accounted for. -/
def complementFrom (next : Nat) : ByteRanges → ByteRanges
  | [] => if next < 256 then [(UInt8.ofNat next, 0xFF)] else []
  | (first, last) :: rest =>
    let behind := complementFrom (last.toNat + 1) rest
    if next < first.toNat then (UInt8.ofNat next, first - 1) :: behind else behind

/-- The byte that a backslash and `b` stand for. -/
def escapedByte (b : UInt8) : UInt8 :=
  if b = 0x6E then 0x0A else if b = 0x72 then 0x0D else if b = 0x74 then 0x09 else b

/-- The ranges of the bytes outside of those that a lower-case letter names, for that
letter in upper case. -/
def namedComplement? (b : UInt8) : Option ByteRanges :=
  if 0x41 ≤ b ∧ b ≤ 0x5A then (namedRanges? (b + 0x20)).map (complementFrom 0) else none

/-- Something in a class: a byte, ranges that have a name, or a dash. -/
inductive ClassAtom where
  | byte (b : UInt8)
  | named (ranges : ByteRanges)
  | dash
  deriving DecidableEq, Repr

/-- What a backslash and `b` stand for. -/
def escaped (b : UInt8) : ClassAtom :=
  match (namedRanges? b).or (namedComplement? b) with
  | some ranges => .named ranges
  | none => .byte (escapedByte b)

/-- The ranges a sequence of atoms makes up.  Two bytes with a dash between them are the
ends of a range; it is wrong if they are not in order. -/
def classRanges? : List ClassAtom → Option ByteRanges
  | [] => some []
  | .byte a :: .dash :: .byte b :: rest =>
    if a ≤ b then (classRanges? rest).map ((a, b) :: ·) else none
  | .byte a :: rest => (classRanges? rest).map ((a, a) :: ·)
  | .named ranges :: rest => (classRanges? rest).map (ranges ++ ·)
  | .dash :: rest => (classRanges? rest).map ((0x2D, 0x2D) :: ·)

/-- A class whose closing bracket has not been read yet. -/
structure OpenClass where
  negated : Bool
  /-- The atoms so far, the latest one first. -/
  atoms : List ClassAtom
  deriving DecidableEq, Repr

/-- A sign of a regular expression. -/
inductive Sign where
  | byte (c : ByteClass)
  | openGroup
  | closeGroup
  | bar
  | star
  | plus
  | optional
  /-- The text ended in a class or behind a backslash. -/
  | cut
  /-- Something that cannot stand anywhere. -/
  | wrong
  deriving DecidableEq, Repr

/-- A class at its closing bracket.  It has to hold something. -/
def OpenClass.close (c : OpenClass) : Sign :=
  match classRanges? c.atoms.reverse with
  | none => .wrong
  | some [] => .wrong
  | some ranges => .byte ⟨ranges, c.negated⟩

/-- A class with one more byte.  A caret at its front negates it. -/
def OpenClass.push (c : OpenClass) (b : UInt8) : OpenClass :=
  if b = 0x5E ∧ c.atoms = [] ∧ !c.negated then { c with negated := true }
  else if b = 0x2D then { c with atoms := .dash :: c.atoms }
  else { c with atoms := .byte b :: c.atoms }

/-- A backslash and `b` outside of classes. -/
def escapedSign (b : UInt8) : Sign :=
  match escaped b with
  | .named ranges => .byte ⟨ranges, false⟩
  | _ => .byte (ByteClass.single (escapedByte b))

/-- A byte outside of classes. -/
def signOfByte (b : UInt8) : Sign :=
  if b = 0x28 then .openGroup
  else if b = 0x29 then .closeGroup
  else if b = 0x7C then .bar
  else if b = 0x2A then .star
  else if b = 0x2B then .plus
  else if b = 0x3F then .optional
  else if b = 0x2E then .byte ByteClass.all
  else if b = 0x5D ∨ b = 0x5E then .wrong
  else .byte (ByteClass.single b)

/-- The signs of a text, behind the opening bracket of a class if there is one. -/
def signsFrom : Option OpenClass → Text → List Sign
  | none, [] => []
  | some _, [] => [.cut]
  | _, [0x5C] => [.cut]
  | none, 0x5C :: b :: rest => escapedSign b :: signsFrom none rest
  | some c, 0x5C :: b :: rest => signsFrom (some { c with atoms := escaped b :: c.atoms }) rest
  | none, b :: rest =>
    if b = 0x5B then signsFrom (some ⟨false, []⟩) rest
    else signOfByte b :: signsFrom none rest
  | some c, b :: rest =>
    if b = 0x5D then c.close :: signsFrom none rest
    else signsFrom (some (c.push b)) rest

/-- The signs of a text. -/
def signs (t : Text) : List Sign := signsFrom none t

/-- A group, or the whole expression, as far as it has been read. -/
structure Level where
  /-- The alternatives in front of the last bar. -/
  branches : Option Regex
  /-- The items behind the last bar, the latest one first. -/
  items : List Regex
  deriving DecidableEq, Repr

namespace Level

/-- Nothing has been read yet. -/
def empty : Level := ⟨none, []⟩

/-- One more item. -/
def push (l : Level) (r : Regex) : Level := { l with items := r :: l.items }

/-- Items one after the other; they are given in reverse order. -/
def sequence? : List Regex → Option Regex
  | [] => none
  | r :: rest => some (rest.foldl (fun behind s => .seq s behind) r)

/-- What has been read.  An alternative without items counts for nothing. -/
def close? (l : Level) : Option Regex :=
  match l.branches, sequence? l.items with
  | some r, some s => some (.alt r s)
  | some r, none => some r
  | none, last => last

/-- Ends an alternative, which needs an item. -/
def bar? (l : Level) : Option Level :=
  if l.items.isEmpty then none else some ⟨l.close?, []⟩

/-- Changes the last item, of which there has to be one. -/
def modifyLast? (l : Level) (f : Regex → Regex) : Option Level :=
  match l.items with
  | [] => none
  | r :: rest => some { l with items := f r :: rest }

end Level

/-- The level that is being read and the levels around it, the innermost one first. -/
structure Levels where
  inner : Level
  outer : List Level
  deriving DecidableEq, Repr

/-- Reads one sign. -/
def Levels.read? (l : Levels) : Sign → Option Levels
  | .byte c => some { l with inner := l.inner.push (.byte c) }
  | .openGroup => some ⟨.empty, l.inner :: l.outer⟩
  | .closeGroup =>
    match l.outer, l.inner.close? with
    | level :: outer, some r => some ⟨level.push r, outer⟩
    | _, _ => none
  | .bar => l.inner.bar?.map ({ l with inner := · })
  | .star => (l.inner.modifyLast? .star).map ({ l with inner := · })
  | .plus => (l.inner.modifyLast? .plus).map ({ l with inner := · })
  | .optional => (l.inner.modifyLast? .optional).map ({ l with inner := · })
  | .cut => some l
  | .wrong => none

/-- Reads signs. -/
def Levels.readAll? (l : Levels) : List Sign → Option Levels
  | [] => some l
  | sign :: rest =>
    match l.read? sign with
    | none => none
    | some l => l.readAll? rest

/-- The outermost level. -/
def Levels.outermost (l : Levels) : Level := l.outer.getLastD l.inner

/-- The regular expression that a text denotes; none if the text is wrong.  The empty text
denotes the empty expression. -/
def parse? (t : Text) : Option Regex :=
  if t.isEmpty then some .empty
  else
    match Levels.readAll? ⟨.empty, []⟩ (signs t) with
    | none => none
    | some l => l.outermost.close?

end Regex

end FrontEnd
