import FrontEnd.Text.Basic

/-!
# Regular expressions over bytes

A regular expression is matched byte by byte.  The state of a match is a set of
expressions: what may still follow, for each way in which the bytes so far can be read.
`Regex.partials` takes such a state one byte further; a byte for which it yields nothing
cannot stand there.
-/

namespace FrontEnd

/-- A class of bytes: those in one of the ranges, or those in none of them. -/
structure ByteClass where
  ranges : List (UInt8 × UInt8)
  negated : Bool
  deriving DecidableEq, Repr

namespace ByteClass

/-- Whether a byte belongs to a class. -/
def contains (c : ByteClass) (b : UInt8) : Bool :=
  (c.ranges.any fun (first, last) => first ≤ b && b ≤ last) != c.negated

/-- The class of one byte. -/
def single (b : UInt8) : ByteClass := ⟨[(b, b)], false⟩

/-- The class of all bytes. -/
def all : ByteClass := ⟨[], true⟩

end ByteClass

/-- A regular expression. -/
inductive Regex where
  /-- Matches the empty text. -/
  | empty
  /-- Matches one byte of a class. -/
  | byte (c : ByteClass)
  /-- Matches a text of `r` followed by a text of `s`. -/
  | seq (r s : Regex)
  /-- Matches the texts of `r` and those of `s`. -/
  | alt (r s : Regex)
  /-- Matches any number of texts of `r`, one after the other. -/
  | star (r : Regex)
  deriving DecidableEq, Repr

namespace Regex

/-- The texts a regular expression matches. -/
inductive Matches : Regex → Text → Prop where
  | empty : Matches .empty []
  | byte {c : ByteClass} {b : UInt8} : c.contains b → Matches (.byte c) [b]
  | seq {r s : Regex} {t u : Text} : Matches r t → Matches s u → Matches (.seq r s) (t ++ u)
  | left {r s : Regex} {t : Text} : Matches r t → Matches (.alt r s) t
  | right {r s : Regex} {t : Text} : Matches s t → Matches (.alt r s) t
  | done {r : Regex} : Matches (.star r) []
  | more {r : Regex} {t u : Text} :
      Matches r t → Matches (.star r) u → Matches (.star r) (t ++ u)

/-- One or more texts of `r`. -/
def plus (r : Regex) : Regex := .seq r (.star r)

/-- A text of `r`, or nothing. -/
def optional (r : Regex) : Regex := .alt .empty r

/-- Whether a regular expression matches the empty text. -/
def nullable : Regex → Bool
  | .empty => true
  | .byte _ => false
  | .seq r s => nullable r && nullable s
  | .alt r s => nullable r || nullable s
  | .star _ => true

/-- `r` followed by `s`, without a needless empty expression. -/
def followedBy (s : Regex) : Regex → Regex
  | .empty => s
  | r => .seq r s

/-- What may follow the byte `b`, for each way in which `b` can start a match. -/
def partials (b : UInt8) : Regex → List Regex
  | .empty => []
  | .byte c => if c.contains b then [.empty] else []
  | .seq r s => (partials b r).map (followedBy s) ++ if nullable r then partials b s else []
  | .alt r s => partials b r ++ partials b s
  | .star r => (partials b r).map (followedBy (.star r))

end Regex

end FrontEnd
