import FrontEnd.Token

/-!
# Sets of token kinds

A set of token kinds lists its members in ascending order.  A set that was never given any
list of members is told apart from a set that was given an empty one.
-/

namespace FrontEnd

/-- A set of token kinds. -/
structure KeywordSet where
  /-- The members in ascending order; none if the set was never filled. -/
  members? : Option (List TokenKind)
  deriving DecidableEq, Repr

namespace KeywordSet

/-- The set that was never filled. -/
def blank : KeywordSet := ⟨none⟩

/-- The members of a set, in ascending order. -/
def members (ks : KeywordSet) : List TokenKind := ks.members?.getD []

/-- Whether a kind is a member of a set. -/
def contains (ks : KeywordSet) (k : TokenKind) : Bool := ks.members.contains k

/-- The number of members. -/
def size (ks : KeywordSet) : Nat := ks.members.length

/-- Inserts a kind into an ascending list, unless it is there already. -/
def insertSorted (k : TokenKind) : List TokenKind → List TokenKind
  | [] => [k]
  | j :: rest => if k < j then k :: j :: rest
    else if k = j then j :: rest
    else j :: insertSorted k rest

/-- A set with further members. -/
def insertAll (ks : KeywordSet) (kinds : List TokenKind) : KeywordSet :=
  ⟨some (kinds.foldl (fun members k => insertSorted k members) ks.members)⟩

/-- The set of the given kinds. -/
def ofList (kinds : List TokenKind) : KeywordSet := blank.insertAll kinds

/-- The set that results from adding members to a set that may be missing: then it is a new
set, of which nobody else knows. -/
def added (ks : Option KeywordSet) (kinds : List TokenKind) : KeywordSet :=
  match ks with
  | none => ofList kinds
  | some ks => ks.insertAll kinds

/-- What becomes of a set that may be missing when members are added to it in place. -/
def afterAdding (ks : Option KeywordSet) (kinds : List TokenKind) : Option KeywordSet :=
  ks.map (·.insertAll kinds)

end KeywordSet

end FrontEnd
