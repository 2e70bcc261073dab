/-!
# Ranges of characters

A class of characters is given by the ranges of their numbers, in ascending order.
-/

namespace FrontEnd

/-- The numbers from `first` to `last` for each pair of a list. -/
abbrev Ranges := List (Nat × Nat)

namespace Ranges

/-- Whether `n` lies in one of the ranges, which are in ascending order: the search
ends at the first range that starts behind `n`. -/
def contains (n : Nat) : Ranges → Bool
  | [] => false
  | (first, last) :: rest => first ≤ n && (n ≤ last || contains n rest)

end Ranges

end FrontEnd
