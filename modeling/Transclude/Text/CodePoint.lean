/-!
# Classes of characters as ranges of code points

A class of characters that a standard lists is kept as its ranges of code
points, in ascending order, so that a search can stop at the first range that
lies beyond the character.
-/

namespace Transclude

namespace CodePoint

/-- Whether `n` lies in one of the ranges, both ends included. The ranges are in
    ascending order. -/
def within (n : Nat) : List (Nat × Nat) → Bool
  | [] => false
  | (lo, hi) :: ranges => if n < lo then false else n ≤ hi || within n ranges

end CodePoint

end Transclude
