/-! # Sets of code points

Properties of characters are given as the ascending list of code points at which membership
changes: the first entry enters the set, the second leaves it, and so on. Membership is then a
parity.
-/

namespace Toolsmith
namespace Text

/-- A set of code points, as the ascending points where membership flips. -/
structure CodeSet where
  flips : List Nat

/-- A character belongs to the set when an odd number of flips lie at or below it. -/
def CodeSet.contains (set : CodeSet) (c : Char) : Bool :=
  (set.flips.takeWhile (· ≤ c.toNat)).length % 2 == 1

end Text
end Toolsmith
