/-!
# Ranges of code points

* `CodeRanges`: a set of characters, as a Unicode property gives it.
* `CodeRanges.covers`: membership.
-/

namespace Fluxion

/-- Closed ranges of code points, disjoint and in increasing order. -/
abbrev CodeRanges := List (Nat × Nat)

/-- Whether a character lies in one of the ranges, which are in order. -/
def CodeRanges.covers (ranges : CodeRanges) (c : Char) : Bool :=
  match ranges with
  | [] => false
  | (first, last) :: ranges => first ≤ c.toNat && (c.toNat ≤ last || covers ranges c)

end Fluxion
