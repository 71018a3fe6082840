/-!
# Tables of code points

A set of code points is kept as a table of ranges in order, each with its first and last member, and
searched by halving.
-/

namespace RunParams.Text

/-- Whether a range of a part of a table holds a code point, by halving; `bound` counts the
halvings. -/
def inRanges (ranges : Array (Nat × Nat)) (n : Nat) : (bound lo hi : Nat) → Bool
  | 0, _, _ => false
  | bound + 1, lo, hi =>
    if hi ≤ lo then false
    else
      let middle := (lo + hi) / 2
      match ranges[middle]? with
      | none => false
      | some (first, last) =>
        if n < first then inRanges ranges n bound lo middle
        else if last < n then inRanges ranges n bound (middle + 1) hi
        else true

end RunParams.Text
