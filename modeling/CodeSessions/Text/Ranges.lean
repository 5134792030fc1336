/-!
# Ranges — sets of code points as sorted tables

A set of code points is an array of closed ranges `(first, last)`, sorted and disjoint, and
membership is found by halving the part of the table in which the point can still lie.
-/

namespace CodeSessions
namespace Text

/-- Looks for `x` in the entries from `low` up to, but not including, `high`. -/
def searchRanges (ranges : Array (Nat × Nat)) (x low high : Nat) : Bool :=
  if low < high then
    let middle := (low + high) / 2
    match ranges[middle]? with
    | none => false
    | some (first, last) =>
        if x < first then searchRanges ranges x low middle
        else if last < x then searchRanges ranges x (middle + 1) high
        else true
  else false
  termination_by high - low

def inRanges (ranges : Array (Nat × Nat)) (x : Nat) : Bool :=
  searchRanges ranges x 0 ranges.size

end Text
end CodeSessions
