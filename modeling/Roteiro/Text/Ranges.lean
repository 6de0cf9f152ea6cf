/-!
# Ranges of code points

A class of characters is an ascending list of disjoint ranges of code points, both ends
included. Membership is a scan that stops at the first range beyond the character.
-/

namespace Roteiro

namespace Text

/-- Whether `n` lies in one of the given ranges, which ascend and include both ends. -/
def inRanges : List (Nat × Nat) → Nat → Bool
  | [], _ => false
  | (lo, hi) :: ranges, n => if n < lo then false else n ≤ hi || inRanges ranges n

theorem inRanges_cons_of_mem {lo hi n : Nat} {ranges : List (Nat × Nat)} (hlo : lo ≤ n)
    (hhi : n ≤ hi) : inRanges ((lo, hi) :: ranges) n = true := by
  simp [inRanges, hhi, Nat.not_lt.2 hlo]

theorem inRanges_cons_of_gt {lo hi n : Nat} {ranges : List (Nat × Nat)} (hlo : lo ≤ n)
    (hhi : hi < n) : inRanges ((lo, hi) :: ranges) n = inRanges ranges n := by
  simp [inRanges, Nat.not_le.2 hhi, Nat.not_lt.2 hlo]

end Text

end Roteiro
