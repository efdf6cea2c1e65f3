/-!
# Ranges of code points

A property of characters is given by the closed ranges of code points that have it, in ascending
order, so a search ends at the first range that begins behind the code point.
-/

namespace Caseless
namespace Text

/-- Whether a code point lies in one of the closed ranges, which have to ascend. -/
def inRanges (n : Nat) : List (Nat × Nat) → Bool
  | [] => false
  | (first, last) :: rest => if n < first then false else n ≤ last || inRanges n rest

/-- A code point before the first range lies in none. -/
theorem inRanges_cons_of_lt {n first last : Nat} {rest : List (Nat × Nat)} (h : n < first) :
    inRanges n ((first, last) :: rest) = false := by
  simp [inRanges, h]

end Text
end Caseless
