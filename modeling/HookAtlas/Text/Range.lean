/-
# Classes of code points given by ranges

A property of code points that no short rule describes is a list of closed ranges.  The tables
beside this module hold such lists; membership is decided here.
-/

import HookAtlas.Text.CodePoint

namespace HookAtlas.CodePoint

/-- Whether a code point lies in one of the given closed ranges. -/
def inRanges (c : CodePoint) : List (Nat × Nat) → Bool
  | [] => false
  | (first, last) :: ranges => (first ≤ c.val && c.val ≤ last) || inRanges c ranges

end HookAtlas.CodePoint
