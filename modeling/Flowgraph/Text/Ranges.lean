/-! Character classes as ascending ranges of code points. -/

namespace Flowgraph.Text

/-- Membership in ascending ranges; the search stops at the first range that lies above. -/
def inRanges : List (Nat × Nat) → Nat → Bool
  | [], _ => false
  | (low, high) :: rest, n => if n < low then false else if n ≤ high then true else inRanges rest n

end Flowgraph.Text
