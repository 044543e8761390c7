/-!
# Sets of code points

A set of code points is an ascending list of closed ranges. Looking a character up stops at the
first range that lies above it, so characters of the low blocks are decided in a few steps.
-/

namespace BlockLang.Text

/-- A set of code points, as ascending closed ranges. -/
abbrev CodePoints := List (Nat × Nat)

namespace CodePoints

/-- Is the code point `n` in one of the ranges, these being in ascending order? -/
def has (n : Nat) : CodePoints → Bool
  | [] => false
  | (lo, hi) :: above => if n < lo then false else if n ≤ hi then true else has n above

/-- Is the character `c` in the set? -/
def contains (s : CodePoints) (c : Char) : Bool := s.has c.toNat

end CodePoints

end BlockLang.Text
