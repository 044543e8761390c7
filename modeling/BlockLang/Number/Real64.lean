/-!
# Double-precision numbers

A finite number is a sign, a significand below `2 ^ 53` and a binary exponent of at least `-1074`;
the significand is at least `2 ^ 52` unless the exponent is the least one. A decimal is read as the
nearest such number, a tie going to the even significand. All arithmetic is exact.
-/

namespace BlockLang.Number

/-- A double-precision number. -/
inductive Real64 where
  /-- No number. -/
  | nan
  /-- Beyond the largest finite number, on the side given. -/
  | infinite (negative : Bool)
  /-- The number `significand * 2 ^ exponent`, negated if `negative`. -/
  | finite (negative : Bool) (significand : Nat) (exponent : Int)
  deriving DecidableEq, Repr, Inhabited

/-- The quotient of `n` by `d` rounded to the nearest natural number, a tie to the even one. -/
def roundQuotient (n d : Nat) : Nat :=
  let q := n / d
  let twice := 2 * (n % d)
  if twice < d then q else if d < twice then q + 1 else q + q % 2

/-- The ratio `n / (d * 2 ^ e)` as a numerator and a denominator. -/
def scaled (n d : Nat) (e : Int) : Nat × Nat :=
  if 0 ≤ e then (n, d * Nat.pow 2 e.toNat) else (n * Nat.pow 2 (-e).toNat, d)

namespace Real64

/-- The least binary exponent. -/
def leastExponent : Int := -1074

/-- The greatest binary exponent. -/
def greatestExponent : Int := 971

/-- The double nearest to the positive ratio `n / d`. -/
def ofRatio (negative : Bool) (n d : Nat) : Real64 :=
  let guess : Int := (Nat.log2 n : Int) - Nat.log2 d - 52
  let (a, b) := scaled n d guess
  let fitted := max leastExponent (if a < b * Nat.pow 2 52 then guess - 1 else guess)
  let (a, b) := scaled n d fitted
  let m := roundQuotient a b
  let (m, e) := if m = Nat.pow 2 53 then (Nat.pow 2 52, fitted + 1) else (m, fitted)
  if greatestExponent < e then infinite negative else finite negative m e

/-- The number of decimal digits of `n`, one for zero. -/
def decimalLength (n : Nat) : Nat := (Nat.toDigits 10 n).length

/-- The double nearest to `digits * 10 ^ exponent`. Magnitudes far outside the range are settled
from the exponent alone. -/
def ofDecimal (negative : Bool) (digits : Nat) (exponent : Int) : Real64 :=
  let top := exponent + decimalLength digits
  if digits = 0 ∨ top < -330 then finite negative 0 leastExponent
  else if 310 < top then infinite negative
  else if 0 ≤ exponent then ofRatio negative (digits * Nat.pow 10 exponent.toNat) 1
  else ofRatio negative digits (Nat.pow 10 (-exponent).toNat)

/-- A finite number as an integer over a power of two. -/
def toRatio? : Real64 → Option (Int × Nat)
  | finite negative m e =>
    let (n, d) := if 0 ≤ e then (m * Nat.pow 2 e.toNat, 1) else (m, Nat.pow 2 (-e).toNat)
    some (if negative then -(n : Int) else n, d)
  | _ => none

end Real64

end BlockLang.Number
