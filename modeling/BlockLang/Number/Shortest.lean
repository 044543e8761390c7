import BlockLang.Number.Real64

/-!
# Shortest decimals

A number is written with the fewest decimal digits that still read back as the same number, and
among those with the decimal nearest to it. For one digit, two digits and so on, the two neighbours
of the number on that decimal grid are tested against the interval of ratios that round to it.
-/

namespace BlockLang.Number

/-- The positive ratio `num / den`. -/
structure Ratio where
  num : Nat
  den : Nat

namespace Ratio

/-- Is `a` below `b`? -/
def lt (a b : Ratio) : Bool := a.num * b.den < b.num * a.den

/-- Is `a` at most `b`? -/
def le (a b : Ratio) : Bool := a.num * b.den ≤ b.num * a.den

/-- The ratio `n * base ^ e`. -/
def ofPower (n base : Nat) (e : Int) : Ratio :=
  if 0 ≤ e then ⟨n * base.pow e.toNat, 1⟩ else ⟨n, base.pow (-e).toNat⟩

/-- The exponent `k` with `10 ^ (k - 1) ≤ r < 10 ^ k`. -/
def decimalExponent (r : Ratio) : Int :=
  if r.den ≤ r.num then Real64.decimalLength (r.num / r.den)
  else
    let j : Int := Real64.decimalLength (r.den / r.num)
    if r.num * Nat.pow 10 (j - 1).toNat = r.den then 2 - j else 1 - j

end Ratio

/-- The ratios that round to one double: the interval between `low` and `high`, its ends included
if `closed`. -/
structure Rounding where
  value : Ratio
  low : Ratio
  high : Ratio
  closed : Bool

namespace Rounding

/-- The interval of a positive significand and its exponent: half a unit up, and half a unit down
or a quarter below a power of two, where the units get smaller. -/
def of (m : Nat) (e : Int) : Rounding where
  value := .ofPower (4 * m) 2 (e - 2)
  low :=
    .ofPower (if m = Nat.pow 2 52 ∧ Real64.leastExponent < e then 4 * m - 1 else 4 * m - 2) 2
      (e - 2)
  high := .ofPower (4 * m + 2) 2 (e - 2)
  closed := m % 2 = 0

/-- Does the ratio `x` round to the double? -/
def admits (r : Rounding) (x : Ratio) : Bool :=
  if r.closed then r.low.le x && x.le r.high else r.low.lt x && x.lt r.high

/-- The decimal of `places` digits nearest to the value that rounds to it, as an integer of the
grid; a tie goes to the even one. -/
def onGrid? (r : Rounding) (unit : Int) : Option Nat :=
  let (n, d) :=
    if 0 ≤ unit then (r.value.num, r.value.den * Nat.pow 10 unit.toNat)
    else (r.value.num * Nat.pow 10 (-unit).toNat, r.value.den)
  let below := n / d
  let admitted (k : Nat) : Bool := r.admits (.ofPower k 10 unit)
  match admitted below, admitted (below + 1) with
  | true, true => some (roundQuotient n d)
  | true, false => some below
  | false, true => some (below + 1)
  | false, false => none

/-- The first grid with a decimal that rounds to the double, of the numbers of digits from
`places` on; seventeen digits always suffice. -/
def search (r : Rounding) (top : Int) (places : Nat) : Nat → Nat × Int
  | 0 => (0, 0)
  | fuel + 1 =>
    match r.onGrid? (top - places) with
    | some k => (k, top - places)
    | none => search r top (places + 1) fuel

/-- The shortest decimal `digits * 10 ^ exponent` that rounds to the double. -/
def shortest (r : Rounding) : Nat × Int :=
  r.search r.value.decimalExponent 1 17

end Rounding

/-- The digits without zeros at their end, and the exponent that makes up for them. -/
def dropZeros (digits : Nat) (exponent : Int) : Nat × Int :=
  let ds := Nat.toDigits 10 digits
  let zeros := (ds.reverse.takeWhile (· == '0')).length
  (digits / Nat.pow 10 zeros, exponent + zeros)

/-- `n` zeros. -/
def zeros (n : Int) : List Char := List.replicate n.toNat '0'

/-- A decimal in positional notation if its point falls at most sixteen places to the right and
three to the left of the first digit, with at least one place after the point; otherwise one digit,
the others after a point, and a signed exponent of at least two digits. -/
def decimalText (digits : Nat) (exponent : Int) : List Char :=
  let ds := Nat.toDigits 10 digits
  let point : Int := exponent + ds.length
  if point ≤ -4 ∨ 16 < point then
    let e := point - 1
    let es := Nat.toDigits 10 e.natAbs
    let fraction := if ds.length = 1 then [] else '.' :: ds.drop 1
    ds.take 1 ++ fraction ++ 'e' :: (if e < 0 then '-' else '+') :: (zeros (2 - es.length) ++ es)
  else if point ≤ 0 then '0' :: '.' :: (zeros (-point) ++ ds)
  else if ds.length ≤ point then ds ++ zeros (point - ds.length) ++ ['.', '0']
  else ds.take point.toNat ++ '.' :: ds.drop point.toNat

/-- The text of a number: its shortest decimal, a minus sign also before a negative zero. -/
def Real64.text : Real64 → String
  | nan => "nan"
  | infinite negative => if negative then "-inf" else "inf"
  | finite negative m e =>
    let (digits, exponent) :=
      if m = 0 then (0, 0)
      else
        let (digits, exponent) := (Rounding.of m e).shortest
        dropZeros digits exponent
    (if negative then "-" else "") ++ String.ofList (decimalText digits exponent)

end BlockLang.Number
