import SignalGraph.Number.Format

/-!
The shortest decimal that reads back as a given floating point number. The numbers that round to
`m * 2 ^ q` form an interval, which holds its ends exactly if `m` is even. On the grid of multiples
of a power of ten, only the two neighbours of the number itself can be the nearest point of that
interval; the search refines the grid until one of them lies inside.
-/

namespace SignalGraph

structure Decimal where
  digits : Nat
  exponent : Int
deriving DecidableEq

namespace Decimal

/-- Moves the zeros at the end of the digits into the exponent. -/
def trim : (fuel : Nat) → Decimal → Decimal
  | 0, d => d
  | fuel + 1, d =>
    if d.digits ≠ 0 ∧ d.digits % 10 = 0 then trim fuel ⟨d.digits / 10, d.exponent + 1⟩ else d

end Decimal

structure RoundingInterval where
  low : Nat
  value : Nat
  high : Nat
  denominator : Nat
  closed : Bool

namespace RoundingInterval

/-- The interval around `m * 2 ^ q`. Its lower half is half as long where `m` is the least
mantissa of its exponent, since the numbers below lie twice as close. -/
def around (f : FloatFormat) (m : Nat) (q : Int) : RoundingInterval :=
  let scale := 1 <<< (q - 2).toNat
  let below := if m = 1 <<< f.fractionBits ∧ f.leastExponent < q then 1 else 2
  { low := (4 * m - below) * scale
    value := 4 * m * scale
    high := (4 * m + 2) * scale
    denominator := 1 <<< (2 - q).toNat
    closed := m % 2 = 0 }

def holds (r : RoundingInterval) (n : Nat) : Bool :=
  if r.closed then r.low ≤ n ∧ n ≤ r.high else r.low < n ∧ n < r.high

def log10 (r : RoundingInterval) : Int :=
  if r.denominator ≤ r.value then
    ((Nat.toDigits 10 (r.value / r.denominator)).length : Int) - 1
  else -((Nat.toDigits 10 ((r.denominator - 1) / r.value)).length : Int)

/-- The point of the interval nearest to the value among its two neighbours on the grid of
multiples of `10 ^ k`; of two equally near the upper one. -/
def onGrid? (r : RoundingInterval) (k : Int) : Option Decimal :=
  let up := Nat.pow 10 (-k).toNat
  let r := { r with low := r.low * up, value := r.value * up, high := r.high * up }
  let unit := r.denominator * Nat.pow 10 k.toNat
  let below := r.value / unit
  let left := r.value % unit
  match r.holds (below * unit), r.holds ((below + 1) * unit) with
  | true, true => some ⟨if 2 * left < unit then below else below + 1, k⟩
  | true, false => some ⟨below, k⟩
  | false, true => some ⟨below + 1, k⟩
  | false, false => none

def search (r : RoundingInterval) : (fuel : Nat) → (k : Int) → Decimal
  | 0, _ => ⟨r.value / r.denominator, 0⟩
  | fuel + 1, k =>
    match r.onGrid? k with
    | some d => d
    | none => r.search fuel (k - 1)

end RoundingInterval

/-- The shortest decimal that rounds to `m * 2 ^ q`, and of those the nearest to it. Seventeen
digits always suffice. -/
def FloatFormat.shortest (f : FloatFormat) (m : Nat) (q : Int) : Decimal :=
  let r := RoundingInterval.around f m q
  (r.search 17 r.log10).trim 20

end SignalGraph
