/-!
Binary floating point formats, read as exact numbers. A bit pattern is either not a number, an
infinity, or a sign with a magnitude `m * 2 ^ q`; `round` goes the other way, from a quotient of
natural numbers to the nearest magnitude of the format, ties to the even one. Nothing here depends
on the machine's own arithmetic.
-/

namespace SignalGraph

structure FloatFormat where
  fractionBits : Nat
  exponentBits : Nat
deriving DecidableEq

inductive Magnitude where
  | nan
  | infinite
  /-- The number `m * 2 ^ q`. -/
  | finite (m : Nat) (q : Int)
deriving DecidableEq

namespace FloatFormat

def single : FloatFormat := ⟨23, 8⟩

def double : FloatFormat := ⟨52, 11⟩

def signWeight (f : FloatFormat) : Nat := 1 <<< (f.fractionBits + f.exponentBits)

def infinityBits (f : FloatFormat) : Nat := ((1 <<< f.exponentBits) - 1) <<< f.fractionBits

def nanBits (f : FloatFormat) : Nat := f.infinityBits + (1 <<< (f.fractionBits - 1))

/-- The exponent of the smallest positive number, which every subnormal number shares. -/
def leastExponent (f : FloatFormat) : Int :=
  2 - (1 <<< (f.exponentBits - 1) : Nat) - (f.fractionBits : Nat)

def isNegative (f : FloatFormat) (bits : Nat) : Bool := f.signWeight ≤ bits

def magnitude (f : FloatFormat) (bits : Nat) : Magnitude :=
  let unsigned := bits % f.signWeight
  let exponent := unsigned >>> f.fractionBits
  let fraction := unsigned % (1 <<< f.fractionBits)
  if exponent = (1 <<< f.exponentBits) - 1 then
    if fraction = 0 then .infinite else .nan
  else if exponent = 0 then .finite fraction f.leastExponent
  else .finite ((1 <<< f.fractionBits) + fraction) (f.leastExponent + exponent - 1)

/-- The largest `e` with `2 ^ e ≤ n / d`, for positive `n` and `d`. -/
def log2Ratio (n d : Nat) : Int :=
  let e : Int := (n.log2 : Int) - d.log2
  if d <<< e.toNat ≤ n <<< (-e).toNat then e else e - 1

/-- The integer nearest to `n / d`, the even one of two equally near. -/
def roundHalfEven (n d : Nat) : Nat :=
  let below := n / d
  let left := 2 * (n % d)
  if left < d then below
  else if d < left then below + 1
  else below + below % 2

/-- The bits of the magnitude nearest to `n / d`, infinity from half a unit above the largest. -/
def round (f : FloatFormat) (n d : Nat) : Nat :=
  if n = 0 then 0 else
    let q := max f.leastExponent (log2Ratio n d - f.fractionBits)
    let m := roundHalfEven (n <<< (-q).toNat) (d <<< q.toNat)
    min f.infinityBits (((q - f.leastExponent).toNat <<< f.fractionBits) + m)

def withSign (f : FloatFormat) (negative : Bool) (bits : Nat) : Nat :=
  if negative then bits + f.signWeight else bits

def convert (source target : FloatFormat) (bits : Nat) : Nat :=
  match source.magnitude bits with
  | .nan => target.nanBits
  | .infinite => target.withSign (source.isNegative bits) target.infinityBits
  | .finite m q =>
    target.withSign (source.isNegative bits) (target.round (m <<< q.toNat) (1 <<< (-q).toNat))

end FloatFormat
end SignalGraph
