import SignalGraph.Number.Binary
import SignalGraph.Number.Shortest

/-!
How numbers are written and read in decimal. Three spellings are in use: the plain one of messages,
the plain one of stored text, which keeps a fraction on every number, and the one of diagnostic
dumps, which turns to an exponent for very large and very small numbers.
-/

namespace SignalGraph

namespace Decimal

def zeros (n : Nat) : String := String.ofList (List.replicate n '0')

def plain (d : Decimal) : String :=
  let digits := Nat.toDigits 10 d.digits
  if 0 ≤ d.exponent then String.ofList digits ++ zeros d.exponent.toNat
  else
    let places := (-d.exponent).toNat
    if places < digits.length then
      String.ofList (digits.take (digits.length - places)) ++ "." ++
        String.ofList (digits.drop (digits.length - places))
    else "0." ++ zeros (places - digits.length) ++ String.ofList digits

def scientific (d : Decimal) : String :=
  let digits := Nat.toDigits 10 d.digits
  let power : Int := d.exponent + digits.length - 1
  let fraction := digits.drop 1
  String.ofList (digits.take 1) ++ (if fraction.isEmpty then "" else "." ++ String.ofList fraction)
    ++ "e" ++ power.repr

/-- Whether the number has a part behind the point, for digits that do not end in zero. -/
def hasFraction (d : Decimal) : Bool := d.exponent < 0 ∧ d.digits ≠ 0

def atLeastPower (d : Decimal) (k : Int) : Bool :=
  k ≤ d.exponent + (Nat.toDigits 10 d.digits).length - 1

end Decimal

inductive NumberStyle where
  | message
  | stored
  /-- As `stored`, but with an exponent from `10 ^ 16` on and, zero apart, below `10 ^ -4`. -/
  | dump
deriving DecidableEq

namespace NumberStyle

def finite (style : NumberStyle) (d : Decimal) : String :=
  let whole := if d.hasFraction then d.plain else d.plain ++ ".0"
  match style with
  | .message => d.plain
  | .stored => whole
  | .dump =>
    if d.digits ≠ 0 ∧ (d.atLeastPower 16 ∨ ¬ d.atLeastPower (-4)) then d.scientific else whole

/-- The text of a number of format `f`. Only stored text shows the sign of a not-a-number. -/
def write (style : NumberStyle) (f : FloatFormat) (bits : Nat) : String :=
  let sign := if f.isNegative bits then "-" else ""
  match f.magnitude bits with
  | .nan => if style = .stored then sign ++ "NaN" else "NaN"
  | .infinite => sign ++ "inf"
  | .finite 0 _ => sign ++ style.finite ⟨0, 0⟩
  | .finite m q => sign ++ style.finite (f.shortest m q)

end NumberStyle

def Binary32.write (x : Binary32) (style : NumberStyle) : String :=
  style.write .single x.bits.toNat

def Binary64.write (x : Binary64) (style : NumberStyle) : String :=
  style.write .double x.bits.toNat

namespace Decimal

def ofDigits (digits : List Char) : Nat :=
  digits.foldl (fun n c => 10 * n + (c.toNat - '0'.toNat)) 0

def readExponent? (cs : List Char) : Option Int :=
  let digits? (cs : List Char) : Option Nat :=
    if cs.isEmpty ∨ !cs.all Char.isDigit then none else some (ofDigits cs)
  match cs with
  | '-' :: cs => (digits? cs).map fun n => -(n : Int)
  | '+' :: cs => (digits? cs).map fun n => (n : Int)
  | cs => (digits? cs).map fun n => (n : Int)

def read? (cs : List Char) : Option Decimal := do
  let whole := cs.takeWhile Char.isDigit
  let rest := cs.dropWhile Char.isDigit
  let (fraction, rest) := match rest with
    | '.' :: r => (r.takeWhile Char.isDigit, r.dropWhile Char.isDigit)
    | r => ([], r)
  if whole.isEmpty ∧ fraction.isEmpty then none
  let exponent ← match rest with
    | [] => some 0
    | 'e' :: r => readExponent? r
    | 'E' :: r => readExponent? r
    | _ => none
  some ⟨ofDigits (whole ++ fraction), exponent - fraction.length⟩

/-- The nearest 32-bit number. Powers far outside its range are not multiplied out. -/
def toBinary32 (negative : Bool) (d : Decimal) : Binary32 :=
  if d.digits = 0 then Binary32.ofRatio negative 0 1
  else if d.atLeastPower 60 then Binary32.infinity negative
  else if ¬ d.atLeastPower (-80) then Binary32.ofRatio negative 0 1
  else Binary32.ofRatio negative (d.digits * Nat.pow 10 d.exponent.toNat)
    (Nat.pow 10 (-d.exponent).toNat)

end Decimal

def Binary32.read? (cs : List Char) : Option Binary32 :=
  match cs with
  | '-' :: cs => (Decimal.read? cs).map (Decimal.toBinary32 true)
  | '+' :: cs => (Decimal.read? cs).map (Decimal.toBinary32 false)
  | cs => (Decimal.read? cs).map (Decimal.toBinary32 false)

end SignalGraph
