import SignalGraph.Number.Decimal
import SignalGraph.Ron.Reader
import SignalGraph.Text.Hex

/-!
Numbers in stored text. Integers may be written in four bases, with low lines among the digits. The
name of their type may follow, but not behind hexadecimal or octal digits. Floating point numbers
are decimal, and may likewise name their type.
-/

namespace SignalGraph.Ron

structure IntType where
  signed : Bool
  bits : Nat
deriving DecidableEq

namespace IntType

def u8 : IntType := ⟨false, 8⟩
def u32 : IntType := ⟨false, 32⟩
def u64 : IntType := ⟨false, 64⟩
def i64 : IntType := ⟨true, 64⟩

def holds (t : IntType) (i : Int) : Bool :=
  if t.signed then -(1 <<< (t.bits - 1) : Nat) ≤ i ∧ i < (1 <<< (t.bits - 1) : Nat)
  else 0 ≤ i ∧ i < (1 <<< t.bits : Nat)

def ofSuffix? (s : String) : Option IntType :=
  [("u8", ⟨false, 8⟩), ("u16", ⟨false, 16⟩), ("u32", ⟨false, 32⟩), ("u64", ⟨false, 64⟩),
   ("i8", ⟨true, 8⟩), ("i16", ⟨true, 16⟩), ("i32", ⟨true, 32⟩), ("i64", ⟨true, 64⟩)].lookup s

end IntType

def isDigitOrGap (c : Char) : Bool := (Text.hexValue? c).isSome || c = '_'

/-- The number that digits of a base spell, low lines apart. -/
def ofBase? (base : Nat) (digits : List Char) : Option Nat :=
  (digits.filter (· ≠ '_')).foldlM (fun n c =>
    match Text.hexValue? c with
    | some d => if d < base then some (base * n + d) else none
    | none => none) 0

def sign : List Char → Bool × List Char
  | '-' :: s => (true, s)
  | '+' :: s => (false, s)
  | s => (false, s)

def base : List Char → Nat × List Char
  | '0' :: 'x' :: s => (16, s)
  | '0' :: 'b' :: s => (2, s)
  | '0' :: 'o' :: s => (8, s)
  | s => (10, s)

def hexByte : List Char → Except Error (UInt8 × List Char)
  | c :: d :: s =>
    match Text.hexValue? c, Text.hexValue? d with
    | some c, some d => .ok (UInt8.ofNat (16 * c + d), s)
    | _, _ => .error .malformed
  | _ => .error .malformed

/-- The byte that an escape stands for, behind the backslash. -/
def byteEscape : List Char → Except Error (UInt8 × List Char)
  | 'x' :: s => hexByte s
  | c :: s =>
    match [('\'', 0x27), ('"', 0x22), ('\\', 0x5C), ('n', 0x0A), ('r', 0x0D), ('t', 0x09),
        ('0', 0)].lookup c with
    | some b => .ok (b, s)
    | none => .error .malformed
  | [] => .error .malformed

def byteLiteral (s : List Char) : Except Error (UInt8 × List Char) := do
  let (b, s) ← match s with
    | '\\' :: s => byteEscape s
    | c :: s => if c.toNat < 0x80 then .ok (UInt8.ofNat c.toNat, s) else .error .malformed
    | [] => .error .malformed
  return (b, ← expect '\'' s)

def integerLiteral (s : List Char) : Except Error ((Int × Option IntType) × List Char) :=
  match s with
  | 'b' :: '\'' :: s => do
    let (b, s) ← byteLiteral s
    return ((b.toNat, some .u8), s)
  | s =>
    let (negative, s) := sign s
    let (base, s) := base s
    let digits := s.takeWhile isDigitOrGap
    let s := s.drop digits.length
    let suffix := s.takeWhile Text.isIdentifierPart
    if digits.isEmpty ∨ digits.head? = some '_' then .error .malformed
    else
      match ofBase? base digits with
      | none => .error .malformed
      | some n =>
        let i : Int := if negative then -n else n
        if suffix.isEmpty then .ok ((i, none), s)
        else if base = 16 ∨ base = 8 then .error .malformed
        else
          match IntType.ofSuffix? (String.ofList suffix) with
          | some t => .ok ((i, some t), s.drop suffix.length)
          | none => .error .malformed

def integer (t : IntType) : Reader Int := fun _ s => do
  let ((i, suffix), s) ← integerLiteral s
  if t.holds i ∧ (suffix = none ∨ suffix = some t) then return (i, s) else .error .malformed

inductive FloatLiteral where
  | infinite (negative : Bool)
  | nan (negative : Bool)
  /-- An optional sign and a decimal, low lines taken out. -/
  | decimal (digits : List Char)

inductive FloatSuffix where
  | f32
  | f64
deriving DecidableEq

def specialFloat? (s : List Char) : Option ((FloatLiteral × Option FloatSuffix) × List Char) :=
  [("inf", FloatLiteral.infinite false), ("+inf", .infinite false), ("-inf", .infinite true),
   ("NaN", .nan false), ("+NaN", .nan false), ("-NaN", .nan true)].findSome? fun (word, value) =>
    [("", none), ("f32", some FloatSuffix.f32), ("f64", some .f64)].findSome?
      fun (ending, suffix) => (keyword? (word ++ ending) s).map ((value, suffix), ·)

def isFloatPart (c : Char) : Bool :=
  c.isDigit || c = 'e' || c = 'E' || c = '.' || c = '+' || c = '-' || c = '_'

/-- Takes low lines out of a number, where they follow a digit or the mark of an exponent. -/
def dropGaps : (afterDigit : Bool) → List Char → Option (List Char)
  | _, [] => some []
  | afterDigit, c :: s =>
    if c = '_' then (if afterDigit then dropGaps true s else none)
    else
      let afterDigit := if c = '.' then false else afterDigit || (c ≠ '+' && c ≠ '-')
      (dropGaps afterDigit s).map (c :: ·)

def floatLiteral (s : List Char) :
    Except Error ((FloatLiteral × Option FloatSuffix) × List Char) :=
  match specialFloat? s with
  | some result => .ok result
  | none =>
    let run := s.takeWhile isFloatPart
    let s := s.drop run.length
    match dropGaps false run with
    | none => .error .malformed
    | some digits =>
      match Binary32.read? digits with
      | none => .error .malformed
      | some _ =>
        match keyword? "f32" s, keyword? "f64" s with
        | some s, _ => .ok ((.decimal digits, some .f32), s)
        | _, some s => .ok ((.decimal digits, some .f64), s)
        | none, none => .ok ((.decimal digits, none), s)

def single : Reader Binary32 := fun _ s => do
  match ← floatLiteral s with
  | ((_, some .f64), _) => .error .malformed
  | ((.infinite negative, _), s) => return (.infinity negative, s)
  | ((.nan negative, _), s) => return (.nan negative, s)
  | ((.decimal digits, _), s) =>
    match Binary32.read? digits with
    | some x => return (x, s)
    | none => .error .malformed

def looksFloat (s : List Char) : Bool :=
  let (_, s) := sign s
  (s.takeWhile isDigitOrGap).length < (s.takeWhile isFloatPart).length

/-- Skips a number of any type. Integers that no type holds pass as floating point numbers. -/
def skipNumber (s : List Char) : Except Error (List Char) :=
  let asFloat := (floatLiteral s).map (·.2)
  if looksFloat s then asFloat
  else
    match integerLiteral s with
    | .error _ => asFloat
    | .ok ((i, some t), s) => if t.holds i then .ok s else .error .malformed
    | .ok ((i, none), s) => if IntType.i64.holds i ∨ IntType.u64.holds i then .ok s else asFloat

end SignalGraph.Ron
