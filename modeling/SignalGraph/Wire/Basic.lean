import SignalGraph.Text.Utf8

/-!
The binary form of stored state. Integers have a fixed width and come least byte first, texts and
byte strings follow their length in eight bytes, alternatives follow their number in four. Decoding
takes what it needs from the front and leaves the rest.
-/

namespace SignalGraph.Wire

inductive DecodeError where
  | unexpectedEnd
  | lengthTooLarge
  | invalidText (fault : Utf8.Fault)
  | invalidBool (found : Nat)
  | invalidAlternative (found count : Nat)
  | invalidIdLength (found : Nat)
deriving DecidableEq

namespace DecodeError

def message : DecodeError → String
  | unexpectedEnd => "io error: unexpected end of file"
  | lengthTooLarge => "io error: "
  | invalidText fault => "string is not valid utf8: " ++ fault.message
  | invalidBool found => s!"invalid u8 while decoding bool, expected 0 or 1, found {found}"
  | invalidAlternative found count =>
    "invalid value: integer \x60" ++ found.repr ++ "\x60, expected variant index 0 <= i < " ++
      count.repr
  | invalidIdLength found =>
    s!"UUID parsing failed: invalid length: expected 16 bytes, found {found}"

end DecodeError

/-- Takes a value from the front of some bytes. -/
abbrev Decoder (α : Type) := List UInt8 → Except DecodeError (α × List UInt8)

def littleEndian : (count : Nat) → Nat → List UInt8
  | 0, _ => []
  | count + 1, n => UInt8.ofNat (n % 256) :: littleEndian count (n / 256)

def ofLittleEndian : List UInt8 → Nat
  | [] => 0
  | b :: bytes => b.toNat + 256 * ofLittleEndian bytes

def takeNat (count : Nat) : Decoder Nat := fun bytes =>
  if bytes.length < count then .error .unexpectedEnd
  else .ok (ofLittleEndian (bytes.take count), bytes.drop count)

def takeInt64 : Decoder Int64 := fun bytes => do
  let (n, rest) ← takeNat 8 bytes
  return (Int64.ofNat n, rest)

def putInt64 (i : Int64) : List UInt8 := littleEndian 8 i.toUInt64.toNat

def putUInt64 (n : UInt64) : List UInt8 := littleEndian 8 n.toNat

def putUInt32 (n : UInt32) : List UInt8 := littleEndian 4 n.toNat

def takeBytes : Decoder (List UInt8) := fun bytes => do
  let (length, rest) ← takeNat 8 bytes
  if rest.length < length then .error .lengthTooLarge
  else return (rest.take length, rest.drop length)

def putBytes (bytes : List UInt8) : List UInt8 := littleEndian 8 bytes.length ++ bytes

def takeString : Decoder String := fun bytes => do
  let (text, rest) ← takeBytes bytes
  match Utf8.decode text with
  | .ok s => return (s, rest)
  | .error fault => .error (.invalidText fault)

def putString (s : String) : List UInt8 := putBytes (Utf8.encode s)

def takeBool : Decoder Bool := fun bytes => do
  let (n, rest) ← takeNat 1 bytes
  match n with
  | 0 => return (false, rest)
  | 1 => return (true, rest)
  | n => .error (.invalidBool n)

def putBool (b : Bool) : List UInt8 := [if b then 1 else 0]

def takeAlternative (count : Nat) : Decoder Nat := fun bytes => do
  let (n, rest) ← takeNat 4 bytes
  if n < count then return (n, rest) else .error (.invalidAlternative n count)

def putAlternative (n : Nat) : List UInt8 := littleEndian 4 n

/-- Reads a value from the front of some bytes and ignores what follows it. -/
def decode {α : Type} (d : Decoder α) (bytes : List UInt8) : Except DecodeError α :=
  (d bytes).map (·.1)

end SignalGraph.Wire
