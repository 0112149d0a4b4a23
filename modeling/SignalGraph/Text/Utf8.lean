/-!
Text as bytes. Whether bytes are valid is decided by the core library's predicate, so reading back
an encoded text needs no argument of our own; `fault?` only says where and how bytes go wrong.
-/

namespace SignalGraph.Utf8

def encode (s : String) : List UInt8 := s.toByteArray.data.toList

inductive Front where
  | char (c : Char) (rest : List UInt8)
  /-- The first `length` bytes start no character. -/
  | invalid (length : Nat)
  | incomplete
deriving DecidableEq

def tail? (b : UInt8) : Option Nat := if b.toNat / 64 = 2 then some (b.toNat % 64) else none

/-- Whether a second byte may follow the first byte of three: no overlong forms, no surrogates. -/
def secondOfThree (first second : Nat) : Bool :=
  (second / 64 = 2) && (first != 0xE0 || 0xA0 ≤ second) && (first != 0xED || second < 0xA0)

/-- Whether a second byte may follow the first byte of four: no overlong forms, nothing past the
last code point. -/
def secondOfFour (first second : Nat) : Bool :=
  (second / 64 = 2) && (first != 0xF0 || 0x90 ≤ second) && (first != 0xF4 || second < 0x90)

def front (b : UInt8) (rest : List UInt8) : Front :=
  let first := b.toNat
  if first < 0x80 then .char (Char.ofNat first) rest
  else if 0xC2 ≤ first ∧ first < 0xE0 then
    match rest with
    | [] => .incomplete
    | b₁ :: rest =>
      match tail? b₁ with
      | none => .invalid 1
      | some x => .char (Char.ofNat (first % 32 * 64 + x)) rest
  else if 0xE0 ≤ first ∧ first < 0xF0 then
    match rest with
    | [] => .incomplete
    | b₁ :: rest =>
      if !secondOfThree first b₁.toNat then .invalid 1 else
        match rest with
        | [] => .incomplete
        | b₂ :: rest =>
          match tail? b₂ with
          | none => .invalid 2
          | some y => .char (Char.ofNat ((first % 16 * 64 + b₁.toNat % 64) * 64 + y)) rest
  else if 0xF0 ≤ first ∧ first < 0xF5 then
    match rest with
    | [] => .incomplete
    | b₁ :: rest =>
      if !secondOfFour first b₁.toNat then .invalid 1 else
        match rest with
        | [] => .incomplete
        | b₂ :: rest =>
          match tail? b₂ with
          | none => .invalid 2
          | some y =>
            match rest with
            | [] => .incomplete
            | b₃ :: rest =>
              match tail? b₃ with
              | none => .invalid 3
              | some z =>
                .char (Char.ofNat (((first % 8 * 64 + b₁.toNat % 64) * 64 + y) * 64 + z)) rest
  else .invalid 1

inductive Fault where
  | invalid (length index : Nat)
  | incomplete (index : Nat)
deriving DecidableEq

namespace Fault

def message : Fault → String
  | .invalid length index => s!"invalid utf-8 sequence of {length} bytes from index {index}"
  | .incomplete index => s!"incomplete utf-8 byte sequence from index {index}"

end Fault

/-- The first fault of some bytes; `fuel` bounds the characters read and `index` counts the bytes
before them. -/
def fault? : (fuel index : Nat) → List UInt8 → Option Fault
  | 0, _, _ => none
  | _ + 1, _, [] => none
  | fuel + 1, index, b :: rest =>
    match front b rest with
    | .char _ rest' => fault? fuel (index + (rest.length + 1 - rest'.length)) rest'
    | .invalid length => some (.invalid length index)
    | .incomplete => some (.incomplete index)

def decode (bytes : List UInt8) : Except Fault String :=
  match String.fromUTF8? bytes.toByteArray with
  | some s => .ok s
  | none => .error ((fault? bytes.length 0 bytes).getD (.incomplete 0))

def lossyChars : (fuel : Nat) → List UInt8 → List Char
  | 0, _ => []
  | _ + 1, [] => []
  | fuel + 1, b :: rest =>
    match front b rest with
    | .char c rest => c :: lossyChars fuel rest
    | .invalid length => '\uFFFD' :: lossyChars fuel ((b :: rest).drop length)
    | .incomplete => ['\uFFFD']

def lossy (bytes : List UInt8) : String := String.ofList (lossyChars bytes.length bytes)

end SignalGraph.Utf8
