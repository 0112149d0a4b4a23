import SignalGraph.Document.Basic
import SignalGraph.Value
import SignalGraph.Wire.Basic

/-!
The binary form of values, of the types of spots, and of addresses. Alternatives are numbered in the
order of their definition.
-/

namespace SignalGraph.Wire

def putId (id : InstanceId) : List UInt8 := putBytes id.bytes

def takeId : Decoder InstanceId := fun bytes => do
  let (found, rest) ← takeBytes bytes
  match InstanceId.ofBytes? found with
  | some id => return (id, rest)
  | none => .error (.invalidIdLength found.length)

def putValue : Value → List UInt8
  | .float x => putAlternative 0 ++ putUInt32 x.bits
  | .int i => putAlternative 1 ++ putInt64 i
  | .bool b => putAlternative 2 ++ putBool b
  | .string s => putAlternative 3 ++ putString s
  | .object h => putAlternative 4 ++ putUInt64 h
  | .instanceRef id => putAlternative 5 ++ putId id

def takeValue : Decoder Value := fun bytes => do
  let (n, rest) ← takeAlternative 6 bytes
  match n with
  | 0 => let (bits, rest) ← takeNat 4 rest; return (.float ⟨UInt32.ofNat bits⟩, rest)
  | 1 => let (i, rest) ← takeInt64 rest; return (.int i, rest)
  | 2 => let (b, rest) ← takeBool rest; return (.bool b, rest)
  | 3 => let (s, rest) ← takeString rest; return (.string s, rest)
  | 4 => let (h, rest) ← takeNat 8 rest; return (.object (UInt64.ofNat h), rest)
  | _ => let (id, rest) ← takeId rest; return (.instanceRef id, rest)

def putCategory : Category → List UInt8
  | .any => putAlternative 0
  | .object => putAlternative 1
  | .float => putAlternative 2
  | .int => putAlternative 3
  | .bool => putAlternative 4
  | .string => putAlternative 5
  | .instanceRef => putAlternative 6
  | .custom name => putAlternative 7 ++ putString name

def takeCategory : Decoder Category := fun bytes => do
  let (n, rest) ← takeAlternative 8 bytes
  match n with
  | 0 => return (.any, rest)
  | 1 => return (.object, rest)
  | 2 => return (.float, rest)
  | 3 => return (.int, rest)
  | 4 => return (.bool, rest)
  | 5 => return (.string, rest)
  | 6 => return (.instanceRef, rest)
  | _ => let (name, rest) ← takeString rest; return (.custom name, rest)

def putDirection : Direction → List UInt8
  | .input => putAlternative 0
  | .output => putAlternative 1

def takeDirection : Decoder Direction := fun bytes => do
  let (n, rest) ← takeAlternative 2 bytes
  return (if n = 0 then .input else .output, rest)

def putArity : Arity → List UInt8
  | .unbounded => putAlternative 0
  | .atMost limit => putAlternative 1 ++ putUInt32 limit

def takeArity : Decoder Arity := fun bytes => do
  let (n, rest) ← takeAlternative 2 bytes
  if n = 0 then return (.unbounded, rest)
  else
    let (limit, rest) ← takeNat 4 rest
    return (.atMost (UInt32.ofNat limit), rest)

def putTypeKey (k : TypeKey) : List UInt8 := putString k.name ++ putString k.category

def takeTypeKey : Decoder TypeKey := fun bytes => do
  let (name, rest) ← takeString bytes
  let (category, rest) ← takeString rest
  return (⟨name, category⟩, rest)

def putAddress (a : SpotAddress) : List UInt8 := putString a.node ++ putString a.spot

def takeAddress : Decoder SpotAddress := fun bytes => do
  let (node, rest) ← takeString bytes
  let (spot, rest) ← takeString rest
  return (⟨node, spot⟩, rest)

def putLink (l : LinkRecord) : List UInt8 := putAddress l.a ++ putAddress l.b

def takeLink : Decoder LinkRecord := fun bytes => do
  let (a, rest) ← takeAddress bytes
  let (b, rest) ← takeAddress rest
  return (⟨a, b⟩, rest)

end SignalGraph.Wire
