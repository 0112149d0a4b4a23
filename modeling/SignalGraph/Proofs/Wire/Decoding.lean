import SignalGraph.Builtin
import SignalGraph.Proofs.Graph.View
import SignalGraph.Proofs.Wire.RoundTrip

/-!
Which bytes the stored states of library nodes are taken from. Bytes behind a state are ignored, so only
the front of the bytes matters: its length, and for texts also what the length in it says. In what way other
bytes fail is left open.
-/

namespace SignalGraph

theorem Utf8.exists_decode_iff {bytes : List UInt8} :
    (∃ s, decode bytes = .ok s) ↔ ∃ s, encode s = bytes := by
  constructor
  · intro decoded
    obtain ⟨s, read⟩ := decoded
    simp only [decode, String.fromUTF8?] at read
    split at read
    · next valid found =>
        split at found
        · next isValid =>
            refine ⟨String.fromUTF8 bytes.toByteArray isValid, ?_⟩
            change bytes.toByteArray.data.toList = bytes
            rw [List.data_toByteArray, List.toList_toArray]
        · cases found
    · cases read
  · intro encoded
    obtain ⟨s, rfl⟩ := encoded
    exact ⟨s, decode_encode s⟩

namespace Wire

/-- Bytes that start with a length in eight bytes, followed by a text of that length. -/
def StartsWithText (bytes : List UInt8) : Prop :=
  8 ≤ bytes.length ∧ ofLittleEndian (bytes.take 8) ≤ (bytes.drop 8).length ∧
    ∃ s, Utf8.encode s = (bytes.drop 8).take (ofLittleEndian (bytes.take 8))

theorem takeNat_eq_ok_iff {count : Nat} {bytes rest : List UInt8} {n : Nat} :
    takeNat count bytes = .ok (n, rest) ↔
      count ≤ bytes.length ∧ n = ofLittleEndian (bytes.take count) ∧ rest = bytes.drop count := by
  simp only [takeNat]
  by_cases short : bytes.length < count
  · simp only [if_pos short]
    constructor
    · intro impossible
      cases impossible
    · intro fits
      omega
  · simp only [if_neg short, Except.ok.injEq, Prod.mk.injEq]
    constructor
    · intro same
      exact ⟨by omega, same.1.symm, same.2.symm⟩
    · intro fits
      exact ⟨fits.2.1.symm, fits.2.2.symm⟩

theorem takeBytes_eq_ok_iff {bytes content rest : List UInt8} :
    takeBytes bytes = .ok (content, rest) ↔
      8 ≤ bytes.length ∧ ofLittleEndian (bytes.take 8) ≤ (bytes.drop 8).length ∧
        content = (bytes.drop 8).take (ofLittleEndian (bytes.take 8)) ∧
        rest = (bytes.drop 8).drop (ofLittleEndian (bytes.take 8)) := by
  simp only [takeBytes, bind_eq_ok_iff, Prod.exists, takeNat_eq_ok_iff]
  constructor
  · intro taken
    obtain ⟨n, more, ⟨long, rfl, rfl⟩, taken⟩ := taken
    split at taken
    · cases taken
    · next enough =>
        cases taken
        exact ⟨long, Nat.not_lt.mp enough, rfl, rfl⟩
  · intro fits
    obtain ⟨long, enough, rfl, rfl⟩ := fits
    exact ⟨_, _, ⟨long, rfl, rfl⟩, if_neg (Nat.not_lt.mpr enough)⟩

theorem exists_decode_takeString_iff {bytes : List UInt8} :
    (∃ s, decode takeString bytes = .ok s) ↔ StartsWithText bytes := by
  have text : (∃ s, decode takeString bytes = .ok s) ↔
      ∃ content rest, takeBytes bytes = .ok (content, rest) ∧ ∃ s, Utf8.decode content = .ok s := by
    simp only [decode, takeString]
    rcases takeBytes bytes with cause | ⟨content, rest⟩
    · simp [bind, Except.bind, Except.map]
    · cases read : Utf8.decode content <;>
        simp [bind, Except.bind, Except.map, read, pure, Except.pure]
  simp only [text, takeBytes_eq_ok_iff, Utf8.exists_decode_iff, StartsWithText]
  constructor
  · intro taken
    obtain ⟨content, rest, ⟨long, enough, rfl, _⟩, valid⟩ := taken
    exact ⟨long, enough, valid⟩
  · intro starts
    obtain ⟨long, enough, valid⟩ := starts
    exact ⟨_, _, ⟨long, enough, rfl, rfl⟩, valid⟩

end Wire

namespace Builtin

theorem exists_decode_takeCounter_iff {bytes : List UInt8} :
    (∃ s, Wire.decode takeCounter bytes = .ok s) ↔ 16 ≤ bytes.length := by
  have second : (bytes.drop 8).length = bytes.length - 8 := List.length_drop
  simp only [Wire.decode, takeCounter, Wire.takeInt64, Wire.takeNat]
  by_cases first : bytes.length < 8
  · simp [first, bind, Except.bind, Except.map]
    omega
  · by_cases rest : bytes.length - 8 < 8
    · simp [first, rest, bind, Except.bind, Except.map, pure, Except.pure]
      omega
    · simp [first, rest, bind, Except.bind, Except.map, pure, Except.pure]
      omega

def Takes (b : Builtin) (bytes : List UInt8) : Prop :=
  match b with
  | counter _ => 16 ≤ bytes.length
  | setVariable _ => Wire.StartsWithText bytes
  | _ => bytes = []

theorem exists_restore_iff {b : Builtin} {bytes : List UInt8} :
    (∃ c, b.restore bytes = (.ok (), c)) ↔ b.Takes bytes := by
  cases b with
  | entry _ | update | deltaTime | console => cases bytes <;> simp [restore, Takes]
  | counter s =>
      rw [Takes, ← exists_decode_takeCounter_iff]
      simp only [restore]
      cases Wire.decode takeCounter bytes <;> simp
  | setVariable name =>
      rw [Takes, ← Wire.exists_decode_takeString_iff]
      simp only [restore]
      cases Wire.decode Wire.takeString bytes <;> simp

end Builtin
end SignalGraph
