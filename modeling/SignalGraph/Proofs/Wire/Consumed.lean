import SignalGraph.Proofs.Builtin.Storing
import SignalGraph.Proofs.Wire.Decoding

/-!
What a decoder takes from the front of some bytes is what its value is encoded as, so a node that has taken on
a state stores the part of the bytes that it used. With the other direction this makes the binary form of a
value unique. How many bytes are used is said for the states of library nodes only.
-/

namespace SignalGraph

theorem Utf8.encode_of_decode {bytes : List UInt8} {s : String} (read : decode bytes = .ok s) :
    encode s = bytes := by
  obtain ⟨t, rfl⟩ := exists_decode_iff.mp ⟨s, read⟩
  cases (decode_encode t).symm.trans read
  rfl

namespace Wire

theorem ofLittleEndian_lt (bytes : List UInt8) : ofLittleEndian bytes < 256 ^ bytes.length := by
  induction bytes with
  | nil => decide
  | cons b bytes ih =>
      have byte := b.toNat_lt
      rw [ofLittleEndian, List.length_cons, Nat.pow_succ]
      omega

theorem littleEndian_ofLittleEndian (bytes : List UInt8) :
    littleEndian bytes.length (ofLittleEndian bytes) = bytes := by
  induction bytes with
  | nil => rfl
  | cons b bytes ih =>
      have byte : b.toNat < 256 := b.toNat_lt
      have low : (b.toNat + 256 * ofLittleEndian bytes) % 256 = b.toNat := by omega
      have high : (b.toNat + 256 * ofLittleEndian bytes) / 256 = ofLittleEndian bytes := by omega
      rw [ofLittleEndian, List.length_cons, littleEndian, low, high, ih, UInt8.ofNat_toNat]

theorem eq_of_takeNat {count n : Nat} {bytes rest : List UInt8}
    (taken : takeNat count bytes = .ok (n, rest)) :
    n < 256 ^ count ∧ bytes = littleEndian count n ++ rest := by
  obtain ⟨long, rfl, rfl⟩ := takeNat_eq_ok_iff.mp taken
  have length : (bytes.take count).length = count := List.length_take_of_le long
  have bound := ofLittleEndian_lt (bytes.take count)
  have back := littleEndian_ofLittleEndian (bytes.take count)
  rw [length] at bound back
  exact ⟨bound, by rw [back, List.take_append_drop]⟩

theorem eq_of_takeInt64 {i : Int64} {bytes rest : List UInt8}
    (taken : takeInt64 bytes = .ok (i, rest)) : bytes = putInt64 i ++ rest := by
  obtain ⟨⟨n, more⟩, first, same⟩ := bind_eq_ok_iff.mp taken
  cases same
  obtain ⟨bound, whole⟩ := eq_of_takeNat first
  have back : (Int64.ofNat n).toUInt64.toNat = n := Nat.mod_eq_of_lt bound
  rw [putInt64, back]
  exact whole

theorem eq_of_takeBytes {content bytes rest : List UInt8}
    (taken : takeBytes bytes = .ok (content, rest)) :
    content.length < 2 ^ 64 ∧ bytes = putBytes content ++ rest := by
  obtain ⟨⟨n, more⟩, first, taken⟩ := bind_eq_ok_iff.mp taken
  obtain ⟨bound, whole⟩ := eq_of_takeNat first
  simp only at taken
  split at taken
  · cases taken
  next enough =>
  cases taken
  have length : (more.take n).length = n := List.length_take_of_le (Nat.not_lt.mp enough)
  rw [putBytes, length, List.append_assoc, List.take_append_drop]
  exact ⟨bound, whole⟩

theorem eq_of_takeString {s : String} {bytes rest : List UInt8}
    (taken : takeString bytes = .ok (s, rest)) :
    s.utf8ByteSize < 2 ^ 64 ∧ bytes = putString s ++ rest := by
  obtain ⟨⟨content, more⟩, first, taken⟩ := bind_eq_ok_iff.mp taken
  simp only at taken
  split at taken
  · next t read =>
      cases taken
      rw [← Utf8.length_encode, putString, Utf8.encode_of_decode read]
      exact eq_of_takeBytes first
  · cases taken

theorem putString_eq_take {s : String} (small : s.utf8ByteSize < 2 ^ 64) (rest : List UInt8) :
    putString s = (putString s ++ rest).take (8 + ofLittleEndian ((putString s ++ rest).take 8)) := by
  have size : (Utf8.encode s).length = s.utf8ByteSize := Utf8.length_encode s
  have front : (putString s ++ rest).take 8 = littleEndian 8 s.utf8ByteSize := by
    rw [putString, putBytes, List.append_assoc, size, List.take_left' (length_littleEndian 8 _)]
  have length : (putString s).length = 8 + s.utf8ByteSize := by
    rw [putString, putBytes, List.length_append, length_littleEndian, size]
  rw [front, ofLittleEndian_littleEndian small, ← length, List.take_left]

end Wire

namespace Builtin

theorem length_saveCounter (s : CounterState) : (saveCounter s).length = 16 := by
  simp [saveCounter, Wire.putInt64]

theorem eq_of_decode_takeCounter {s : CounterState} {bytes : List UInt8}
    (decoded : Wire.decode takeCounter bytes = .ok s) : ∃ rest, bytes = saveCounter s ++ rest := by
  rw [Wire.decode] at decoded
  cases taken : takeCounter bytes with
  | error cause =>
      rw [taken] at decoded
      cases decoded
  | ok answer =>
      rw [taken] at decoded
      cases decoded
      obtain ⟨⟨count, more⟩, first, taken⟩ := bind_eq_ok_iff.mp taken
      obtain ⟨⟨step, rest⟩, second, same⟩ := bind_eq_ok_iff.mp taken
      cases same
      exact ⟨rest, by rw [Wire.eq_of_takeInt64 first, Wire.eq_of_takeInt64 second, saveCounter,
        List.append_assoc]⟩

theorem eq_of_decode_takeString {name : String} {bytes : List UInt8}
    (decoded : Wire.decode Wire.takeString bytes = .ok name) :
    name.utf8ByteSize < 2 ^ 64 ∧ ∃ rest, bytes = Wire.putString name ++ rest := by
  rw [Wire.decode] at decoded
  cases taken : Wire.takeString bytes with
  | error cause =>
      rw [taken] at decoded
      cases decoded
  | ok answer =>
      rw [taken] at decoded
      cases decoded
      obtain ⟨small, whole⟩ := Wire.eq_of_takeString taken
      exact ⟨small, answer.2, whole⟩

/-- A node that takes on some bytes stays of its type, and stores the front of those bytes. -/
theorem eq_of_restore {b c : Builtin} {bytes : List UInt8}
    (restored : b.restore bytes = (.ok (), c)) :
    c.type = b.type ∧ c.textSize < 2 ^ 64 ∧ ∃ rest, bytes = c.save ++ rest := by
  have small : 0 < 2 ^ 64 := by decide
  cases b with
  | entry _ | update | deltaTime | console =>
      simp only [restore] at restored
      split at restored
      · next none =>
          cases restored
          exact ⟨rfl, small, [], List.isEmpty_iff.mp none⟩
      · cases restored
  | counter s =>
      simp only [restore] at restored
      split at restored
      · next t decoded =>
          cases restored
          exact ⟨rfl, small, eq_of_decode_takeCounter decoded⟩
      · cases restored
  | setVariable name =>
      simp only [restore] at restored
      split at restored
      · next t decoded =>
          cases restored
          exact ⟨rfl, eq_of_decode_takeString decoded⟩
      · cases restored

end Builtin
end SignalGraph
