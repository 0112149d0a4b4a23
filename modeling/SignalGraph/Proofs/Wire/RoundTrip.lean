import Mathlib.Algebra.Group.Nat.Defs
import SignalGraph.Wire.Basic

/-!
Taking back what was put: integers of 64 bits, byte strings and texts. What follows them is left as it
is. Lengths are written in eight bytes, so this is about strings that are shorter than that allows.
-/

namespace SignalGraph

theorem Utf8.decode_encode (s : String) : decode (encode s) = .ok s := by
  have bytes : (encode s).toByteArray = s.toByteArray := by
    apply ByteArray.ext
    rw [encode, List.data_toByteArray, Array.toArray_toList]
  have valid : s.toByteArray.IsValidUTF8 := s.isValidUTF8
  simp only [decode, bytes, String.fromUTF8?, dif_pos valid]
  rfl

theorem Utf8.length_encode (s : String) : (encode s).length = s.utf8ByteSize := rfl

namespace Wire

@[simp]
theorem length_littleEndian (count n : Nat) : (littleEndian count n).length = count := by
  induction count generalizing n with
  | zero => rfl
  | succ count ih => simp [littleEndian, ih]

theorem ofLittleEndian_littleEndian {count n : Nat} (small : n < 256 ^ count) :
    ofLittleEndian (littleEndian count n) = n := by
  induction count generalizing n with
  | zero => simp_all [littleEndian, ofLittleEndian]
  | succ count ih =>
      have rest : n / 256 < 256 ^ count := by
        rw [Nat.pow_succ] at small
        exact Nat.div_lt_of_lt_mul (by omega)
      have first : (UInt8.ofNat (n % 256)).toNat = n % 256 := by simp
      rw [littleEndian, ofLittleEndian, ih rest, first]
      omega

theorem takeNat_littleEndian {count n : Nat} (small : n < 256 ^ count) (rest : List UInt8) :
    takeNat count (littleEndian count n ++ rest) = .ok (n, rest) := by
  have enough : ¬ (littleEndian count n ++ rest).length < count := by simp
  rw [takeNat, if_neg enough, List.take_left' (length_littleEndian count n),
    List.drop_left' (length_littleEndian count n), ofLittleEndian_littleEndian small]

theorem takeInt64_putInt64 (i : Int64) (rest : List UInt8) :
    takeInt64 (putInt64 i ++ rest) = .ok (i, rest) := by
  have small : i.toUInt64.toNat < 256 ^ 8 := i.toUInt64.toNat_lt
  rw [takeInt64, putInt64, takeNat_littleEndian small]
  have same : Int64.ofNat i.toUInt64.toNat = i := by
    apply Int64.toBitVec.inj
    simp
  change Except.ok (Int64.ofNat i.toUInt64.toNat, rest) = _
  rw [same]

theorem takeBytes_putBytes {bytes : List UInt8} (small : bytes.length < 2 ^ 64)
    (rest : List UInt8) : takeBytes (putBytes bytes ++ rest) = .ok (bytes, rest) := by
  have enough : ¬ (bytes ++ rest).length < bytes.length := by simp
  rw [takeBytes, putBytes, List.append_assoc, takeNat_littleEndian small]
  simp only [bind, Except.bind, if_neg enough, List.take_left, List.drop_left]
  rfl

theorem takeString_putString {s : String} (small : s.utf8ByteSize < 2 ^ 64) (rest : List UInt8) :
    takeString (putString s ++ rest) = .ok (s, rest) := by
  rw [takeString, putString, takeBytes_putBytes (by rwa [Utf8.length_encode])]
  simp only [bind, Except.bind, Utf8.decode_encode]
  rfl

end Wire
end SignalGraph
