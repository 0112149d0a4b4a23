import SignalGraph.Proofs.Wire.Consumed

/-!
The stored states of counters and variables, over all bytes. A node takes on a state just from the bytes that
start with one: then it stores exactly those again, and otherwise it stays as it is. Texts longer than eight
bytes can count have no stored form, so they are left out.
-/

namespace SignalGraph

theorem Utf8.encode_eq_flatMap (s : String) : encode s = s.toList.flatMap String.utf8EncodeChar := by
  have bytes : s.toList.utf8Encode = s.toByteArray := String.utf8Encode_toList
  rw [encode, ← bytes, List.utf8Encode, List.data_toByteArray, List.toList_toArray]

namespace Builtin

/-- Whether some bytes start with a state of the type: two numbers of eight bytes, or a length in eight bytes
and as many bytes of valid text. -/
def StartsWithState (b : Builtin) (bytes : List UInt8) : Prop :=
  match b with
  | counter _ => 16 ≤ bytes.length
  | setVariable _ => 8 ≤ bytes.length ∧
    Wire.ofLittleEndian (bytes.take 8) ≤ (bytes.drop 8).length ∧
    ∃ cs : List Char, (bytes.drop 8).take (Wire.ofLittleEndian (bytes.take 8)) =
      cs.flatMap String.utf8EncodeChar
  | _ => bytes = []

def stateLength (b : Builtin) (bytes : List UInt8) : Nat :=
  match b with
  | counter _ => 16
  | setVariable _ => 8 + Wire.ofLittleEndian (bytes.take 8)
  | _ => 0

theorem takes_iff_startsWithState {b : Builtin} {bytes : List UInt8} :
    b.Takes bytes ↔ b.StartsWithState bytes := by
  have valid (text : List UInt8) :
      (∃ s, Utf8.encode s = text) ↔ ∃ cs : List Char, text = cs.flatMap String.utf8EncodeChar := by
    constructor
    · rintro ⟨s, rfl⟩
      exact ⟨s.toList, Utf8.encode_eq_flatMap s⟩
    · rintro ⟨cs, rfl⟩
      exact ⟨String.ofList cs, by rw [Utf8.encode_eq_flatMap, String.toList_ofList]⟩
  cases b with
  | setVariable name => simp only [Takes, Wire.StartsWithText, StartsWithState, valid]
  | _ => rfl

theorem save_eq_take {b c : Builtin} (stateful : b.type = .counter ∨ b.type = .setVariable)
    {bytes : List UInt8} (restored : b.restore bytes = (.ok (), c)) :
    c.save = bytes.take (b.stateLength bytes) := by
  obtain ⟨same, small, rest, rfl⟩ := eq_of_restore restored
  cases b with
  | entry _ | update | deltaTime | console => exact absurd stateful (by simp only [type]; decide)
  | counter s =>
      cases c with
      | counter t => exact (List.take_left' (length_saveCounter t)).symm
      | _ => exact absurd same (by simp only [type]; decide)
  | setVariable name =>
      cases c with
      | setVariable other => exact Wire.putString_eq_take small rest
      | _ => exact absurd same (by simp only [type]; decide)

theorem restore_cases {b : Builtin} (stateful : b.type = .counter ∨ b.type = .setVariable)
    (bytes : List UInt8) :
    (∃ c, b.restore bytes = (.ok (), c)) ∨
      ∃ cause, b.restore bytes = (.error (.codec cause), b) := by
  cases b with
  | entry _ | update | deltaTime | console => exact absurd stateful (by simp only [type]; decide)
  | counter s =>
      simp only [restore]
      cases Wire.decode takeCounter bytes with
      | ok t => exact .inl ⟨counter t, rfl⟩
      | error cause => exact .inr ⟨cause, rfl⟩
  | setVariable name =>
      simp only [restore]
      cases Wire.decode Wire.takeString bytes with
      | ok other => exact .inl ⟨setVariable other, rfl⟩
      | error cause => exact .inr ⟨cause, rfl⟩

structure KeepsState (b : Builtin) : Prop where
  /-- It takes on every stored state of its type, whatever its own is, and ignores what follows. -/
  restores : ∀ c, c.type = b.type → c.textSize < 2 ^ 64 → ∀ rest,
    b.restore (c.save ++ rest) = (.ok (), c)
  succeeds_iff : ∀ bytes, (∃ c, b.restore bytes = (.ok (), c)) ↔ b.StartsWithState bytes
  saves : ∀ bytes c, b.restore bytes = (.ok (), c) →
    c.type = b.type ∧ c.save = bytes.take (b.stateLength bytes)
  stays : ∀ bytes, ¬ b.StartsWithState bytes →
    ∃ cause, b.restore bytes = (.error (.codec cause), b)

/-- The states of counters and variables are taken on from their bytes and from nothing else. -/
theorem keepsState_of_type {b : Builtin} (stateful : b.type = .counter ∨ b.type = .setVariable) :
    b.KeepsState := by
  have succeeds (bytes : List UInt8) :
      (∃ c, b.restore bytes = (.ok (), c)) ↔ b.StartsWithState bytes := by
    rw [← takes_iff_startsWithState, ← exists_restore_iff]
  constructor
  case restores => exact fun c same small rest => restore_save_append stateful same small rest
  case succeeds_iff => exact succeeds
  case saves =>
    intro bytes c restored
    exact ⟨(eq_of_restore restored).1, save_eq_take stateful restored⟩
  case stays =>
    intro bytes other
    obtain ⟨c, restored⟩ | ⟨cause, refused⟩ := restore_cases stateful bytes
    · exact absurd ((succeeds bytes).mp ⟨c, restored⟩) other
    · exact ⟨cause, refused⟩

/-- The three bytes of a surrogate are no text, so the variable keeps its name. A text of two bytes is one,
and the byte behind it is ignored. -/
theorem keepsState_of_setVariable :
    let b : Builtin := .setVariable "score"
    let surrogate : List UInt8 := [3, 0, 0, 0, 0, 0, 0, 0, 0xED, 0xA0, 0x80]
    (b.type = .counter ∨ b.type = .setVariable) ∧
      (∃ cause, b.restore surrogate = (.error (.codec cause), b)) ∧
      b.restore [2, 0, 0, 0, 0, 0, 0, 0, 0xC3, 0xA9, 0x80] = (.ok (), .setVariable "é") := by
  intro b surrogate
  have keeps : b.KeepsState := keepsState_of_type (.inr rfl)
  have invalid : ¬ b.StartsWithState surrogate := by
    rw [← keeps.succeeds_iff]
    intro taken
    obtain ⟨c, taken⟩ := taken
    have refused : (b.restore surrogate).1.isOk = false := by decide +kernel
    rw [taken] at refused
    cases refused
  exact ⟨.inr rfl, keeps.stays surrogate invalid,
    keeps.restores (.setVariable "é") rfl (by decide) [0x80]⟩

end Builtin
end SignalGraph
