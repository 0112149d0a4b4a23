import SignalGraph.Proofs.Builtin.Hosted
import SignalGraph.Proofs.Wire.RoundTrip

/-!
What is kept of a library node when it is stored. A new node of its type that takes on the stored bytes
becomes the same again, except that an entry forgets which instance began it; of that nothing depends
that a signal sets off.
-/

namespace SignalGraph.Builtin

variable {β : Type}

/-- A behavior as far as it is stored. -/
def stored : Builtin → Builtin
  | entry _ => entry none
  | b => b

def initial : Builtin → Builtin
  | entry _ => entry none
  | counter _ => counter ⟨0, 1⟩
  | setVariable _ => setVariable ""
  | b => b

def textSize : Builtin → Nat
  | setVariable name => name.utf8ByteSize
  | _ => 0

@[simp]
theorem save_stored (b : Builtin) : b.stored.save = b.save := by
  cases b <;> rfl

theorem stored_stored (b : Builtin) : b.stored.stored = b.stored := by
  cases b <;> rfl

@[simp]
theorem spots_initial (b : Builtin) : b.initial.spots = b.spots := by
  cases b <;> rfl

theorem work_stored (wrap : Builtin → β) (self : NodeKey) (args : List Value) (w : Wave β)
    (b : Builtin) : b.stored.work wrap self args w = b.work wrap self args w := by
  cases b <;> rfl

theorem create_registry (wrap : Builtin → β) (b : Builtin) (call : Nat) :
    (registry wrap).create b.type call = .ok (wrap b.initial) := by
  cases b <;> rfl

theorem decode_saveCounter (s : CounterState) (rest : List UInt8) :
    Wire.decode takeCounter (saveCounter s ++ rest) = .ok s := by
  have count := Wire.takeInt64_putInt64 s.count (Wire.putInt64 s.step ++ rest)
  have step := Wire.takeInt64_putInt64 s.step rest
  simp only [Wire.decode, takeCounter, saveCounter, List.append_assoc, bind, Except.bind, count, step]
  rfl

theorem decode_putString {name : String} (small : name.utf8ByteSize < 2 ^ 64) (rest : List UInt8) :
    Wire.decode Wire.takeString (Wire.putString name ++ rest) = .ok name := by
  rw [Wire.decode, Wire.takeString_putString small rest]
  rfl

/-- The types whose nodes keep a state take it on from its bytes, whatever follows them and whatever the
state was before. -/
theorem restore_save_append {b c : Builtin} (stateful : b.type = .counter ∨ b.type = .setVariable)
    (same : c.type = b.type) (small : c.textSize < 2 ^ 64) (rest : List UInt8) :
    b.restore (c.save ++ rest) = (.ok (), c) := by
  cases b with
  | entry _ | update | deltaTime | console => exact absurd stateful (by simp only [type]; decide)
  | counter s =>
      cases c with
      | counter t => simp only [save, restore, decode_saveCounter]
      | _ => exact absurd same (by simp only [type]; decide)
  | setVariable name =>
      cases c with
      | setVariable other => simp only [save, restore, decode_putString small]
      | _ => exact absurd same (by simp only [type]; decide)

theorem restore_save {b : Builtin} (small : b.textSize < 2 ^ 64) :
    if b.save.isEmpty then b.initial = b.stored
    else b.initial.restore b.save = (.ok (), b.stored) := by
  cases b with
  | entry _ | update | deltaTime | console => rfl
  | counter s =>
      have bytes : (saveCounter s).isEmpty = false := by
        simp [saveCounter, Wire.putInt64, Wire.littleEndian]
      have taken := restore_save_append (b := .counter ⟨0, 1⟩) (c := .counter s) (.inl rfl) rfl small []
      rw [List.append_nil] at taken
      simp only [save, bytes, Bool.false_eq_true, if_false]
      exact taken
  | setVariable name =>
      have bytes : (Wire.putString name).isEmpty = false := by
        simp [Wire.putString, Wire.putBytes, Wire.littleEndian]
      have taken := restore_save_append (b := .setVariable "") (c := .setVariable name) (.inr rfl) rfl
        small []
      rw [List.append_nil] at taken
      simp only [save, bytes, Bool.false_eq_true, if_false]
      exact taken

end SignalGraph.Builtin
