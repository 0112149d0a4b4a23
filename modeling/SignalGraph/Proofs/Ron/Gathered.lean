import SignalGraph.Proofs.Graph.View
import SignalGraph.Proofs.Ron.Single

/-!
What holds of every record that a text is read as. A property of what was gathered that every field keeps is a
property of the whole, whatever order, blanks and unknown fields the text has.
-/

namespace SignalGraph.Ron

theorem separated_keeps {σ : Type} {P : σ → Prop} {close : Char}
    {element : σ → List Char → Except Error (σ × List Char)}
    (keeps : ∀ {a s b rest}, P a → element a s = .ok (b, rest) → P b) {fuel : Nat} {a b : σ}
    {s rest : List Char} (start : P a) (found : separated close element fuel a s = .ok (b, rest)) : P b := by
  induction fuel generalizing a s with
  | zero => cases found
  | succ fuel ih =>
      rw [separated] at found
      obtain ⟨s, -, found⟩ := bind_eq_ok_iff.mp found
      split at found
      case h_1 => cases found
      case h_2 c s =>
        split at found
        case isTrue =>
          cases found
          exact start
        case isFalse =>
          obtain ⟨⟨next, s⟩, taken, found⟩ := bind_eq_ok_iff.mp found
          have kept := keeps start taken
          obtain ⟨s, -, found⟩ := bind_eq_ok_iff.mp found
          split at found
          case h_1 => cases found
          case h_2 c s =>
            split at found
            case isTrue => exact ih kept found
            case isFalse =>
              split at found
              case isTrue =>
                cases found
                exact kept
              case isFalse => cases found

def Field.Keeps {σ : Type} (P : σ → Prop) (f : Field σ) : Prop :=
  ∀ (m : Mode) (a b : σ) (s rest : List Char), P a → f.read m a s = .ok (b, rest) → P b

theorem field_keeps {σ α : Type} {P : σ → Prop} {Q : α → Prop} {itsName : String} {item : Reader α}
    {put : α → σ → σ} (taken : ∀ {m s a rest}, item m s = .ok (a, rest) → Q a)
    (kept : ∀ a g, Q a → P g → P (put a g)) : (field itsName item put).Keeps P := by
  intro m a b s rest before found
  obtain ⟨⟨value, s⟩, read, found⟩ := bind_eq_ok_iff.mp found
  cases found
  exact kept value a (taken read) before

theorem oneField_keeps {σ : Type} {P : σ → Prop} {table : List (Field σ)} (fields : ∀ f ∈ table, f.Keeps P)
    {record : String} {m : Mode} {a b : List String × σ} {s rest : List Char} (before : P a.2)
    (found : oneField record table m a s = .ok (b, rest)) : P b.2 := by
  obtain ⟨⟨name, s⟩, -, found⟩ := bind_eq_ok_iff.mp found
  dsimp only at found
  split at found
  case h_1 =>
    obtain ⟨s, -, found⟩ := bind_eq_ok_iff.mp found
    obtain ⟨s, -, found⟩ := bind_eq_ok_iff.mp found
    cases found
    exact before
  case h_2 f known =>
    split at found
    case isTrue => cases found
    case isFalse =>
      obtain ⟨s, -, found⟩ := bind_eq_ok_iff.mp found
      obtain ⟨⟨gathered, s⟩, read, found⟩ := bind_eq_ok_iff.mp found
      cases found
      exact fields f (List.mem_of_find?_eq_some known) _ _ _ _ _ before read

/-- A text that is read as a record is what was gathered from its fields. -/
theorem exists_gathered_of_read {σ α : Type} {P : σ → Prop} {itsName : String} {table : List (Field σ)}
    {start : σ} {finish : σ → Except Error α} (fields : ∀ f ∈ table, f.Keeps P) (begins : P start)
    {text : String} {a : α} (found : read (record itsName table start finish) text = .ok a) :
    ∃ gathered, P gathered ∧ finish gathered = .ok a := by
  obtain ⟨s, -, found⟩ := bind_eq_ok_iff.mp found
  obtain ⟨⟨m, s⟩, -, found⟩ := bind_eq_ok_iff.mp found
  obtain ⟨⟨value, s⟩, taken, found⟩ := bind_eq_ok_iff.mp found
  obtain ⟨_, -, found⟩ := bind_eq_ok_iff.mp found
  split at found
  case isFalse => cases found
  case isTrue =>
    cases found
    obtain ⟨s, -, taken⟩ := bind_eq_ok_iff.mp taken
    obtain ⟨s, -, taken⟩ := bind_eq_ok_iff.mp taken
    obtain ⟨s, -, taken⟩ := bind_eq_ok_iff.mp taken
    obtain ⟨⟨⟨_, gathered⟩, s⟩, filled, taken⟩ := bind_eq_ok_iff.mp taken
    obtain ⟨value, finished, taken⟩ := bind_eq_ok_iff.mp taken
    cases taken
    exact ⟨gathered, separated_keeps (P := fun g => P g.2) (oneField_keeps fields) begins filled, finished⟩

theorem canonical_of_single {m : Mode} {s rest : List Char} {x : Binary32}
    (taken : single m s = .ok (x, rest)) : x.canonical = x := by
  obtain ⟨⟨⟨literal, width⟩, s⟩, -, taken⟩ := bind_eq_ok_iff.mp taken
  split at taken
  case h_1 => cases taken
  case h_2 negative _ _ _ _ =>
    cases taken
    cases negative <;> decide
  case h_3 negative _ _ _ _ =>
    cases taken
    cases negative <;> decide
  case h_4 =>
    split at taken
    case h_2 => cases taken
    case h_1 found =>
      cases taken
      exact Binary32.canonical_of_ne_nan (Binary32.magnitude_ne_nan_of_read? found)

end SignalGraph.Ron
