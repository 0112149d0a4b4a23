import SignalGraph.Ron.Number

/-!
Blanks between the parts of stored text, and what ends a part. Comments are left out: nothing here writes
them.
-/

namespace SignalGraph.Ron

open Text

def IsGap (s : List Char) : Prop := ∀ c ∈ s, isBlank c = true

/-- Whether a character ends the word or number that it stands behind. -/
def isStop (c : Char) : Bool := isBlank c || c ∈ [',', ':', '(', ')', ']']

theorem isGap_nil : IsGap [] := by simp [IsGap]

theorem isGap_replicate (n : Nat) : IsGap (List.replicate n ' ') := by
  intro c mem
  rw [List.eq_of_mem_replicate mem]
  decide

theorem IsGap.cons {c : Char} {s : List Char} (blank : isBlank c = true) (gap : IsGap s) : IsGap (c :: s) :=
  List.forall_mem_cons.mpr ⟨blank, gap⟩

/-! ### Skipping -/

theorem skipBlank_cons {c : Char} (blank : isBlank c = true) (s : List Char) :
    skipBlank (c :: s) = skipBlank s := by
  have no_comment : c ≠ '/' := by
    rintro rfl
    exact absurd blank (by decide)
  simp only [skipBlank]
  simp [skipFrom, no_comment, blank]

theorem skipBlank_gap {gap : List Char} (blank : IsGap gap) (s : List Char) :
    skipBlank (gap ++ s) = skipBlank s := by
  induction gap with
  | nil => rfl
  | cons c gap ih =>
      obtain ⟨here, blank⟩ := List.forall_mem_cons.mp blank
      rw [List.cons_append, skipBlank_cons here, ih blank]

theorem skipBlank_eq_self {c : Char} (solid : isBlank c = false) (no_comment : c ≠ '/')
    (s : List Char) : skipBlank (c :: s) = .ok (c :: s) := by
  simp [skipBlank, skipFrom, solid, no_comment]

theorem skipBlank_gap_cons {gap : List Char} (blank : IsGap gap) {c : Char} (solid : isBlank c = false)
    (no_comment : c ≠ '/') (s : List Char) : skipBlank (gap ++ c :: s) = .ok (c :: s) := by
  rw [skipBlank_gap blank, skipBlank_eq_self solid no_comment]

/-! ### Stops -/

/-- What holds of the eleven blanks holds of a blank. -/
theorem forall_isBlank {P : Char → Prop} (each : ∀ n ∈ [0x20, 0x09, 0x0A, 0x0B, 0x0C, 0x0D, 0x85, 0x200E, 0x200F,
    0x2028, 0x2029], P (Char.ofNat n)) {c : Char} (blank : isBlank c = true) : P c := by
  rw [← Char.ofNat_toNat c]
  exact each c.toNat (of_decide_eq_true blank)

structure Stops (c : Char) : Prop where
  no_part : isIdentifierPart c = false
  no_raw_part : isRawPart c = false
  no_digit : isDigitOrGap c = false
  no_float : isFloatPart c = false
  no_mark : c ∉ ['\'', '"', 'r', 'x', 'b', 'o', 'f']

theorem Stops.ne {c d : Char} (ends : Stops c) (mark : d ∈ ['\'', '"', 'r', 'x', 'b', 'o', 'f']) : d ≠ c := by
  rintro rfl
  exact ends.no_mark mark

theorem stops_of_isStop {c : Char} (stop : isStop c = true) : Stops c := by
  simp only [isStop, Bool.or_eq_true, decide_eq_true_eq] at stop
  rcases stop with blank | mark
  · constructor
    case no_part => exact forall_isBlank (P := (isIdentifierPart · = false)) (by decide +kernel) blank
    case no_raw_part => exact forall_isBlank (P := (isRawPart · = false)) (by decide +kernel) blank
    case no_digit => exact forall_isBlank (P := (isDigitOrGap · = false)) (by decide) blank
    case no_float => exact forall_isBlank (P := (isFloatPart · = false)) (by decide) blank
    case no_mark =>
      exact forall_isBlank (P := (· ∉ ['\'', '"', 'r', 'x', 'b', 'o', 'f'])) (by decide) blank
  · simp only [List.mem_cons, List.not_mem_nil, or_false] at mark
    rcases mark with rfl | rfl | rfl | rfl | rfl <;> exact ⟨by decide, by decide, by decide, by decide, by decide⟩

theorem exists_stop_of_gap {gap : List Char} (blank : IsGap gap) {c : Char} (stop : isStop c = true)
    (rest : List Char) : ∃ d s, gap ++ c :: rest = d :: s ∧ isStop d = true := by
  cases gap with
  | nil => exact ⟨c, rest, rfl, stop⟩
  | cons d gap => exact ⟨d, gap ++ c :: rest, rfl, by simp [isStop, blank d (List.mem_cons_self ..)]⟩

/-! ### Starts -/

/-- What is at the front starts no blank, comment or attribute, and closes no bracket. -/
def StartsPart (s : List Char) : Prop :=
  ∃ c cs, s = c :: cs ∧ isBlank c = false ∧ c ∉ ['/', '#', ')', ']']

namespace StartsPart

variable {part : List Char}

theorem of_head? {c : Char} (front : part.head? = some c)
    (solid : isBlank c = false ∧ c ∉ ['/', '#', ')', ']']) : StartsPart part := by
  obtain ⟨cs, rfl⟩ := List.head?_eq_some_iff.mp front
  exact ⟨c, cs, rfl, solid⟩

theorem append (starts : StartsPart part) (s : List Char) : StartsPart (part ++ s) := by
  obtain ⟨c, cs, rfl, solid⟩ := starts
  exact ⟨c, cs ++ s, rfl, solid⟩

theorem skipBlank_eq (starts : StartsPart part) (s : List Char) :
    skipBlank (part ++ s) = .ok (part ++ s) := by
  obtain ⟨c, cs, rfl, solid, other⟩ := starts
  exact skipBlank_eq_self solid (by rintro rfl; simp at other) _

end StartsPart
end SignalGraph.Ron
