import SignalGraph.Proofs.Number.Spelling
import SignalGraph.Proofs.Ron.Tall

/-!
Reading back 32-bit numbers. A finite number is spelt with digits around a point, and is read as itself; the
other numbers have words, in which nothing is left of a not-a-number but its sign.
-/

namespace SignalGraph

namespace Binary32

/-- The number that stored text keeps: of all not-a-numbers of a sign, it keeps one. -/
def canonical (x : Binary32) : Binary32 :=
  if x.magnitude = .nan then nan x.isNegative else x

theorem canonical_of_ne_nan {x : Binary32} (number : x.magnitude ≠ .nan) : x.canonical = x := if_neg number

theorem magnitude_nan (negative : Bool) : (nan negative).magnitude = .nan := by cases negative <;> decide

theorem magnitude_canonical_of_nan {x : Binary32} (found : x.magnitude = .nan) :
    x.canonical.magnitude = .nan := by
  rw [canonical, if_pos found, magnitude_nan]

end Binary32

namespace Ron

/-! ### Words -/

variable {stop : Char}

theorem specialFloat?_nan (negative : Bool) (ends : Stops stop) (rest : List Char) :
    specialFloat? ((if negative then ['-'] else []) ++ 'N' :: 'a' :: 'N' :: stop :: rest) =
      some ((.nan negative, none), stop :: rest) := by
  have no_word : continuesWord (stop :: rest) = false := ends.no_part
  cases negative <;> simp [specialFloat?, keyword?, List.isPrefixOf?, no_word]

theorem specialFloat?_infinite (negative : Bool) (ends : Stops stop) (rest : List Char) :
    specialFloat? ((if negative then ['-'] else []) ++ 'i' :: 'n' :: 'f' :: stop :: rest) =
      some ((.infinite negative, none), stop :: rest) := by
  have no_word : continuesWord (stop :: rest) = false := ends.no_part
  cases negative <;> simp [specialFloat?, keyword?, List.isPrefixOf?, no_word]

theorem specialFloat?_digit (negative : Bool) {c : Char} (digit : c.isDigit = true) (rest : List Char) :
    specialFloat? ((if negative then ['-'] else []) ++ c :: rest) = none := by
  have other (d : Char) (no_digit : d.isDigit = false) : (d == c) = false := by
    rw [beq_eq_false_iff_ne]
    rintro rfl
    cases digit.symm.trans no_digit
  cases negative <;>
    simp [specialFloat?, keyword?, List.isPrefixOf?, other 'i' rfl, other 'N' rfl, other '+' rfl, other '-' rfl]

/-! ### Digits -/

theorem dropGaps_eq_self {s : List Char} (no_gap : ∀ c ∈ s, c ≠ '_') (afterDigit : Bool) :
    dropGaps afterDigit s = some s := by
  induction s generalizing afterDigit with
  | nil => rfl
  | cons c s ih =>
      have others := ih fun d mem => no_gap d (List.mem_cons_of_mem c mem)
      simp only [dropGaps, if_neg (no_gap c (List.mem_cons_self ..)), others, Option.map_some]

theorem floatLiteral_positional {cs : List Char} {value : ℚ} (positional : Decimal.Positional cs value)
    (negative : Bool) (ends : Stops stop) (rest : List Char) :
    floatLiteral ((if negative then ['-'] else []) ++ cs ++ stop :: rest) =
      .ok ((.decimal ((if negative then ['-'] else []) ++ cs), none), stop :: rest) := by
  obtain ⟨d, taken, -⟩ := Binary32.read?_positional positional negative
  obtain ⟨whole, fraction, rfl, some_digit, digits, -⟩ := positional
  have part : ∀ c ∈ (if negative then ['-'] else []) ++ (whole ++ '.' :: fraction),
      isFloatPart c = true ∧ c ≠ '_' := by
    have digit (c : Char) (digit : c.isDigit = true) : isFloatPart c = true ∧ c ≠ '_' :=
      ⟨by simp [isFloatPart, digit], by rintro rfl; cases digit⟩
    intro c mem
    simp only [List.mem_append, List.mem_cons] at mem digits
    rcases mem with signed | mem | rfl | mem
    · split at signed
      · rw [List.mem_singleton.mp signed]
        decide
      · cases signed
    · exact digit c (digits c (.inl mem))
    · decide
    · exact digit c (digits c (.inr mem))
  have run := takeWhile_append_cons (fun c mem => (part c mem).1) ends.no_float rest
  have gaps := dropGaps_eq_self (fun c mem => (part c mem).2) false
  have no_word : specialFloat? ((if negative then ['-'] else []) ++ (whole ++ '.' :: fraction) ++ stop :: rest) =
      none := by
    obtain ⟨c, whole, rfl⟩ := List.exists_cons_of_ne_nil some_digit
    rw [List.append_assoc]
    exact specialFloat?_digit negative (digits c (by simp)) _
  have no_width : keyword? "f32" (stop :: rest) = none ∧ keyword? "f64" (stop :: rest) = none := by
    have other : ('f' == stop) = false := beq_eq_false_iff_ne.mpr (ends.ne (by decide))
    simp [keyword?, List.isPrefixOf?, other]
  simp only [floatLiteral, no_word, run, List.drop_left, gaps, taken, no_width]

theorem solid_of_isDigit {c : Char} (digit : c.isDigit = true) :
    isBlank c = false ∧ c ∉ ['/', '#', ')', ']'] := by
  have range : 48 ≤ c.toNat ∧ c.toNat ≤ 57 := by
    simp only [Char.isDigit, Bool.and_eq_true, decide_eq_true_eq, UInt32.le_iff_toNat_le] at digit
    exact digit
  constructor
  · simp only [isBlank, decide_eq_false_iff_not, List.mem_cons, List.not_mem_nil, or_false]
    omega
  · intro mem
    simp only [List.mem_cons, List.not_mem_nil, or_false] at mem
    rcases mem with rfl | rfl | rfl | rfl <;> cases digit

theorem startsPart_signed (negative : Bool) {c : Char} (solid : isBlank c = false ∧ c ∉ ['/', '#', ')', ']'])
    (cs : List Char) : StartsPart ((if negative then ['-'] else []) ++ c :: cs) := by
  cases negative with
  | true => exact ⟨'-', c :: cs, rfl, by decide, by decide⟩
  | false => exact ⟨c, cs, rfl, solid⟩

/-! ### Numbers -/

variable {x : Binary32}

theorem toList_sign (negative : Bool) :
    (if negative then "-" else "").toList = if negative then ['-'] else [] := by
  cases negative <;> rfl

theorem restores_nan (found : x.magnitude = .nan) :
    Restores single (.atom (x.write .stored)) (.nan x.isNegative) := by
  have word : (x.write .stored).toList = (if x.isNegative then ['-'] else []) ++ ['N', 'a', 'N'] := by
    have magnitude : FloatFormat.single.magnitude x.bits.toNat = .nan := found
    rw [← toList_sign]
    simp only [Binary32.write, NumberStyle.write, magnitude, if_true, String.toList_append]
    rfl
  have taken {stop : Char} (ends : Stops stop) := specialFloat?_nan x.isNegative ends
  refine ⟨fun _ => word ▸ startsPart_signed x.isNegative (by decide) _, fun _ m stop rest ends => ?_⟩
  rw [Term.tall, word, List.append_assoc]
  simp only [single, floatLiteral, List.cons_append, List.nil_append, taken (stops_of_isStop ends), ok_bind]
  rfl

theorem restores_infinite (found : x.magnitude = .infinite) :
    Restores single (.atom (x.write .stored)) x := by
  have word : (x.write .stored).toList = (if x.isNegative then ['-'] else []) ++ ['i', 'n', 'f'] := by
    have magnitude : FloatFormat.single.magnitude x.bits.toNat = .infinite := found
    rw [← toList_sign]
    simp only [Binary32.write, NumberStyle.write, magnitude, String.toList_append]
    rfl
  have taken {stop : Char} (ends : Stops stop) := specialFloat?_infinite x.isNegative ends
  refine ⟨fun _ => word ▸ startsPart_signed x.isNegative (by decide) _, fun _ m stop rest ends => ?_⟩
  rw [Term.tall, word, List.append_assoc]
  simp only [single, floatLiteral, List.cons_append, List.nil_append, taken (stops_of_isStop ends), ok_bind,
    Binary32.infinity_eq found]
  rfl

theorem restores_finite {mantissa : ℕ} {exponent : ℤ} (found : x.magnitude = .finite mantissa exponent) :
    Restores single (.atom (x.write .stored)) x := by
  have back := Binary32.read?_write found
  obtain ⟨cs, value, spelled, positional, -⟩ := Binary32.exists_positional_write found
  rw [spelled] at back
  refine ⟨fun _ => ?_, fun _ m stop rest ends => ?_⟩
  · obtain ⟨whole, fraction, rfl, some_digit, digits, -⟩ := positional
    obtain ⟨c, whole, rfl⟩ := List.exists_cons_of_ne_nil some_digit
    rw [Term.tall, spelled]
    exact startsPart_signed x.isNegative (solid_of_isDigit (digits c (by simp))) _
  · rw [Term.tall, spelled]
    simp only [single, floatLiteral_positional positional x.isNegative (stops_of_isStop ends), ok_bind, back]
    rfl

theorem restores_single (x : Binary32) : Restores single (.atom (x.write .stored)) x.canonical := by
  cases found : x.magnitude with
  | nan =>
      rw [Binary32.canonical, if_pos found]
      exact restores_nan found
  | infinite =>
      rw [Binary32.canonical_of_ne_nan (by simp [found])]
      exact restores_infinite found
  | finite mantissa exponent =>
      rw [Binary32.canonical_of_ne_nan (by simp [found])]
      exact restores_finite found

end Ron
end SignalGraph
