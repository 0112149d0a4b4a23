import Mathlib.Data.List.TakeWhile
import SignalGraph.Number.Decimal
import SignalGraph.Proofs.Number.Shortest

/-!
The stored spelling of a finite number is read back as the same number, sign included: what is written has the
value of the shortest decimal, in digits around a point, and what is read is rounded to the nearest number.
Infinities and not-a-numbers are spelt with words, which are left to the readers of texts.
-/

namespace SignalGraph

namespace Decimal

/-! ### Digits -/

theorem ofDigits_eq (digits : List Char) : ofDigits digits = Nat.ofDigitChars 10 digits 0 :=
  Nat.ofDigitChars_eq_foldl.symm

theorem ofDigits_append (front back : List Char) :
    ofDigits (front ++ back) = ofDigits front * 10 ^ back.length + ofDigits back := by
  rw [ofDigits_eq, ofDigits_eq, ofDigits_eq, Nat.ofDigitChars_append, Nat.ofDigitChars_eq_ofDigitChars_zero,
    Nat.mul_comm]

theorem ofDigits_toDigits (n : ℕ) : ofDigits (Nat.toDigits 10 n) = n := by
  rw [ofDigits_eq, Nat.ofDigitChars_ten_toDigits]

theorem ofDigits_zeros (n : ℕ) : ofDigits (List.replicate n '0') = 0 := by
  rw [ofDigits_eq, Nat.ofDigitChars_replicate_zero, Nat.mul_zero]

/-- Digits on both sides of a point, for a number. -/
def Positional (cs : List Char) (value : ℚ) : Prop :=
  ∃ whole fraction : List Char, cs = whole ++ '.' :: fraction ∧ whole ≠ [] ∧
    (∀ c ∈ whole ++ fraction, c.isDigit = true) ∧
    (⟨ofDigits (whole ++ fraction), -fraction.length⟩ : Decimal).value = value

variable {d : Decimal} {k : ℤ}

theorem isDigit_of_mem_digits (n : ℕ) : ∀ c ∈ Nat.toDigits 10 n, c.isDigit = true := fun _ mem =>
  Nat.isDigit_of_mem_toDigits (by decide) (by decide) mem

theorem isDigit_of_mem_zeros (n : ℕ) : ∀ c ∈ List.replicate n '0', c.isDigit = true := by
  intro c mem
  rw [List.eq_of_mem_replicate mem]
  decide

theorem positional_whole (whole : 0 ≤ d.exponent) : Positional (d.plain ++ ".0").toList d.value := by
  obtain ⟨e, same⟩ := Int.eq_ofNat_of_zero_le whole
  refine ⟨Nat.toDigits 10 d.digits ++ List.replicate e '0', ['0'], ?_, ?_, ?_, ?_⟩
  · simp [plain, Decimal.zeros, same]
  · simp [Nat.toDigits_ne_nil]
  · intro c mem
    simp only [List.mem_append, or_assoc] at mem
    rcases mem with mem | mem | mem
    · exact isDigit_of_mem_digits _ c mem
    · exact isDigit_of_mem_zeros e c mem
    · exact isDigit_of_mem_zeros 1 c mem
  · have tens : ofDigits ['0'] = 0 := rfl
    rw [ofDigits_append, ofDigits_append, ofDigits_toDigits, ofDigits_zeros, tens, value, value, same]
    simp only [List.length_replicate, List.length_singleton, zpow_neg, zpow_natCast]
    push_cast
    field_simp
    ring

theorem positional_fraction (fraction : d.exponent < 0) : Positional d.plain.toList d.value := by
  obtain ⟨places, same⟩ : ∃ places : ℕ, d.exponent = -places := ⟨(-d.exponent).toNat, by omega⟩
  simp only [plain, if_neg (not_le_of_gt fraction)]
  simp only [same, neg_neg, Int.toNat_natCast]
  split
  case isTrue inside =>
    refine ⟨(Nat.toDigits 10 d.digits).take ((Nat.toDigits 10 d.digits).length - places),
      (Nat.toDigits 10 d.digits).drop ((Nat.toDigits 10 d.digits).length - places), ?_, ?_, ?_, ?_⟩
    · simp
    · simp [Nat.toDigits_ne_nil]
      omega
    · rw [List.take_append_drop]
      exact isDigit_of_mem_digits d.digits
    · have behind : (Nat.toDigits 10 d.digits).length - ((Nat.toDigits 10 d.digits).length - places) =
          places := by omega
      rw [List.take_append_drop, ofDigits_toDigits, value, value, same, List.length_drop, behind]
  case isFalse outside =>
    refine ⟨['0'], List.replicate (places - (Nat.toDigits 10 d.digits).length) '0' ++
      Nat.toDigits 10 d.digits, ?_, ?_, ?_, ?_⟩
    · simp [Decimal.zeros]
    · simp
    · intro c mem
      simp only [List.mem_append] at mem
      rcases mem with mem | mem | mem
      · exact isDigit_of_mem_zeros 1 c mem
      · exact isDigit_of_mem_zeros _ c mem
      · exact isDigit_of_mem_digits _ c mem
    · have tens : ofDigits ['0'] = 0 := rfl
      rw [ofDigits_append, ofDigits_append, ofDigits_toDigits, ofDigits_zeros, tens, value, value, same,
        List.length_append, List.length_replicate, Nat.sub_add_cancel (Nat.le_of_not_lt outside)]
      simp

theorem positional_stored (shown : d.digits ≠ 0 ∨ 0 ≤ d.exponent) :
    Positional (NumberStyle.stored.finite d).toList d.value := by
  change Positional (if d.hasFraction then d.plain else d.plain ++ ".0").toList d.value
  rcases le_or_gt 0 d.exponent with whole | fraction
  · rw [if_neg (by simp [hasFraction, whole])]
    exact positional_whole whole
  · have some_digit : d.digits ≠ 0 := shown.resolve_right (by omega)
    rw [if_pos (by simp [hasFraction, fraction, some_digit])]
    exact positional_fraction fraction

/-! ### Reading -/

theorem exists_read?_of_positional {cs : List Char} {value : ℚ} (positional : Positional cs value) :
    ∃ d : Decimal, read? cs = some d ∧ d.value = value := by
  obtain ⟨whole, fraction, rfl, some_digit, digits, same⟩ := positional
  refine ⟨_, ?_, same⟩
  have whole_digits : ∀ c ∈ whole, c.isDigit = true := fun c mem => digits c (List.mem_append_left _ mem)
  have fraction_digits : ∀ c ∈ fraction, c.isDigit = true := fun c mem =>
    digits c (List.mem_append_right _ mem)
  have taken : (whole ++ '.' :: fraction).takeWhile Char.isDigit = whole := by
    rw [List.takeWhile_append_of_pos whole_digits]
    simp
  have left : (whole ++ '.' :: fraction).dropWhile Char.isDigit = '.' :: fraction := by
    rw [List.dropWhile_append_of_pos whole_digits]
    simp
  have all_taken : fraction.takeWhile Char.isDigit = fraction := List.takeWhile_eq_self_iff.mpr fraction_digits
  have none_left : fraction.dropWhile Char.isDigit = [] := List.dropWhile_eq_nil_iff.mpr fraction_digits
  have nonempty : whole.isEmpty = false := List.isEmpty_eq_false_iff.mpr some_digit
  simp only [read?, taken, left, all_taken, none_left, nonempty, Bool.false_eq_true, false_and, if_false]
  simp [bind]

/-! ### Sizes -/

theorem le_value_of_atLeastPower (positive : 0 < d.digits) (large : d.atLeastPower k = true) :
    (10 : ℚ) ^ k ≤ d.value := by
  have some_digit := Nat.length_toDigits_pos (b := 10) (n := d.digits)
  have reached : (10 : ℚ) ^ ((Nat.toDigits 10 d.digits).length - 1) ≤ d.digits := by
    exact_mod_cast ten_pow_le_of_lt_length positive (by omega)
  simp only [atLeastPower, decide_eq_true_eq] at large
  calc (10 : ℚ) ^ k ≤ 10 ^ ((((Nat.toDigits 10 d.digits).length - 1 : ℕ) : ℤ) + d.exponent) :=
        zpow_le_zpow_right₀ (by norm_num) (by omega)
    _ = 10 ^ ((Nat.toDigits 10 d.digits).length - 1) * 10 ^ d.exponent := by
        rw [zpow_add₀ (by norm_num), zpow_natCast]
    _ ≤ d.digits * 10 ^ d.exponent := by gcongr

theorem value_lt_of_not_atLeastPower (small : d.atLeastPower k = false) : d.value < 10 ^ k := by
  have fits : (d.digits : ℚ) < 10 ^ (Nat.toDigits 10 d.digits).length := by
    exact_mod_cast (Nat.length_toDigits_le_iff (by decide) Nat.length_toDigits_pos).mp le_rfl
  simp only [atLeastPower, decide_eq_false_iff_not, not_le] at small
  calc d.digits * (10 : ℚ) ^ d.exponent < 10 ^ (Nat.toDigits 10 d.digits).length * 10 ^ d.exponent := by gcongr
    _ = 10 ^ (((Nat.toDigits 10 d.digits).length : ℤ) + d.exponent) := by
        rw [zpow_add₀ (by norm_num), zpow_natCast]
    _ ≤ 10 ^ k := zpow_le_zpow_right₀ (by norm_num) (by omega)

end Decimal

namespace FloatFormat

theorem withSign_mod {f : FloatFormat} {bits : ℕ} (fits : bits < 2 * f.signWeight) :
    f.withSign (f.isNegative bits) (bits % f.signWeight) = bits := by
  unfold withSign isNegative
  rcases Nat.lt_or_ge bits f.signWeight with less | at_least
  · simp [Nat.mod_eq_of_lt less, Nat.not_le_of_lt less]
  · have once : bits % f.signWeight = bits - f.signWeight := by
      rw [Nat.mod_eq_sub_mod at_least, Nat.mod_eq_of_lt (by omega)]
    simp [at_least, once]

end FloatFormat

namespace Binary32

variable {x : Binary32} {m : ℕ} {q : ℤ} {d : Decimal}

theorem withSign_unsigned (x : Binary32) :
    FloatFormat.single.withSign x.isNegative (x.bits.toNat % FloatFormat.single.signWeight) = x.bits.toNat :=
  FloatFormat.withSign_mod (Nat.lt_of_lt_of_le x.bits.toNat_lt (by decide))

theorem ofRatio_eq (found : x.magnitude = .finite m q) (positive : 0 < m) {n den : ℕ} (den_pos : 0 < den)
    (contained : (RoundingInterval.around .single m q).Contains (n / den)) :
    ofRatio x.isNegative n den = x := by
  obtain ⟨canonical, same, finite⟩ := FloatFormat.magnitude_finite found positive
  have rounded := FloatFormat.round_eq canonical finite.le den_pos contained
  rw [ofRatio, rounded, same, withSign_unsigned, UInt32.ofNat_toNat]

/-- What rounds to a number is neither too large nor too small to be multiplied out. -/
theorem size_of_contains (found : x.magnitude = .finite m q) (positive : 0 < m) {value : ℚ}
    (contained : (RoundingInterval.around .single m q).Contains value) :
    10 ^ (-80 : ℤ) ≤ value ∧ value < 10 ^ (60 : ℤ) := by
  obtain ⟨canonical, -, finite⟩ := FloatFormat.magnitude_finite found positive
  obtain ⟨above, below, -⟩ := FloatFormat.contains_bounds positive contained
  have some_mantissa : (1 : ℚ) ≤ m := by exact_mod_cast positive
  have fits : (m : ℚ) + 1 ≤ 2 ^ 24 := by exact_mod_cast canonical.fits
  have least : -149 ≤ q := canonical.least
  have greatest : q ≤ 106 := by
    have bits : ((q - -149).toNat <<< 23) + m < 255 <<< 23 := finite
    rw [Nat.shiftLeft_eq, Nat.shiftLeft_eq] at bits
    omega
  constructor
  · calc (10 : ℚ) ^ (-80 : ℤ) ≤ 1 / 2 * 2 ^ (-149 : ℤ) := by norm_num
      _ ≤ (m - 1 / 2) * 2 ^ q :=
        mul_le_mul (by linarith) (zpow_le_zpow_right₀ one_le_two least) (by positivity) (by linarith)
      _ ≤ value := above
  · calc value ≤ (m + 1 / 2) * 2 ^ q := below
      _ ≤ 2 ^ 24 * 2 ^ (106 : ℤ) :=
        mul_le_mul (by linarith) (zpow_le_zpow_right₀ one_le_two greatest) (by positivity) (by positivity)
      _ < 10 ^ (60 : ℤ) := by norm_num

theorem digits_ne_zero_of_contains (found : x.magnitude = .finite m q) (positive : 0 < m)
    (contained : (RoundingInterval.around .single m q).Contains d.value) : d.digits ≠ 0 := by
  obtain ⟨low, -⟩ := size_of_contains found positive contained
  intro none
  have : (0 : ℚ) < 10 ^ (-80 : ℤ) := by positivity
  simp only [Decimal.value, none, Nat.cast_zero, zero_mul] at low
  linarith

theorem toBinary32_eq (found : x.magnitude = .finite m q) (positive : 0 < m)
    (contained : (RoundingInterval.around .single m q).Contains d.value) :
    d.toBinary32 x.isNegative = x := by
  obtain ⟨low, high⟩ := size_of_contains found positive contained
  have some_digit := digits_ne_zero_of_contains found positive contained
  have not_large : d.atLeastPower 60 = false := Bool.eq_false_iff.mpr fun large =>
    absurd (Decimal.le_value_of_atLeastPower (Nat.pos_of_ne_zero some_digit) large) (not_le_of_gt high)
  have not_small : d.atLeastPower (-80) = true := by
    by_contra small
    exact absurd (Decimal.value_lt_of_not_atLeastPower (Bool.eq_false_iff.mpr small)) (not_lt_of_ge low)
  simp only [Decimal.toBinary32, if_neg some_digit, not_large, not_small, not_true, Bool.false_eq_true, if_false]
  refine ofRatio_eq found positive (by rw [Nat.pow_eq]; positivity) ?_
  have quotient : ((d.digits * Nat.pow 10 d.exponent.toNat : ℕ) : ℚ) / (Nat.pow 10 (-d.exponent).toNat : ℕ) =
      d.value := by
    rw [Decimal.value, ten_zpow_eq_div, Nat.pow_eq, Nat.pow_eq]
    push_cast
    ring
  rwa [quotient]

theorem toBinary32_zero (found : x.magnitude = .finite 0 q) (none : d.value = 0) :
    d.toBinary32 x.isNegative = x := by
  have no_digit : d.digits = 0 := by
    have power : (10 : ℚ) ^ d.exponent ≠ 0 := by positivity
    exact_mod_cast (mul_eq_zero.mp none).resolve_right power
  have unsigned : x.bits.toNat % FloatFormat.single.signWeight = 0 := FloatFormat.magnitude_zero found
  have same := withSign_unsigned x
  rw [unsigned] at same
  simp only [Decimal.toBinary32, if_pos no_digit, ofRatio, FloatFormat.round, if_true, same, UInt32.ofNat_toNat]

theorem read?_positional {cs : List Char} {value : ℚ} (positional : Decimal.Positional cs value)
    (negative : Bool) :
    ∃ d : Decimal, read? ((if negative then ['-'] else []) ++ cs) = some (d.toBinary32 negative) ∧
      d.value = value := by
  obtain ⟨d, taken, same⟩ := Decimal.exists_read?_of_positional positional
  refine ⟨d, ?_, same⟩
  cases negative with
  | true => simp [read?, taken]
  | false =>
      obtain ⟨whole, fraction, rfl, some_digit, digits, -⟩ := positional
      obtain ⟨c, whole, rfl⟩ := List.exists_cons_of_ne_nil some_digit
      have digit : c.isDigit = true := digits c (by simp)
      simp only [Bool.false_eq_true, if_false, List.nil_append, List.cons_append] at taken ⊢
      unfold read?
      split
      case h_1 same =>
        obtain ⟨rfl, -⟩ := List.cons.inj same
        cases digit
      case h_2 same =>
        obtain ⟨rfl, -⟩ := List.cons.inj same
        cases digit
      case h_3 => rw [taken, Option.map_some]

theorem exists_positional_write (finite : x.magnitude = .finite m q) :
    ∃ cs value, (x.write .stored).toList = (if x.isNegative then ['-'] else []) ++ cs ∧
      Decimal.Positional cs value ∧
      ∀ d : Decimal, d.value = value → d.toBinary32 x.isNegative = x := by
  have spelled (d : Decimal) : (((if x.isNegative then "-" else "") ++ NumberStyle.stored.finite d).toList =
      (if x.isNegative then ['-'] else []) ++ (NumberStyle.stored.finite d).toList) := by
    cases x.isNegative <;> simp
  have magnitude : FloatFormat.single.magnitude x.bits.toNat = .finite m q := finite
  cases m with
  | zero =>
      refine ⟨_, _, ?_, Decimal.positional_stored (d := ⟨0, 0⟩) (.inr le_rfl), fun d same => ?_⟩
      · simp only [Binary32.write, NumberStyle.write, magnitude]
        exact spelled ⟨0, 0⟩
      · exact toBinary32_zero finite (same.trans (by simp [Decimal.value]))
  | succ m =>
      have contained := FloatFormat.contains_shortest
        (FloatFormat.magnitude_finite magnitude (Nat.succ_pos m)).1 (by decide)
      have some_digit := digits_ne_zero_of_contains finite (Nat.succ_pos m) contained
      refine ⟨_, _, ?_, Decimal.positional_stored (.inl some_digit), fun d same => ?_⟩
      · simp only [Binary32.write, NumberStyle.write, magnitude]
        exact spelled _
      · exact toBinary32_eq finite (Nat.succ_pos m) (by rwa [same])

theorem read?_write (finite : x.magnitude = .finite m q) : read? (x.write .stored).toList = some x := by
  obtain ⟨cs, value, spelled, positional, back⟩ := exists_positional_write finite
  obtain ⟨d, taken, same⟩ := read?_positional positional x.isNegative
  rw [spelled, taken, back d same]

theorem infinity_eq (found : x.magnitude = .infinite) : infinity x.isNegative = x := by
  have same := withSign_unsigned x
  rw [FloatFormat.magnitude_infinite found] at same
  rw [infinity, same, UInt32.ofNat_toNat]

/-! ### Numbers that are read -/

theorem magnitude_ofRatio_ne_nan (negative : Bool) (n d : ℕ) : (ofRatio negative n d).magnitude ≠ .nan := by
  have small : FloatFormat.single.round n d ≤ FloatFormat.single.infinityBits := by
    unfold FloatFormat.round
    split
    · exact Nat.zero_le _
    · exact Nat.min_le_left ..
  have bounds : FloatFormat.single.infinityBits < FloatFormat.single.signWeight ∧
      2 * FloatFormat.single.signWeight = 2 ^ 32 := by decide
  have unsigned : (ofRatio negative n d).bits.toNat % FloatFormat.single.signWeight =
      FloatFormat.single.round n d := by
    have fits : FloatFormat.single.withSign negative (FloatFormat.single.round n d) < 2 ^ 32 := by
      unfold FloatFormat.withSign
      split <;> omega
    rw [ofRatio, UInt32.toNat_ofNat_of_lt' fits]
    unfold FloatFormat.withSign
    split
    · rw [Nat.add_mod_right, Nat.mod_eq_of_lt (by omega)]
    · exact Nat.mod_eq_of_lt (by omega)
  exact FloatFormat.magnitude_ne_nan (unsigned ▸ small)

theorem magnitude_toBinary32_ne_nan (negative : Bool) (d : Decimal) :
    (d.toBinary32 negative).magnitude ≠ .nan := by
  unfold Decimal.toBinary32
  split
  · exact magnitude_ofRatio_ne_nan negative _ _
  split
  · cases negative <;> decide
  split
  · exact magnitude_ofRatio_ne_nan negative _ _
  · exact magnitude_ofRatio_ne_nan negative _ _

theorem magnitude_ne_nan_of_read? {cs : List Char} (found : read? cs = some x) : x.magnitude ≠ .nan := by
  unfold read? at found
  split at found
  all_goals
    obtain ⟨d, -, rfl⟩ := Option.map_eq_some_iff.mp found
    exact magnitude_toBinary32_ne_nan _ d

end Binary32
end SignalGraph
