import Mathlib.Algebra.Order.Field.Power
import Mathlib.Algebra.Order.Field.Rat
import Mathlib.Tactic.FieldSimp
import Mathlib.Tactic.Linarith
import Mathlib.Tactic.NormNum
import Mathlib.Tactic.Positivity
import Mathlib.Tactic.Ring
import SignalGraph.Number.Shortest

/-!
Rounding to the nearest number of a format. A quotient is compared with the numbers of the format exactly, as
a rational number, and whatever lies in the rounding interval of a number is rounded to it, ties and the
subnormal numbers included. What a quotient beyond the largest number is rounded to is left out.
-/

namespace SignalGraph

/-! ### Powers of two -/

theorem cast_shiftLeft (n : ℕ) (e : ℤ) : ((n <<< e.toNat : ℕ) : ℚ) = n * 2 ^ e.toNat := by
  rw [Nat.shiftLeft_eq, Nat.cast_mul, Nat.cast_pow, Nat.cast_ofNat]

theorem two_zpow_eq_div (e : ℤ) : (2 : ℚ) ^ e = 2 ^ e.toNat / 2 ^ (-e).toNat := by
  obtain ⟨k, rfl | rfl⟩ := e.eq_nat_or_neg <;> simp

theorem shifted_quotient (n d : ℕ) (e : ℤ) :
    ((n <<< (-e).toNat : ℕ) : ℚ) / (d <<< e.toNat : ℕ) = n / d / 2 ^ e := by
  rw [cast_shiftLeft, cast_shiftLeft, two_zpow_eq_div]
  field_simp

namespace FloatFormat

/-! ### Nearest integers -/

/-- An integer at most half away is the nearest one; where another is as near, the even one is taken. -/
theorem roundHalfEven_eq {n d m : ℕ} (pos : 0 < d) (above : (m : ℚ) - 1 / 2 ≤ n / d)
    (below : (n : ℚ) / d ≤ m + 1 / 2)
    (tie : m % 2 = 1 → (m : ℚ) - 1 / 2 < n / d ∧ (n : ℚ) / d < m + 1 / 2) :
    roundHalfEven n d = m := by
  have cast_pos : (0 : ℚ) < d := by exact_mod_cast pos
  have lower : 2 * m * d ≤ 2 * n + d := by
    rw [le_div_iff₀ cast_pos] at above
    have : (2 * m * d : ℚ) ≤ 2 * n + d := by linarith
    exact_mod_cast this
  have upper : 2 * n ≤ 2 * m * d + d := by
    rw [div_le_iff₀ cast_pos] at below
    have : (2 * n : ℚ) ≤ 2 * m * d + d := by linarith
    exact_mod_cast this
  have strict (odd : m % 2 = 1) : 2 * m * d < 2 * n + d ∧ 2 * n < 2 * m * d + d := by
    obtain ⟨low, high⟩ := tie odd
    rw [lt_div_iff₀ cast_pos] at low
    rw [div_lt_iff₀ cast_pos] at high
    constructor
    · have : (2 * m * d : ℚ) < 2 * n + d := by linarith
      exact_mod_cast this
    · have : (2 * n : ℚ) < 2 * m * d + d := by linarith
      exact_mod_cast this
  have parts : n = d * (n / d) + n % d := (Nat.div_add_mod n d).symm
  have rest : n % d < d := Nat.mod_lt n pos
  generalize floor : n / d = whole at parts
  generalize left : n % d = part at parts rest
  -- The quotient's floor is `m` or the number before it.
  have near : m = whole ∨ m = whole + 1 := by
    by_contra other
    rcases Nat.lt_or_ge m whole with less | more
    · have : d * (m + 1) ≤ d * whole := Nat.mul_le_mul_left d less
      grind
    · have : d * (whole + 2) ≤ d * m := Nat.mul_le_mul_left d (by omega)
      grind
  unfold roundHalfEven
  simp only [floor, left]
  rcases near with rfl | rfl
  · grind
  · grind

theorem log2Ratio_bounds {n d : ℕ} (num : 0 < n) (den : 0 < d) :
    (2 : ℚ) ^ log2Ratio n d ≤ n / d ∧ (n : ℚ) / d < 2 ^ (log2Ratio n d + 1) := by
  have cast_num : (0 : ℚ) < n := by exact_mod_cast num
  have cast_den : (0 : ℚ) < d := by exact_mod_cast den
  have num_low : (2 : ℚ) ^ (n.log2 : ℤ) ≤ n := by
    rw [zpow_natCast]
    exact_mod_cast Nat.log2_self_le (Nat.ne_of_gt num)
  have num_high : (n : ℚ) < 2 ^ ((n.log2 : ℤ) + 1) := by
    have : n < 2 ^ (n.log2 + 1) := Nat.lt_log2_self
    exact_mod_cast this
  have den_low : (2 : ℚ) ^ (d.log2 : ℤ) ≤ d := by
    rw [zpow_natCast]
    exact_mod_cast Nat.log2_self_le (Nat.ne_of_gt den)
  have den_high : (d : ℚ) < 2 ^ ((d.log2 : ℤ) + 1) := by
    have : d < 2 ^ (d.log2 + 1) := Nat.lt_log2_self
    exact_mod_cast this
  generalize found : (n.log2 : ℤ) - d.log2 = e
  have at_least : (2 : ℚ) ^ (e - 1) ≤ n / d := by
    rw [le_div_iff₀ cast_den]
    calc (2 : ℚ) ^ (e - 1) * d ≤ 2 ^ (e - 1) * 2 ^ ((d.log2 : ℤ) + 1) := by gcongr
      _ = 2 ^ (n.log2 : ℤ) := by rw [← zpow_add₀ two_ne_zero]; congr 1; omega
      _ ≤ n := num_low
  have less : (n : ℚ) / d < 2 ^ (e + 1) := by
    rw [div_lt_iff₀ cast_den]
    calc (n : ℚ) < 2 ^ ((n.log2 : ℤ) + 1) := num_high
      _ = 2 ^ (e + 1) * 2 ^ (d.log2 : ℤ) := by rw [← zpow_add₀ two_ne_zero]; congr 1; omega
      _ ≤ 2 ^ (e + 1) * d := by gcongr
  have compared : d <<< e.toNat ≤ n <<< (-e).toNat ↔ (2 : ℚ) ^ e ≤ n / d := by
    rw [← Nat.cast_le (α := ℚ), cast_shiftLeft, cast_shiftLeft, two_zpow_eq_div,
      div_le_div_iff₀ (by positivity) cast_den, mul_comm (d : ℚ)]
  unfold log2Ratio
  simp only [found, compared]
  split
  case isTrue fits => exact ⟨fits, less⟩
  case isFalse exceeded => exact ⟨at_least, by simpa using exceeded⟩

theorem le_log2Ratio_iff {n d : ℕ} (num : 0 < n) (den : 0 < d) {k : ℤ} :
    k ≤ log2Ratio n d ↔ (2 : ℚ) ^ k ≤ n / d := by
  obtain ⟨low, high⟩ := log2Ratio_bounds num den
  constructor
  · intro at_most
    exact (zpow_le_zpow_right₀ one_le_two at_most).trans low
  · intro reached
    have := reached.trans_lt high
    rw [zpow_lt_zpow_iff_right₀ one_lt_two] at this
    omega

/-! ### Rounding intervals -/

/-- A mantissa and an exponent as the bits of a positive number give them. -/
structure Canonical (f : FloatFormat) (m : ℕ) (q : ℤ) : Prop where
  positive : 0 < m
  fits : m < 2 ^ (f.fractionBits + 1)
  least : f.leastExponent ≤ q
  normal : f.leastExponent < q → 2 ^ f.fractionBits ≤ m

def code (f : FloatFormat) (m : ℕ) (q : ℤ) : ℕ :=
  ((q - f.leastExponent).toNat <<< f.fractionBits) + m

end FloatFormat

def RoundingInterval.Contains (r : RoundingInterval) (x : ℚ) : Prop :=
  if r.closed then (r.low : ℚ) / r.denominator ≤ x ∧ x ≤ r.high / r.denominator
  else (r.low : ℚ) / r.denominator < x ∧ x < r.high / r.denominator

namespace FloatFormat

variable {f : FloatFormat} {m n d : ℕ} {q : ℤ}

theorem around_scaled (k : ℕ) (q : ℤ) :
    ((k * 1 <<< (q - 2).toNat : ℕ) : ℚ) / (1 <<< (2 - q).toNat : ℕ) = k / 4 * 2 ^ q := by
  have split_shift : (2 : ℚ) ^ (q - 2) = 2 ^ (q - 2).toNat / 2 ^ (2 - q).toNat := by
    rw [two_zpow_eq_div, neg_sub]
  rw [Nat.cast_mul, Nat.one_shiftLeft, Nat.one_shiftLeft, Nat.cast_pow, Nat.cast_pow, Nat.cast_ofNat,
    mul_div_assoc, ← split_shift, zpow_sub₀ two_ne_zero]
  ring

theorem around_low (positive : 0 < m) :
    ((RoundingInterval.around f m q).low : ℚ) / (RoundingInterval.around f m q).denominator =
      (m - (if m = 1 <<< f.fractionBits ∧ f.leastExponent < q then 1 / 4 else 1 / 2)) * 2 ^ q := by
  unfold RoundingInterval.around
  rw [around_scaled, Nat.cast_sub (by split <;> omega)]
  split <;> push_cast <;> ring

theorem around_high :
    ((RoundingInterval.around f m q).high : ℚ) / (RoundingInterval.around f m q).denominator =
      (m + 1 / 2) * 2 ^ q := by
  unfold RoundingInterval.around
  rw [around_scaled]
  push_cast
  ring

theorem contains_bounds (positive : 0 < m) {x : ℚ}
    (contained : (RoundingInterval.around f m q).Contains x) :
    ((m : ℚ) - 1 / 2) * 2 ^ q ≤ x ∧ x ≤ (m + 1 / 2) * 2 ^ q ∧
      (m % 2 = 1 → ((m : ℚ) - 1 / 2) * 2 ^ q < x ∧ x < (m + 1 / 2) * 2 ^ q) ∧
      (m = 2 ^ f.fractionBits → f.leastExponent < q → ((m : ℚ) - 1 / 4) * 2 ^ q ≤ x) := by
  have wider : ((m : ℚ) - 1 / 2) * 2 ^ q ≤
      (m - (if m = 1 <<< f.fractionBits ∧ f.leastExponent < q then 1 / 4 else 1 / 2)) * 2 ^ q := by
    gcongr
    split <;> norm_num
  have closed : (RoundingInterval.around f m q).closed = decide (m % 2 = 0) := rfl
  unfold RoundingInterval.Contains at contained
  rw [around_low positive, around_high, closed] at contained
  have weak : (m - (if m = 1 <<< f.fractionBits ∧ f.leastExponent < q then 1 / 4 else 1 / 2)) * 2 ^ q ≤ x ∧
      x ≤ (m + 1 / 2) * 2 ^ q := by
    split at contained
    · exact contained
    · exact ⟨contained.1.le, contained.2.le⟩
  refine ⟨wider.trans weak.1, weak.2, fun odd => ?_, fun least above => ?_⟩
  · rw [if_neg (by simp [odd])] at contained
    exact ⟨wider.trans_lt contained.1, contained.2⟩
  · rw [if_pos ⟨by rw [least, Nat.one_shiftLeft], above⟩] at weak
    exact weak.1

theorem num_pos_of_contains (positive : 0 < m) (contained : (RoundingInterval.around f m q).Contains (n / d)) :
    0 < n := by
  obtain ⟨above, -⟩ := contains_bounds positive contained
  have some_mantissa : (1 : ℚ) ≤ m := by exact_mod_cast positive
  rw [Nat.pos_iff_ne_zero]
  rintro rfl
  have : 0 < ((m : ℚ) - 1 / 2) * 2 ^ q := mul_pos (by linarith) (by positivity)
  simp at above
  linarith

/-- Only around a power of two, what lies in the interval may be less than the least mantissa. -/
theorem least_of_contains_of_lt (canonical : f.Canonical m q) (above_least : f.leastExponent < q) {x : ℚ}
    (contained : (RoundingInterval.around f m q).Contains x) (less : x < 2 ^ f.fractionBits * 2 ^ q) :
    m = 2 ^ f.fractionBits ∧ 2 ^ ((f.fractionBits : ℤ) + q - 1) ≤ x := by
  obtain ⟨above, -, -, quarter⟩ := contains_bounds canonical.positive contained
  have least : m = 2 ^ f.fractionBits := by
    refine le_antisymm (Nat.le_of_not_lt fun more => ?_) (canonical.normal above_least)
    have : (2 : ℚ) ^ f.fractionBits + 1 ≤ m := by exact_mod_cast more
    have : (2 : ℚ) ^ f.fractionBits * 2 ^ q ≤ (m - 1 / 2) * 2 ^ q := by gcongr; linarith
    linarith
  refine ⟨least, le_trans ?_ (quarter least above_least)⟩
  have : (1 : ℚ) ≤ 2 ^ f.fractionBits := by exact_mod_cast Nat.one_le_two_pow
  rw [zpow_sub₀ two_ne_zero, zpow_add₀ two_ne_zero, zpow_natCast, least, zpow_one, mul_div_right_comm]
  gcongr
  push_cast
  linarith

/-- The exponent at which a quotient of the interval is rounded: the number's own, or the one before it for
what lies below a power of two. -/
theorem rounding_exponent (canonical : f.Canonical m q) (den : 0 < d)
    (contained : (RoundingInterval.around f m q).Contains (n / d)) :
    max f.leastExponent (log2Ratio n d - f.fractionBits) = q ∨
      max f.leastExponent (log2Ratio n d - f.fractionBits) = q - 1 ∧ f.leastExponent < q ∧
        m = 2 ^ f.fractionBits ∧ (n : ℚ) / d < m * 2 ^ q := by
  have num := num_pos_of_contains canonical.positive contained
  have at_most : log2Ratio n d < f.fractionBits + 1 + q := by
    obtain ⟨-, below, -⟩ := contains_bounds canonical.positive contained
    have fits : (m : ℚ) + 1 ≤ 2 ^ (f.fractionBits + 1) := by exact_mod_cast canonical.fits
    rw [← not_le, le_log2Ratio_iff num den, not_le]
    calc (n : ℚ) / d ≤ (m + 1 / 2) * 2 ^ q := below
      _ < 2 ^ (f.fractionBits + 1) * 2 ^ q := by gcongr; linarith
      _ = 2 ^ ((f.fractionBits : ℤ) + 1 + q) := by rw [zpow_add₀ two_ne_zero]; norm_cast
  have power : (2 : ℚ) ^ ((f.fractionBits : ℤ) + q) = 2 ^ f.fractionBits * 2 ^ q := by
    rw [zpow_add₀ two_ne_zero, zpow_natCast]
  rcases canonical.least.eq_or_lt with least | above_least
  · exact .inl (by omega)
  rcases le_or_gt ((2 : ℚ) ^ ((f.fractionBits : ℤ) + q)) (n / d) with reached | less
  · have := (le_log2Ratio_iff num den).mpr reached
    exact .inl (by omega)
  · have below_power : log2Ratio n d < f.fractionBits + q := by
      rwa [← not_le, le_log2Ratio_iff num den, not_le]
    rw [power] at less
    obtain ⟨rfl, half_reached⟩ := least_of_contains_of_lt canonical above_least contained less
    have := (le_log2Ratio_iff num den).mpr half_reached
    exact .inr ⟨by omega, above_least, rfl, by exact_mod_cast less⟩

theorem round_eq (canonical : f.Canonical m q) (finite : f.code m q ≤ f.infinityBits) (den : 0 < d)
    (contained : (RoundingInterval.around f m q).Contains (n / d)) :
    f.round n d = f.code m q := by
  obtain ⟨above, below, strict, quarter⟩ := contains_bounds canonical.positive contained
  have num : n ≠ 0 := Nat.pos_iff_ne_zero.mp (num_pos_of_contains canonical.positive contained)
  have apart (e : ℤ) : 0 < d <<< e.toNat := by
    rw [Nat.shiftLeft_eq]
    positivity
  simp only [round, if_neg num]
  suffices same : ((max f.leastExponent (log2Ratio n d - f.fractionBits) - f.leastExponent).toNat <<<
      f.fractionBits) + roundHalfEven (n <<< (-(max f.leastExponent (log2Ratio n d - f.fractionBits))).toNat)
        (d <<< (max f.leastExponent (log2Ratio n d - f.fractionBits)).toNat) = f.code m q by
    rw [same, Nat.min_eq_right finite]
  rcases rounding_exponent canonical den contained with own | ⟨before, above_least, rfl, less⟩
  · rw [own, roundHalfEven_eq (apart q) (m := m)]
    · rfl
    all_goals rw [shifted_quotient]
    · rwa [le_div_iff₀ (by positivity)]
    · rwa [div_le_iff₀ (by positivity)]
    · rwa [lt_div_iff₀ (by positivity), div_lt_iff₀ (by positivity)]
  · -- Below a power of two the unit is half as long, and the mantissa reached is twice the least.
    have half : (2 : ℚ) ^ q = 2 * 2 ^ (q - 1) := by
      rw [zpow_sub₀ two_ne_zero]
      ring
    rw [before, roundHalfEven_eq (apart (q - 1)) (m := 2 * 2 ^ f.fractionBits)]
    · simp only [code, Nat.shiftLeft_eq]
      have one_less : (q - f.leastExponent).toNat = (q - 1 - f.leastExponent).toNat + 1 := by omega
      rw [one_less]
      ring
    all_goals rw [shifted_quotient]
    · rw [le_div_iff₀ (by positivity)]
      have := quarter rfl above_least
      rw [half] at this
      push_cast at this ⊢
      linarith
    · rw [div_le_iff₀ (by positivity)]
      rw [half] at less
      have : (0 : ℚ) < 2 ^ (q - 1) := by positivity
      push_cast at less ⊢
      linarith
    · intro odd
      omega

/-! ### Bit patterns -/

theorem magnitude_eq (f : FloatFormat) (bits : ℕ) : ∃ exponent fraction : ℕ,
    exponent < 2 ^ f.exponentBits ∧ fraction < 2 ^ f.fractionBits ∧
      bits % f.signWeight = exponent * 2 ^ f.fractionBits + fraction ∧
      f.magnitude bits =
        if exponent = 2 ^ f.exponentBits - 1 then
          if fraction = 0 then .infinite else .nan
        else if exponent = 0 then .finite fraction f.leastExponent
        else .finite (2 ^ f.fractionBits + fraction) (f.leastExponent + exponent - 1) := by
  refine ⟨bits % f.signWeight / 2 ^ f.fractionBits, bits % f.signWeight % 2 ^ f.fractionBits, ?_,
    Nat.mod_lt _ (by positivity), (Nat.div_add_mod' ..).symm, ?_⟩
  · refine Nat.div_lt_of_lt_mul ?_
    rw [← Nat.pow_add, signWeight, Nat.one_shiftLeft]
    exact Nat.mod_lt _ (by positivity)
  · simp only [magnitude, Nat.shiftRight_eq_div_pow, Nat.one_shiftLeft]

theorem infinityBits_eq (f : FloatFormat) : f.infinityBits = (2 ^ f.exponentBits - 1) * 2 ^ f.fractionBits := by
  rw [infinityBits, Nat.shiftLeft_eq, Nat.one_shiftLeft]

theorem magnitude_finite {bits : ℕ} (found : f.magnitude bits = .finite m q) (positive : 0 < m) :
    f.Canonical m q ∧ f.code m q = bits % f.signWeight ∧ f.code m q < f.infinityBits := by
  obtain ⟨exponent, fraction, exponent_less, fraction_less, unsigned, magnitude⟩ := f.magnitude_eq bits
  rw [found] at magnitude
  rw [unsigned, infinityBits_eq]
  have finite (other : exponent ≠ 2 ^ f.exponentBits - 1) :
      exponent * 2 ^ f.fractionBits + fraction < (2 ^ f.exponentBits - 1) * 2 ^ f.fractionBits := calc
    exponent * 2 ^ f.fractionBits + fraction < exponent * 2 ^ f.fractionBits + 2 ^ f.fractionBits := by omega
    _ = (exponent + 1) * 2 ^ f.fractionBits := (Nat.succ_mul ..).symm
    _ ≤ (2 ^ f.exponentBits - 1) * 2 ^ f.fractionBits := Nat.mul_le_mul_right _ (by omega)
  have double : 2 ^ (f.fractionBits + 1) = 2 ^ f.fractionBits * 2 := Nat.pow_succ ..
  split at magnitude
  case isTrue => split at magnitude <;> cases magnitude
  case isFalse last =>
    split at magnitude
    case isTrue subnormal =>
      cases magnitude
      have same : f.code m f.leastExponent = exponent * 2 ^ f.fractionBits + m := by
        simp [code, subnormal]
      refine ⟨⟨positive, by omega, le_rfl, fun impossible => absurd impossible (lt_irrefl _)⟩, same, ?_⟩
      exact same ▸ finite last
    case isFalse normal =>
      cases magnitude
      have same : f.code (2 ^ f.fractionBits + fraction) (f.leastExponent + exponent - 1) =
          exponent * 2 ^ f.fractionBits + fraction := by
        obtain ⟨before, rfl⟩ := Nat.exists_eq_succ_of_ne_zero normal
        have one_less : (f.leastExponent + (before + 1 : ℕ) - 1 - f.leastExponent).toNat = before := by omega
        rw [code, Nat.shiftLeft_eq, one_less, Nat.succ_mul, Nat.add_assoc]
      refine ⟨⟨positive, by omega, by omega, fun _ => Nat.le_add_right _ _⟩, same, ?_⟩
      exact same ▸ finite last

theorem magnitude_zero {bits : ℕ} (found : f.magnitude bits = .finite 0 q) : bits % f.signWeight = 0 := by
  obtain ⟨exponent, fraction, -, -, unsigned, magnitude⟩ := f.magnitude_eq bits
  rw [found] at magnitude
  split at magnitude
  case isTrue => split at magnitude <;> cases magnitude
  case isFalse =>
    split at magnitude
    case isTrue subnormal =>
      obtain ⟨rfl, -⟩ := Magnitude.finite.inj magnitude
      rw [unsigned, subnormal, Nat.zero_mul]
    case isFalse =>
      have : 0 < 2 ^ f.fractionBits := by positivity
      have := (Magnitude.finite.inj magnitude).1
      omega

theorem magnitude_infinite {bits : ℕ} (found : f.magnitude bits = .infinite) :
    bits % f.signWeight = f.infinityBits := by
  obtain ⟨exponent, fraction, -, -, unsigned, magnitude⟩ := f.magnitude_eq bits
  rw [found] at magnitude
  split at magnitude
  case isTrue last =>
    split at magnitude
    case isTrue none => rw [unsigned, last, none, Nat.add_zero, infinityBits_eq]
    case isFalse => cases magnitude
  case isFalse => split at magnitude <;> cases magnitude

theorem magnitude_ne_nan {bits : ℕ} (small : bits % f.signWeight ≤ f.infinityBits) : f.magnitude bits ≠ .nan := by
  obtain ⟨exponent, fraction, -, -, unsigned, magnitude⟩ := f.magnitude_eq bits
  rw [magnitude]
  split
  case isTrue last =>
    rw [unsigned, last, infinityBits_eq] at small
    rw [if_pos (by omega)]
    simp
  case isFalse => split <;> simp

end FloatFormat
end SignalGraph
