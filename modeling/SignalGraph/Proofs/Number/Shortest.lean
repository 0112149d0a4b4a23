import SignalGraph.Proofs.Number.Rounding

/-!
The shortest decimal of a number lies in its rounding interval, so it is rounded back to the number. The search
always ends on a grid it has met: seventeen digits part the numbers of either format. That no shorter decimal
would do is left out.
-/

namespace SignalGraph

def Decimal.value (d : Decimal) : ℚ := d.digits * 10 ^ d.exponent

theorem ten_zpow_eq_div (k : ℤ) : (10 : ℚ) ^ k = 10 ^ k.toNat / 10 ^ (-k).toNat := by
  obtain ⟨k, rfl | rfl⟩ := k.eq_nat_or_neg <;> simp

theorem Decimal.value_trim (fuel : ℕ) (d : Decimal) : (d.trim fuel).value = d.value := by
  induction fuel generalizing d with
  | zero => rfl
  | succ fuel ih =>
      rw [trim]
      split
      case isFalse => rfl
      case isTrue zero =>
        have whole : 10 * (d.digits / 10) = d.digits := Nat.mul_div_cancel' (Nat.dvd_of_mod_eq_zero zero.2)
        rw [ih, value, value, zpow_add_one₀ (by norm_num), ← whole]
        simp only [Nat.mul_div_cancel_left _ (Nat.zero_lt_succ 9)]
        push_cast
        ring

theorem ten_pow_le_of_lt_length {n k : ℕ} (positive : 0 < n) (longer : k < (Nat.toDigits 10 n).length) :
    10 ^ k ≤ n := by
  cases k with
  | zero => exact positive
  | succ k =>
      refine Nat.le_of_not_lt fun less => Nat.not_le_of_lt longer ?_
      exact (Nat.length_toDigits_le_iff (by decide) (Nat.succ_pos k)).mpr less

namespace RoundingInterval

variable {r : RoundingInterval} {k : ℤ} {d : Decimal}

def middle (r : RoundingInterval) : ℚ := r.value / r.denominator

/-! ### Grids -/

/-- Points of a grid are compared with ends of the interval over a denominator that makes both integers. -/
theorem end_le_grid (positive : 0 < r.denominator) (n c : ℕ) (k : ℤ) :
    n * 10 ^ (-k).toNat ≤ c * (r.denominator * 10 ^ k.toNat) ↔ (n : ℚ) / r.denominator ≤ c * 10 ^ k := by
  have cast_pos : (0 : ℚ) < r.denominator := by exact_mod_cast positive
  rw [ten_zpow_eq_div, ← mul_div_assoc, div_le_div_iff₀ cast_pos (by positivity), ← Nat.cast_le (α := ℚ)]
  push_cast
  ring_nf

theorem grid_le_end (positive : 0 < r.denominator) (n c : ℕ) (k : ℤ) :
    c * (r.denominator * 10 ^ k.toNat) ≤ n * 10 ^ (-k).toNat ↔ (c * 10 ^ k : ℚ) ≤ n / r.denominator := by
  have cast_pos : (0 : ℚ) < r.denominator := by exact_mod_cast positive
  rw [ten_zpow_eq_div, ← mul_div_assoc, div_le_div_iff₀ (by positivity) cast_pos, ← Nat.cast_le (α := ℚ)]
  push_cast
  ring_nf

def scaled (r : RoundingInterval) (k : ℤ) : RoundingInterval :=
  { r with
    low := r.low * Nat.pow 10 (-k).toNat
    value := r.value * Nat.pow 10 (-k).toNat
    high := r.high * Nat.pow 10 (-k).toNat }

def unit (r : RoundingInterval) (k : ℤ) : ℕ := r.denominator * Nat.pow 10 k.toNat

theorem holds_scaled (positive : 0 < r.denominator) (c : ℕ) (k : ℤ) :
    (r.scaled k).holds (c * r.unit k) = true ↔ r.Contains (c * 10 ^ k) := by
  simp only [holds, scaled, unit, Contains, Nat.pow_eq]
  by_cases closed : r.closed = true
  · simp [closed, end_le_grid positive, grid_le_end positive]
  · simp [closed, ← not_le, end_le_grid positive, grid_le_end positive]

theorem contains_of_onGrid? (positive : 0 < r.denominator) (found : r.onGrid? k = some d) :
    r.Contains d.value := by
  have below := holds_scaled positive ((r.scaled k).value / r.unit k) k
  have above := holds_scaled positive ((r.scaled k).value / r.unit k + 1) k
  simp only [onGrid?] at found
  split at found
  case h_1 low high =>
    cases found
    unfold Decimal.value
    split
    · exact below.mp low
    · exact above.mp high
  case h_2 low _ =>
    cases found
    exact below.mp low
  case h_3 _ high =>
    cases found
    exact above.mp high
  case h_4 => cases found

/-- If one of the two neighbours of the middle lies in the interval, then a point is found. -/
theorem isSome_onGrid? (positive : 0 < r.denominator)
    (inside : ∀ c : ℕ, (c * 10 ^ k : ℚ) ≤ r.middle → r.middle < (c + 1 : ℕ) * 10 ^ k →
      r.Contains (c * 10 ^ k) ∨ r.Contains ((c + 1 : ℕ) * 10 ^ k)) : (r.onGrid? k).isSome := by
  have unit_pos : 0 < r.unit k := Nat.mul_pos positive (by rw [Nat.pow_eq]; positivity)
  have holds : (r.scaled k).holds ((r.scaled k).value / r.unit k * r.unit k) = true ∨
      (r.scaled k).holds (((r.scaled k).value / r.unit k + 1) * r.unit k) = true := by
    refine (inside ((r.scaled k).value / r.unit k) ?_ ?_).imp (holds_scaled positive _ k).mpr
      (holds_scaled positive _ k).mpr
    · exact (grid_le_end positive r.value _ k).mp (Nat.div_mul_le_self _ _)
    · refine lt_of_not_ge fun le => Nat.not_le_of_lt ?_ ((grid_le_end positive r.value _ k).mpr le)
      exact (Nat.lt_mul_div_succ _ unit_pos).trans_eq (Nat.mul_comm _ _)
  simp only [onGrid?]
  split
  case h_4 not_low not_high =>
    rcases holds with low | high
    · exact absurd low (Bool.eq_false_iff.mp not_low)
    · exact absurd high (Bool.eq_false_iff.mp not_high)
  all_goals rfl

/-! ### The search -/

theorem contains_search (positive : 0 < r.denominator) {fuel j : ℕ} (enough : j < fuel) {k : ℤ}
    (met : (r.onGrid? (k - j)).isSome) : r.Contains (r.search fuel k).value := by
  induction fuel generalizing j k with
  | zero => omega
  | succ fuel ih =>
      rw [search]
      split
      case h_1 d found => exact contains_of_onGrid? positive found
      case h_2 missed =>
        -- The grid that is met is not the one that was missed.
        cases j with
        | zero => simp [missed] at met
        | succ j => exact ih (Nat.lt_of_succ_lt_succ enough) (by rwa [sub_sub, add_comm 1, ← Nat.cast_add_one])

theorem ten_zpow_log10_le (positive : 0 < r.denominator) (above : 0 < r.value) :
    (10 : ℚ) ^ r.log10 ≤ r.middle := by
  have cast_pos : (0 : ℚ) < r.denominator := by exact_mod_cast positive
  rw [log10, middle, le_div_iff₀ cast_pos]
  split
  case isTrue whole =>
    obtain ⟨length, digits⟩ := Nat.exists_eq_add_of_lt
      (Nat.length_toDigits_pos (b := 10) (n := r.value / r.denominator))
    have reached : 10 ^ length ≤ r.value / r.denominator := by
      refine ten_pow_le_of_lt_length ?_ (by omega)
      exact Nat.div_pos whole positive
    have : 10 ^ length * r.denominator ≤ r.value := (Nat.le_div_iff_mul_le positive).mp reached
    have same : ((Nat.toDigits 10 (r.value / r.denominator)).length : ℤ) - 1 = length := by omega
    rw [same, zpow_natCast]
    exact_mod_cast this
  case isFalse part =>
    have many : (r.denominator - 1) / r.value < 10 ^ (Nat.toDigits 10 ((r.denominator - 1) / r.value)).length :=
      (Nat.length_toDigits_le_iff (by decide) Nat.length_toDigits_pos).mp le_rfl
    generalize (Nat.toDigits 10 ((r.denominator - 1) / r.value)).length = length at many
    have : r.denominator ≤ r.value * 10 ^ length := by
      have := (Nat.div_lt_iff_lt_mul above).mp many
      rw [Nat.mul_comm]
      omega
    rw [zpow_neg, zpow_natCast, inv_mul_le_iff₀ (by positivity), mul_comm]
    exact_mod_cast this

theorem contains_of_lt {x : ℚ} (low : (r.low : ℚ) / r.denominator < x) (high : x < r.high / r.denominator) :
    r.Contains x := by
  unfold Contains
  split
  · exact ⟨low.le, high.le⟩
  · exact ⟨low, high⟩

end RoundingInterval

namespace FloatFormat

variable {f : FloatFormat} {m : ℕ} {q : ℤ}

theorem around_denominator_pos (f : FloatFormat) (m : ℕ) (q : ℤ) :
    0 < (RoundingInterval.around f m q).denominator := by
  simp only [RoundingInterval.around, Nat.one_shiftLeft]
  positivity

theorem around_middle (f : FloatFormat) (m : ℕ) (q : ℤ) :
    (RoundingInterval.around f m q).middle = m * 2 ^ q := by
  unfold RoundingInterval.middle RoundingInterval.around
  rw [around_scaled]
  push_cast
  ring

theorem ten_zpow_lt {k : ℤ} {count unit : ℚ} (apart : 0 < unit) (fine : (10 : ℚ) ^ k * 10 ^ 16 ≤ count * unit)
    {part : ℚ} (few : count < part * 10 ^ 16) : (10 : ℚ) ^ k < part * unit := by
  have : (10 : ℚ) ^ k * 10 ^ 16 < part * unit * 10 ^ 16 := calc
    (10 : ℚ) ^ k * 10 ^ 16 ≤ count * unit := fine
    _ < part * 10 ^ 16 * unit := by gcongr
    _ = part * unit * 10 ^ 16 := by ring
  exact lt_of_mul_lt_mul_right this (by positivity)

/-- On a grid of `10 ^ 16` points up to the number, the nearest point is nearer than the ends. -/
theorem isSome_onGrid?_around (canonical : f.Canonical m q) (narrow : 2 ^ (f.fractionBits + 1) < 10 ^ 16)
    {k : ℤ} (fine : (10 : ℚ) ^ k * 10 ^ 16 ≤ m * 2 ^ q) :
    ((RoundingInterval.around f m q).onGrid? k).isSome := by
  have scale : (0 : ℚ) < 2 ^ q := by positivity
  have apart : (0 : ℚ) < 10 ^ k := by positivity
  have few : (2 : ℚ) ^ (f.fractionBits + 1) < 10 ^ 16 := by exact_mod_cast narrow
  have fits : (m : ℚ) < 2 ^ (f.fractionBits + 1) := by exact_mod_cast canonical.fits
  have unit_less : (10 : ℚ) ^ k < 1 * 2 ^ q := ten_zpow_lt scale fine (by linarith)
  have half_less (least : m = 1 <<< f.fractionBits) : (10 : ℚ) ^ k < 1 / 2 * 2 ^ q := by
    refine ten_zpow_lt scale fine ?_
    rw [least, Nat.one_shiftLeft]
    push_cast
    rw [pow_succ] at few
    linarith
  have low : ((RoundingInterval.around f m q).low : ℚ) / (RoundingInterval.around f m q).denominator <
      m * 2 ^ q - 10 ^ k / 2 := by
    rw [around_low canonical.positive]
    split
    case isTrue least => linarith [half_less least.1]
    case isFalse => linarith
  have high : m * 2 ^ q + 10 ^ k / 2 <
      ((RoundingInterval.around f m q).high : ℚ) / (RoundingInterval.around f m q).denominator := by
    rw [around_high]
    linarith
  refine RoundingInterval.isSome_onGrid? (around_denominator_pos f m q) fun c below above => ?_
  rw [around_middle] at below above
  push_cast at above
  -- One of the two neighbours is at most half a unit away.
  rcases le_total (m * 2 ^ q - c * 10 ^ k : ℚ) (10 ^ k / 2) with near | far
  · exact .inl (RoundingInterval.contains_of_lt (by linarith) (by linarith))
  · exact .inr (RoundingInterval.contains_of_lt (by push_cast; linarith) (by push_cast; linarith))

theorem contains_shortest (canonical : f.Canonical m q) (narrow : 2 ^ (f.fractionBits + 1) < 10 ^ 16) :
    (RoundingInterval.around f m q).Contains (f.shortest m q).value := by
  have above : 0 < (RoundingInterval.around f m q).value := by
    have := canonical.positive
    simp only [RoundingInterval.around, Nat.one_shiftLeft]
    positivity
  have start := RoundingInterval.ten_zpow_log10_le (around_denominator_pos f m q) above
  rw [around_middle] at start
  rw [shortest, Decimal.value_trim]
  refine RoundingInterval.contains_search (around_denominator_pos f m q) (j := 16) (by decide) ?_
  refine isSome_onGrid?_around canonical narrow (le_trans (le_of_eq ?_) start)
  rw [← zpow_natCast (10 : ℚ) 16, ← zpow_add₀ (by norm_num)]
  simp

end FloatFormat
end SignalGraph
