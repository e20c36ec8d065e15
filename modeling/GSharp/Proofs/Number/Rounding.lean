import GSharp.Proofs.Number.Value
import GSharp.Proofs.Number.Difference

namespace GSharp.Number

open Float.Model (UnpackedFloat totalExponent)
open Float.Model.Format (binary64)
open Float.Model.UnpackedFloat

variable {m n : Nat} {e f : Int} {a : UnpackedFloat} {x y : Float} {r : ℝ}

theorem Tells.shiftRightOne {extended : ExtendedMantissa} (tells : Tells extended r) :
    Tells extended.shiftRightOne (r / 2) := by
  obtain ⟨m, half, rest⟩ := extended
  obtain ⟨q, rfl | rfl⟩ := Nat.even_or_odd' m
  · have quotient : 2 * q / 2 = q := by omega
    have remainder : (2 * q % 2 != 0) = false := by simp
    cases half <;> cases rest <;>
      simp only [Tells, ExtendedMantissa.shiftRightOne, quotient, remainder, Bool.or_self,
        Bool.or_true, Bool.or_false] at tells ⊢ <;> push_cast at tells
    · linarith
    all_goals constructor <;> linarith
  · have quotient : (2 * q + 1) / 2 = q := by omega
    have remainder : ((2 * q + 1) % 2 != 0) = true := by simp
    cases half <;> cases rest <;>
      simp only [Tells, ExtendedMantissa.shiftRightOne, quotient, remainder, Bool.or_self,
        Bool.or_true, Bool.or_false] at tells ⊢ <;> push_cast at tells
    · linarith
    all_goals constructor <;> linarith

theorem Tells.shiftRight {extended : ExtendedMantissa} (tells : Tells extended r) (shift : Nat) :
    Tells (extended >>> shift) (r / 2 ^ shift) := by
  induction shift with
  | zero =>
    rw [pow_zero, div_one]
    exact tells
  | succ shift ih =>
    rw [pow_succ, ← div_div]
    exact ih.shiftRightOne

/-- A rounded mantissa is within one half. -/
theorem Tells.roundedMantissa {extended : ExtendedMantissa} (tells : Tells extended r) :
    |(extended.roundedMantissa : ℝ) - r| ≤ 1 / 2 := by
  obtain ⟨m, half, rest⟩ := extended
  rw [abs_le]
  cases half <;> cases rest <;>
    simp only [Tells, ExtendedMantissa.roundedMantissa, ExtendedMantissa.accuracy,
      Accuracy.roundToNearestEven] at tells ⊢
  case true.false =>
    subst tells
    rcases Nat.mod_two_eq_zero_or_one m with even | odd
    · simp [even]
    · simp [odd]
      norm_num
  all_goals push_cast
  · simp [tells]
  · constructor <;> linarith
  · constructor <;> linarith

theorem tells_exact (m : Nat) : Tells (.ofMantissaAndAccuracy m .exact) m := rfl

/-- A quotient of mantissas with the accuracy that its remainder gives. -/
theorem tells_div (m : Nat) (positive : 0 < n) :
    Tells (.ofMantissaAndAccuracy (m / n) (accuracyOfFraction (m % n) n)) (m / n) := by
  have some : (0 : ℝ) < n := by exact_mod_cast positive
  have whole : (m : ℝ) / n = (m / n : Nat) + (m % n : Nat) / n := by
    have parts : (n * (m / n : Nat) + (m % n : Nat) : ℝ) = m := by
      exact_mod_cast Nat.div_add_mod m n
    field_simp
    linarith
  have less : ((m % n : Nat) : ℝ) < n := by exact_mod_cast Nat.mod_lt m positive
  rw [whole]
  generalize m / n = q, m % n = rest at less
  unfold accuracyOfFraction
  split
  · next zero => simp [zero, Tells, ExtendedMantissa.ofMantissaAndAccuracy]
  · next nonzero =>
    have above : (0 : ℝ) < rest := by exact_mod_cast Nat.pos_of_ne_zero nonzero
    have fraction : (0 : ℝ) < rest / n ∧ (rest : ℝ) / n < 1 :=
      ⟨by positivity, (div_lt_one some).mpr less⟩
    rcases Nat.lt_trichotomy (2 * rest) n with low | tie | high
    · have half : (rest : ℝ) / n < 1 / 2 := by
        rw [div_lt_div_iff₀ some two_pos]
        have : (2 * rest : ℝ) < n := by exact_mod_cast low
        linarith
      rw [compare_lt_iff_lt.mpr low]
      exact ⟨by linarith, by linarith⟩
    · have half : (rest : ℝ) / n = 1 / 2 := by
        rw [div_eq_div_iff some.ne' two_ne_zero]
        have : (2 * rest : ℝ) = n := by exact_mod_cast tie
        linarith
      rw [compare_eq_iff_eq.mpr tie]
      rw [half]
      rfl
    · have half : 1 / 2 < (rest : ℝ) / n := by
        rw [div_lt_div_iff₀ two_pos some]
        have : (n : ℝ) < 2 * rest := by exact_mod_cast high
        linarith
      rw [compare_gt_iff_gt.mpr high]
      exact ⟨by linarith, by linarith⟩

theorem Tells.le {extended : ExtendedMantissa} (tells : Tells extended r) :
    (extended.mantissa : ℝ) ≤ r := by
  obtain ⟨m, half, rest⟩ := extended
  cases half <;> cases rest <;> simp only [Tells] at tells ⊢ <;> linarith

/-- Half a unit of the last place is little of the number, unless the unit is the least. -/
theorem half_unit_le {t : Int} (small : t = -1074 ∨ (2 : ℝ) ^ (t + 52) ≤ r) (nonneg : 0 ≤ r) :
    1 / 2 * (2 : ℝ) ^ t ≤ 2 ^ (-53 : ℤ) * r + 2 ^ (-1075 : ℤ) := by
  rcases small with rfl | some
  · have : 1 / 2 * (2 : ℝ) ^ (-1074 : ℤ) = 2 ^ (-1075 : ℤ) := by
      rw [show (-1074 : ℤ) = -1075 + 1 by norm_num, zpow_add_one₀ two_ne_zero]
      ring
    rw [this]
    have : (0 : ℝ) ≤ 2 ^ (-53 : ℤ) * r := by positivity
    linarith
  · have : 1 / 2 * (2 : ℝ) ^ t = 2 ^ (-53 : ℤ) * 2 ^ (t + 52) := by
      rw [← zpow_add₀ two_ne_zero, show -53 + (t + 52) = t - 1 by ring,
        zpow_sub_one₀ two_ne_zero]
      ring
    rw [this]
    have : (0 : ℝ) < 2 ^ (-1075 : ℤ) := by positivity
    have : (2 : ℝ) ^ (-53 : ℤ) * 2 ^ (t + 52) ≤ 2 ^ (-53 : ℤ) * r := by gcongr
    linarith

/-- Rounding up to one more bit than there is room for needs one more shift, which drops a zero. -/
theorem carry_shift {t : Int} (short : m ≤ 2 ^ 53) (least : -1074 ≤ t)
    (normal : 2 ^ 52 ≤ m ∨ t = -1074) :
    ∃ n f, (shiftToTargetExponent binary64 m t .exact).1.mantissa = n ∧
      (shiftToTargetExponent binary64 m t .exact).2 = f ∧
      (n : ℝ) * 2 ^ f = m * 2 ^ t ∧ Settled n f ∧ f ≤ t + 1 := by
  have target := targetExponent_eq m t
  simp only [shiftToTargetExponent, shiftToExponent, mantissa_shiftRight,
    mantissa_ofMantissaAndAccuracy, target]
  rcases Nat.lt_or_eq_of_le short with short | rfl
  · have length : m.log2 < 53 := (log2_lt_or_zero short).elim id (by omega)
    have none : (max ((m.log2 : Int) + 1 + t - 53) (-1074) - t).toNat = 0 := by omega
    rw [none]
    refine ⟨m, t, rfl, by simp, rfl, ⟨short, least, normal⟩, by omega⟩
  · have one : (max (((2 ^ 53 : Nat).log2 : Int) + 1 + t - 53) (-1074) - t).toNat = 1 := by
      rw [Nat.log2_two_pow]
      omega
    rw [one]
    refine ⟨2 ^ 52, t + 1, by decide, rfl, ?_, ⟨by norm_num, by omega, .inl le_rfl⟩, le_rfl⟩
    rw [zpow_add_one₀ two_ne_zero]
    push_cast
    ring

/-- The sign as a factor. -/
def factor (s : Sign) : ℝ := s.apply 1

theorem apply_eq_factor_mul (s : Sign) (m : Nat) : ((s.apply m : Int) : ℝ) = factor s * m := by
  cases s <;> simp [factor, Sign.apply]

theorem abs_factor (s : Sign) : |factor s| = 1 := by
  cases s <;> simp [factor, Sign.apply]

theorem factor_positive : factor .positive = 1 := by simp [factor, Sign.apply]

theorem factor_mul_self (s : Sign) : factor s * factor s = 1 := by
  rw [← abs_mul_abs_self, abs_factor, one_mul]

theorem factor_ne_zero (s : Sign) : factor s ≠ 0 :=
  left_ne_zero_of_mul_eq_one (factor_mul_self s)

/-- Where no bits are missing, the exponent to round to is the least one or keeps all the bits that
a double has. -/
theorem target_cases {t : Int} (target : max ((m.log2 : Int) + 1 + e - 53) (-1074) = t)
    (room : e ≤ t) : t = -1074 ∨ 2 ^ 52 ≤ m ∧ m.log2 + e = t + 52 := by
  rcases le_or_gt t (-1074) with least | above
  · exact .inl (by omega)
  · have long : 52 ≤ m.log2 := by omega
    have some : m ≠ 0 := by
      rintro rfl
      simp at long
    exact .inr ⟨(Nat.le_log2 some).mp long, by omega⟩

theorem target_weight {t : Int} (cases : t = -1074 ∨ m ≠ 0 ∧ m.log2 + e = t + 52)
    (low : (m : ℝ) ≤ r) : t = -1074 ∨ (2 : ℝ) ^ (t + 52) ≤ r * 2 ^ e := by
  rcases cases with least | ⟨nonzero, same⟩
  · exact .inl least
  right
  have size : ((2 ^ m.log2 : Nat) : ℝ) ≤ m := by exact_mod_cast Nat.log2_self_le nonzero
  calc (2 : ℝ) ^ (t + 52) = (2 ^ m.log2 : Nat) * 2 ^ e := by
        rw [← same, zpow_add₀ two_ne_zero, zpow_natCast]
        push_cast
        rfl
    _ ≤ r * 2 ^ e := by gcongr; exact size.trans low

/-- What is put together from a rounded mantissa is as near as that. -/
theorem near_of_carry_shift (s : Sign) {t : Int} (short : m ≤ 2 ^ 53) (least : -1074 ≤ t)
    (most : t ≤ 970) (normal : 2 ^ 52 ≤ m ∨ t = -1074) (nonneg : 0 ≤ r)
    (close : |(m : ℝ) * 2 ^ t - r| ≤ 2 ^ (-53 : ℤ) * r + 2 ^ (-1075 : ℤ)) :
    Near (if zero : (shiftToTargetExponent binary64 m t .exact).1.mantissa = 0 then .zero s
      else .finite s (shiftToTargetExponent binary64 m t .exact).1.mantissa
        (shiftToTargetExponent binary64 m t .exact).2 (Nat.pos_of_ne_zero zero))
      (factor s * r) := by
  obtain ⟨n, f, mantissa, exponent, same, settled, above⟩ := carry_shift short least normal
  simp only [mantissa, exponent]
  have size : |factor s * r| = r := by rw [abs_mul, abs_factor, one_mul, abs_of_nonneg nonneg]
  rw [← same] at close
  unfold Near
  rw [size]
  split
  · next zero =>
    refine ⟨trivial, ?_⟩
    rw [worth_zero, zero_sub, abs_neg, size]
    rwa [zero, Nat.cast_zero, zero_mul, zero_sub, abs_neg, abs_of_nonneg nonneg] at close
  · refine ⟨⟨settled, by omega⟩, ?_⟩
    rw [worth, apply_eq_factor_mul, mul_assoc, ← mul_sub, abs_mul, abs_factor, one_mul]
    exact close

theorem target_le {t : Int} (weight : t = -1074 ∨ (2 : ℝ) ^ (t + 52) ≤ r)
    (far : r ≤ 2 ^ (1000 : ℤ)) : t ≤ 970 := by
  rcases weight with rfl | weight
  · decide
  · have := (zpow_le_zpow_iff_right₀ one_lt_two).mp (weight.trans far)
    omega

theorem roundWithAccuracy_near (s : Sign) {accuracy : Accuracy}
    (tells : Tells (.ofMantissaAndAccuracy m accuracy) r)
    (room : e ≤ max ((m.log2 : Int) + 1 + e - 53) (-1074)) (far : r * 2 ^ e ≤ 2 ^ (1000 : ℤ)) :
    Near (roundWithAccuracy binary64 s m e accuracy) (factor s * (r * 2 ^ e)) := by
  have low := tells.le
  rw [mantissa_ofMantissaAndAccuracy] at low
  have nonneg : 0 ≤ r * 2 ^ e := mul_nonneg ((Nat.cast_nonneg m).trans low) (by positivity)
  obtain ⟨t, target⟩ : ∃ t, max ((m.log2 : Int) + 1 + e - 53) (-1074) = t := ⟨_, rfl⟩
  rw [target] at room
  have cases := target_cases target room
  have weight := target_weight (cases.imp id (And.imp_left fun long => by omega)) low
  have limit := target_le weight far
  obtain ⟨shift, rfl⟩ : ∃ shift : Nat, t = e + shift := ⟨(t - e).toNat, by omega⟩
  have amount : (e + shift - e).toNat = shift := by omega
  obtain ⟨shifted, dropped⟩ :
      ∃ shifted, ExtendedMantissa.ofMantissaAndAccuracy m accuracy >>> shift = shifted := ⟨_, rfl⟩
  have first : shiftToTargetExponent binary64 m e accuracy = (shifted, e + shift) := by
    simp only [shiftToTargetExponent, shiftToExponent, targetExponent_eq, target, amount, dropped]
  have half := (tells.shiftRight shift).roundedMantissa
  have kept := le_roundedMantissa shifted
  have raised := roundedMantissa_le shifted
  rw [← dropped, mantissa_shiftRight, mantissa_ofMantissaAndAccuracy, dropped] at kept raised
  rw [dropped] at half
  unfold roundWithAccuracy
  rw [first]
  apply near_of_carry_shift s _ (by omega) limit _ nonneg
  · calc |(shifted.roundedMantissa : ℝ) * 2 ^ (e + shift : ℤ) - r * 2 ^ e| =
          |(shifted.roundedMantissa - r / 2 ^ shift) * 2 ^ (e + shift : ℤ)| := by
            congr 1
            rw [sub_mul, zpow_add₀ two_ne_zero, zpow_natCast]
            field_simp
      _ = |shifted.roundedMantissa - r / 2 ^ shift| * 2 ^ (e + shift : ℤ) := by
          rw [abs_mul, abs_of_pos (by positivity : (0 : ℝ) < 2 ^ (e + shift : ℤ))]
      _ ≤ 1 / 2 * 2 ^ (e + shift : ℤ) := by gcongr
      _ ≤ _ := half_unit_le weight nonneg
  · have := shiftRight_lt (Nat.lt_log2_self (n := m)) shift
    have : 2 ^ (m.log2 + 1 - shift) ≤ 2 ^ 53 := Nat.pow_le_pow_right two_pos (by omega)
    omega
  · rcases cases with least | ⟨long, same⟩
    · exact .inr least
    · have length : (m >>> shift).log2 = 52 := log2_shiftRight (by omega)
      have some : m >>> shift ≠ 0 := fun zero => by simp [zero] at length
      exact .inl (((Nat.le_log2 some).mp length.ge).trans kept)

theorem round_near (s : Sign) (some : m ≠ 0) (far : m * 2 ^ e ≤ (2 : ℝ) ^ (1000 : ℤ)) :
    Near (UnpackedFloat.round binary64 s m e) (factor s * (m * 2 ^ e)) := by
  obtain ⟨t, target⟩ : ∃ t, binary64.targetExponent (totalExponent m e) = t := ⟨_, rfl⟩
  have same : ((m <<< (e - t).toNat : Nat) : ℝ) * 2 ^ (e - (e - t).toNat : ℤ) = m * 2 ^ e := by
    rw [Nat.shiftLeft_eq, zpow_sub₀ two_ne_zero, zpow_natCast]
    push_cast
    field_simp
  unfold UnpackedFloat.round
  simp only [decreaseExponent, target]
  rw [← same] at far ⊢
  refine roundWithAccuracy_near s (tells_exact _) ?_ far
  rw [targetExponent_eq] at target
  rw [log2_shiftLeft some]
  omega

theorem normalize_near {m : Int} (far : |(m : ℝ) * 2 ^ e| ≤ (2 : ℝ) ^ (1000 : ℤ)) :
    Near (UnpackedFloat.normalize binary64 m e .positive) (m * 2 ^ e) := by
  have magnitude : |(m : ℝ) * 2 ^ e| = m.natAbs * 2 ^ e := by
    rw [abs_mul, abs_of_pos (by positivity : (0 : ℝ) < 2 ^ e), ← Int.cast_abs, Int.abs_eq_natAbs,
      Int.cast_natCast]
  rw [magnitude] at far
  unfold UnpackedFloat.normalize
  rcases Int.lt_trichotomy m 0 with negative | rfl | positive
  · rw [compare_lt_iff_lt.mpr negative, show (-m).toNat = m.natAbs by omega]
    have signed : (m : ℝ) = factor .negative * m.natAbs := by
      rw [← apply_eq_factor_mul, Sign.apply]
      congr 1
      omega
    rw [signed, mul_assoc]
    exact round_near .negative (by omega) far
  · simp [Near, Fits, worth]
  · rw [compare_gt_iff_gt.mpr positive, show m.toNat = m.natAbs by omega]
    have signed : (m : ℝ) = factor .positive * m.natAbs := by
      rw [← apply_eq_factor_mul, Sign.apply]
      congr 1
      omega
    rw [signed, mul_assoc]
    exact round_near .positive (by omega) far

theorem Near.pack (near : Near a r) : Close (.ofModel (.pack a)) r := by
  have packed := near.1.parts_pack
  refine ⟨Fits.isFinite (by rw [packed]; exact near.1), ?_⟩
  rw [value, packed]
  exact near.2

theorem near_of_worth (fits : Fits a) : Near a (worth a) :=
  ⟨fits, by rw [sub_self, abs_zero]; positivity⟩

theorem finite_cases (finite : x.isFinite = true) :
    (∃ s, parts x = .zero s) ∨ ∃ s m e positive, parts x = .finite s m e positive := by
  change (parts x).isFinite = true at finite
  cases shape : parts x with
  | zero s => exact .inl ⟨s, rfl⟩
  | finite s m e positive => exact .inr ⟨s, m, e, positive, rfl⟩
  | _ => rw [shape] at finite; cases finite

theorem worth_finite (s : Sign) (positive : 0 < m) :
    worth (.finite s m e positive) = factor s * (m * 2 ^ e) := by
  rw [worth, apply_eq_factor_mul, mul_assoc]

theorem factor_mul (s t : Sign) : factor (s * t) = factor s * factor t := by
  cases s <;> cases t <;> simp [factor, Sign.apply]

theorem factor_div (s t : Sign) : factor (s / t) = factor s / factor t := by
  have quotient : s / t = s * t := by cases s <;> cases t <;> rfl
  rw [quotient, factor_mul, eq_div_iff (factor_ne_zero t), mul_assoc, factor_mul_self, mul_one]

theorem abs_factor_mul (s : Sign) (r : ℝ) : |factor s * r| = |r| := by
  rw [abs_mul, abs_factor, one_mul]

theorem log2_mul_ge (long : 2 ^ 52 ≤ m ∨ 2 ^ 52 ≤ n) (positive : 0 < m) (some : 0 < n) :
    52 ≤ (m * n).log2 := by
  rw [Nat.le_log2 (by positivity)]
  rcases long with long | long
  · exact long.trans (Nat.le_mul_of_pos_right m some)
  · exact long.trans (Nat.le_mul_of_pos_left n positive)

theorem mul_close (left : x.isFinite = true) (right : y.isFinite = true)
    (far : |value x * value y| ≤ 2 ^ (1000 : ℤ)) : Close (x * y) (value x * value y) := by
  have packed : x * y = .ofModel (.pack (UnpackedFloat.mul binary64 (parts x) (parts y))) := rfl
  rw [packed]
  apply Near.pack
  unfold value at far ⊢
  rcases finite_cases left with ⟨s, first⟩ | ⟨s, m, e, positive, first⟩ <;>
    rcases finite_cases right with ⟨t, second⟩ | ⟨t, n, f, some, second⟩ <;>
    rw [first, second] at far ⊢
  case inr.inr =>
    have ⟨short, least, normal⟩ := bounds_of_parts first
    have ⟨short', least', normal'⟩ := bounds_of_parts second
    have product : worth (.finite s m e positive) * worth (.finite t n f some) =
        factor (s * t) * ((m * n : Nat) * 2 ^ (e + f)) := by
      rw [worth_finite, worth_finite, factor_mul, zpow_add₀ two_ne_zero]
      push_cast
      ring
    rw [product] at far ⊢
    rw [abs_factor_mul, abs_of_nonneg (by positivity)] at far
    refine roundWithAccuracy_near _ (tells_exact _) ?_ far
    rcases normal with long | rfl
    · have := log2_mul_ge (.inl long) positive some
      omega
    · rcases normal' with long | rfl
      · have := log2_mul_ge (.inr long) positive some
        omega
      · omega
  all_goals
    simp only [worth, zero_mul, mul_zero]
    exact near_of_worth (a := .zero _) trivial

/-- Lowering the exponent leaves the number as it is. -/
theorem apply_shiftLeft (s : Sign) {k : Int} (positive : 0 < m) (le : k ≤ e) :
    ((s.apply (m <<< (e - k).toNat : Nat) : Int) : ℝ) * 2 ^ k = worth (.finite s m e positive) := by
  obtain ⟨shift, rfl⟩ : ∃ shift : Nat, e = k + shift := ⟨(e - k).toNat, by omega⟩
  have amount : (k + shift - k : Int).toNat = shift := by omega
  rw [worth_finite, apply_eq_factor_mul, amount, Nat.shiftLeft_eq, zpow_add₀ two_ne_zero,
    zpow_natCast]
  push_cast
  ring

theorem add_close (left : x.isFinite = true) (right : y.isFinite = true)
    (far : |value x + value y| ≤ 2 ^ (1000 : ℤ)) : Close (x + y) (value x + value y) := by
  have packed : x + y = .ofModel (.pack (UnpackedFloat.add binary64 (parts x) (parts y))) := rfl
  have fits := fits_parts left
  have fits' := fits_parts right
  rw [packed]
  apply Near.pack
  unfold value at far ⊢
  rcases finite_cases left with ⟨s, first⟩ | ⟨s, m, e, positive, first⟩ <;>
    rcases finite_cases right with ⟨t, second⟩ | ⟨t, n, f, some, second⟩ <;>
    rw [first] at fits <;> rw [second] at fits' <;> rw [first, second] at far ⊢
  case inl.inl =>
    rw [worth_zero, worth_zero, add_zero]
    cases s <;> cases t <;> exact near_of_worth (a := .zero _) trivial
  case inl.inr =>
    rw [worth_zero, zero_add]
    exact near_of_worth fits'
  case inr.inl =>
    rw [worth_zero, add_zero]
    exact near_of_worth fits
  case inr.inr =>
    have sum : worth (.finite s m e positive) + worth (.finite t n f some) =
        ((s.apply (m <<< (e - min e f).toNat : Nat) +
          t.apply (n <<< (f - min e f).toNat : Nat) : Int) : ℝ) * 2 ^ min e f := by
      rw [Int.cast_add, add_mul, apply_shiftLeft s positive (min_le_left e f),
        apply_shiftLeft t some (min_le_right e f)]
    rw [sum] at far ⊢
    exact normalize_near far

theorem sub_close (left : x.isFinite = true) (right : y.isFinite = true)
    (far : |value x - value y| ≤ 2 ^ (1000 : ℤ)) : Close (x - y) (value x - value y) := by
  have negated := (isFinite_neg y).trans right
  rw [sub_eq_add_neg, ← value_neg] at far ⊢
  rw [sub_eq_add]
  exact add_close left negated far

/-- Shifted far enough, a mantissa has a quotient with all the bits that are kept. -/
theorem log2_quotient {shift : Nat} (positive : 0 < m) (some : 0 < n)
    (room : n.log2 + 53 ≤ m.log2 + shift) : 52 ≤ (m <<< shift / n).log2 := by
  have long : 2 ^ 52 ≤ m <<< shift / n := by
    rw [Nat.le_div_iff_mul_le some, Nat.shiftLeft_eq]
    have less : n < 2 ^ (n.log2 + 1) := Nat.lt_log2_self
    calc 2 ^ 52 * n ≤ 2 ^ 52 * 2 ^ (n.log2 + 1) := Nat.mul_le_mul_left _ less.le
      _ = 2 ^ (n.log2 + 53) := by rw [← Nat.pow_add]; congr 1; omega
      _ ≤ 2 ^ (m.log2 + shift) := Nat.pow_le_pow_right two_pos room
      _ = 2 ^ m.log2 * 2 ^ shift := Nat.pow_add ..
      _ ≤ m * 2 ^ shift := Nat.mul_le_mul_right _ (Nat.log2_self_le positive.ne')
  exact (Nat.le_log2 (by omega)).mpr long

theorem div_close (left : x.isFinite = true) (right : y.isFinite = true) (divisor : value y ≠ 0)
    (far : |value x / value y| ≤ 2 ^ (1000 : ℤ)) : Close (x / y) (value x / value y) := by
  have packed : x / y = .ofModel (.pack (UnpackedFloat.div binary64 (parts x) (parts y))) := rfl
  rw [packed]
  apply Near.pack
  unfold value at far divisor ⊢
  rcases finite_cases right with ⟨t, second⟩ | ⟨t, n, f, some, second⟩
  · rw [second] at divisor
    exact (divisor rfl).elim
  rcases finite_cases left with ⟨s, first⟩ | ⟨s, m, e, positive, first⟩ <;>
    rw [first, second] at far ⊢
  · rw [worth_zero, zero_div]
    exact near_of_worth (a := .zero _) trivial
  · have target : binary64.targetExponent (totalExponent m e - totalExponent n f) =
        max ((m.log2 : Int) + 1 + e - (n.log2 + 1 + f) - 53) (-1074) := rfl
    unfold UnpackedFloat.div UnpackedFloat.divCore
    simp only [target]
    obtain ⟨k, reached⟩ : ∃ k, min (e - f)
      (max ((m.log2 : Int) + 1 + e - (n.log2 + 1 + f) - 53) (-1074)) = k := ⟨_, rfl⟩
    obtain ⟨shift, amount⟩ : ∃ shift : Nat, e - f = k + shift := ⟨(e - f - k).toNat, by omega⟩
    have same : (e - f - k).toNat = shift := by omega
    simp only [reached, same]
    have quotient : worth (.finite s m e positive) / worth (.finite t n f some) =
        factor (s / t) * (((m <<< shift : Nat) / n : ℝ) * 2 ^ k) := by
      have exponent : (2 : ℝ) ^ e = 2 ^ f * (2 ^ shift * 2 ^ k) := by
        rw [← zpow_natCast, ← zpow_add₀ two_ne_zero, ← zpow_add₀ two_ne_zero]
        congr 1
        omega
      rw [worth_finite, worth_finite, factor_div, exponent, Nat.shiftLeft_eq]
      push_cast
      have := factor_ne_zero t
      have : (n : ℝ) ≠ 0 := by exact_mod_cast some.ne'
      field_simp
    rw [quotient] at far ⊢
    rw [abs_factor_mul, abs_of_nonneg (by positivity)] at far
    refine roundWithAccuracy_near _ (tells_div _ some) ?_ far
    by_cases least : k ≤ -1074
    · omega
    · have long : 52 ≤ (m <<< shift / n).log2 := log2_quotient positive some (by omega)
      omega

end GSharp.Number
