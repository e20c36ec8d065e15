import GSharp.Proofs.Number.Rounding

namespace GSharp.Number

open Float.Model.UnpackedFloat

variable {m n : Nat} {x y : Float} {r v : ℝ}

/-- The integer nearest to a real number, of two that are equally near the even one. -/
structure NearestInteger (m : Nat) (r : ℝ) : Prop where
  nearest : ∀ k : Int, |(m : ℝ) - r| ≤ |k - r|
  even : ∀ k : Int, k ≠ m → |k - r| = |(m : ℝ) - r| → Even m

/-- The double nearest to a real number, of two that are equally near the one with an even
mantissa. -/
structure NearestEven (x : Float) (r : ℝ) : Prop where
  finite : x.isFinite = true
  nearest : ∀ y : Float, y.isFinite = true → |value x - r| ≤ |value y - r|
  even : ∀ y : Float, y.isFinite = true → value y ≠ value x → |value y - r| = |value x - r| →
    Even (fraction x)

namespace NearestInteger

/-- An integer within one half has no nearer ones, and rivals only at one half. -/
theorem of_half (close : |(m : ℝ) - r| ≤ 1 / 2) (tie : |(m : ℝ) - r| = 1 / 2 → Even m) :
    NearestInteger m r := by
  have rival (k : Int) (other : k ≠ m) : 1 / 2 ≤ |k - r| := by
    have apart : (1 : ℝ) ≤ |(k : ℝ) - m| := by
      exact_mod_cast Int.one_le_abs (sub_ne_zero.mpr other)
    have := abs_sub ((k : ℝ) - r) (m - r)
    rw [sub_sub_sub_cancel_right] at this
    linarith
  refine ⟨fun k => ?_, fun k other same => tie (le_antisymm close ?_)⟩
  · rcases eq_or_ne k m with rfl | other
    · rw [Int.cast_natCast]
    · exact close.trans (rival k other)
  · exact same ▸ rival k other

theorem exact (m : Nat) : NearestInteger m m := by
  have zero : |(m : ℝ) - m| = 0 := by rw [sub_self, abs_zero]
  exact .of_half (by rw [zero]; norm_num) fun half => by rw [zero] at half; norm_num at half

theorem close (near : NearestInteger m r) : |(m : ℝ) - r| ≤ 1 / 2 := by
  have half := abs_sub_round r
  rw [← abs_neg, neg_sub] at half
  exact (near.nearest _).trans half

end NearestInteger

/-- The quotient of a shift to the right, what it drops, and which way that is rounded. -/
theorem halveToEven_cases (n shift : Nat) : ∃ q rest, n = q * 2 ^ shift + rest ∧
    rest < 2 ^ shift ∧
      (halveToEven n shift = q ∧ (2 * rest < 2 ^ shift ∨ 2 * rest = 2 ^ shift ∧ Even q) ∨
        halveToEven n shift = q + 1 ∧
          (2 ^ shift < 2 * rest ∨ 2 * rest = 2 ^ shift ∧ Even (q + 1))) := by
  have unit : 1 <<< shift = 2 ^ shift := Nat.one_shiftLeft shift
  have whole := Nat.div_add_mod' n (2 ^ shift)
  have rest : n - (n >>> shift) <<< shift = n % 2 ^ shift := by
    rw [Nat.shiftRight_eq_div_pow, Nat.shiftLeft_eq]
    omega
  refine ⟨n >>> shift, n % 2 ^ shift, ?_, Nat.mod_lt n (Nat.two_pow_pos shift), ?_⟩
  · rw [Nat.shiftRight_eq_div_pow, whole]
  · simp only [halveToEven, unit, rest, Nat.even_iff]
    split <;> omega

theorem halveToEven_nearest (n shift : Nat) :
    NearestInteger (halveToEven n shift) (n / 2 ^ shift) := by
  obtain ⟨q, rest, whole, less, rounded⟩ := halveToEven_cases n shift
  have positive : (0 : ℝ) < 2 ^ shift := by positivity
  have fraction : (n : ℝ) / 2 ^ shift = q + rest / 2 ^ shift := by
    rw [whole]
    push_cast
    field_simp
  have twice : (2 * rest : ℝ) / 2 ^ shift = 2 * (rest / 2 ^ shift) := mul_div_assoc ..
  have above : (0 : ℝ) ≤ rest / 2 ^ shift := by positivity
  have below : (rest : ℝ) / 2 ^ shift < 1 := by
    rw [div_lt_one positive]
    exact_mod_cast less
  rw [fraction]
  rcases rounded with ⟨down, half⟩ | ⟨up, half⟩
  · have distance : |(q : ℝ) - (q + rest / 2 ^ shift)| = rest / 2 ^ shift := by
      rw [sub_add_cancel_left, abs_neg, abs_of_nonneg above]
    rw [down]
    rcases half with less | ⟨tie, even⟩
    · have : (2 * rest : ℝ) / 2 ^ shift < 1 := by
        rw [div_lt_one positive]
        exact_mod_cast less
      exact .of_half (by linarith) fun same => by linarith
    · have : (2 * rest : ℝ) / 2 ^ shift = 1 := by
        rw [div_eq_one_iff_eq positive.ne']
        exact_mod_cast tie
      exact .of_half (by linarith) fun _ => even
  · have distance : |((q + 1 : Nat) : ℝ) - (q + rest / 2 ^ shift)| = 1 - rest / 2 ^ shift := by
      push_cast
      rw [add_sub_add_left_eq_sub, abs_of_pos (by linarith)]
    rw [up]
    rcases half with more | ⟨tie, even⟩
    · have : 1 < (2 * rest : ℝ) / 2 ^ shift := by
        rw [one_lt_div positive]
        exact_mod_cast more
      exact .of_half (by linarith) fun same => by linarith
    · have : (2 * rest : ℝ) / 2 ^ shift = 1 := by
        rw [div_eq_one_iff_eq positive.ne']
        exact_mod_cast tie
      exact .of_half (by linarith) fun _ => even

/-- A finite double is a multiple of any unit that is not too large for it. -/
theorem multiple_or_small (finite : x.isFinite = true) (t : Int) :
    (∃ k : Int, value x = k * 2 ^ t) ∨ -1074 < t ∧ |value x| < 2 ^ (t + 52) := by
  rcases finite_cases finite with ⟨s, shape⟩ | ⟨s, m, e, positive, shape⟩
  · exact .inl ⟨0, by rw [value, shape, worth_zero, Int.cast_zero, zero_mul]⟩
  · obtain ⟨short, least, -⟩ := bounds_of_parts shape
    rw [value, shape]
    rcases le_or_gt t e with fine | coarse
    · refine .inl ⟨s.apply m * 2 ^ (e - t).toNat, ?_⟩
      have power : (2 : ℝ) ^ e = 2 ^ (e - t).toNat * 2 ^ t := by
        rw [← zpow_natCast, ← zpow_add₀ two_ne_zero, Int.toNat_of_nonneg (by omega),
          sub_add_cancel]
      rw [worth, power]
      push_cast
      ring
    · refine .inr ⟨by omega, ?_⟩
      have size : (m : ℝ) < 2 ^ (53 : ℤ) := by exact_mod_cast short
      rw [worth_finite, abs_factor_mul, abs_of_pos (scaled_pos positive e)]
      calc (m : ℝ) * 2 ^ e < 2 ^ (53 : ℤ) * 2 ^ e := by gcongr
        _ = 2 ^ (53 + e) := (zpow_add₀ two_ne_zero _ _).symm
        _ ≤ 2 ^ (t + 52) := zpow_le_zpow_right₀ one_le_two (by omega)

theorem abs_sub_in_unit (k r : ℝ) (t : Int) : |k * 2 ^ t - r| = |k - r / 2 ^ t| * 2 ^ t := by
  have unit : (0 : ℝ) < 2 ^ t := by positivity
  rw [← abs_of_pos unit, ← abs_mul, abs_of_pos unit, sub_mul, div_mul_cancel₀ _ unit.ne']

/-- In a unit of which a number has enough, no double is nearer to it than the nearest multiple. -/
theorem NearestInteger.scaled {t : Int} (near : NearestInteger m (r / 2 ^ t))
    (weight : t = -1074 ∨ (2 : ℝ) ^ (t + 52) ≤ r)
    (place : (∃ k : Int, v = k * 2 ^ t) ∨ -1074 < t ∧ |v| < 2 ^ (t + 52)) :
    |m * 2 ^ t - r| ≤ |v - r| ∧ (v ≠ m * 2 ^ t → |v - r| = |m * 2 ^ t - r| → Even m) := by
  have unit : (0 : ℝ) < 2 ^ t := by positivity
  have nearest (k : Int) : |m * 2 ^ t - r| ≤ |k * 2 ^ t - r| := by
    rw [abs_sub_in_unit, abs_sub_in_unit]
    exact mul_le_mul_of_nonneg_right (near.nearest k) unit.le
  rcases place with ⟨k, rfl⟩ | ⟨above, small⟩
  · refine ⟨nearest k, fun other same => near.even k ?_ ?_⟩
    · rintro rfl
      exact other (by rw [Int.cast_natCast])
    · rw [abs_sub_in_unit, abs_sub_in_unit] at same
      exact mul_right_cancel₀ unit.ne' same
  · -- The least multiple with all its bits lies between the smaller double and the number.
    have least : ((2 ^ 52 : Int) : ℝ) * 2 ^ t = 2 ^ (t + 52) := by
      rw [zpow_add₀ two_ne_zero]
      push_cast
      ring
    have most := weight.resolve_left above.ne'
    have bound := nearest (2 ^ 52)
    rw [least, abs_of_nonpos (sub_nonpos.mpr most)] at bound
    have farther : |m * 2 ^ t - r| < |v - r| := by
      have := neg_le_abs (v - r)
      have := (abs_lt.mp small).2
      linarith
    exact ⟨farther.le, fun _ same => absurd same farther.ne'⟩

end GSharp.Number
