import GSharp.Proofs.Number.Parts

namespace GSharp.Number

open Float.Model (UnpackedFloat totalExponent)
open Float.Model.Format (binary64)
open Float.Model.UnpackedFloat

variable {m n : Nat} {x y : Float}

/-- The mantissa of a number that is whole and safe: its bits from the highest of fifty-three on. -/
def lifted (n : Nat) : Nat := n <<< (52 - n.log2)

theorem log2_le (safe : n ≤ maxSafe) : n.log2 ≤ 52 := by
  by_cases zero : n = 0
  · simp [zero]
  · have small : n < 2 ^ 53 := Nat.lt_of_le_of_lt safe (by decide)
    exact Nat.le_of_lt_succ ((Nat.log2_lt zero).mpr small)

theorem lifted_bounds (positive : n ≠ 0) (safe : n ≤ maxSafe) :
    2 ^ 52 ≤ lifted n ∧ lifted n < 2 ^ 53 := by
  have low : 2 ^ n.log2 ≤ n := Nat.log2_self_le positive
  have high : n < 2 ^ (n.log2 + 1) := Nat.lt_log2_self
  have room := log2_le safe
  rw [lifted, Nat.shiftLeft_eq]
  constructor
  · calc 2 ^ 52 = 2 ^ n.log2 * 2 ^ (52 - n.log2) := by rw [← Nat.pow_add]; congr 1; omega
      _ ≤ n * 2 ^ (52 - n.log2) := Nat.mul_le_mul_right _ low
  · calc n * 2 ^ (52 - n.log2) < 2 ^ (n.log2 + 1) * 2 ^ (52 - n.log2) :=
          Nat.mul_lt_mul_of_pos_right high (by positivity)
      _ = 2 ^ 53 := by rw [← Nat.pow_add]; congr 1; omega

theorem ofNat_eq (positive : n ≠ 0) (room : n.log2 ≤ 52) : ofNat n =
    Float.ofBits (UInt64.ofNat (min ((n.log2 + 1022) * 2 ^ 52 + lifted n) (2047 * 2 ^ 52))) := by
  have target : max ((n.log2 : Int) + 1 + 0 - 53) (-1074) = n.log2 - 52 := by omega
  have shift : (0 - ((n.log2 : Int) - 52)).toNat = 52 - n.log2 := by omega
  have field : ((n.log2 : Int) - 52 + 1074).toNat = n.log2 + 1022 := by omega
  rw [ofNat, roundScaled, target, shift, field, if_neg positive,
    if_neg (show ¬(0 : Int) < n.log2 - 52 by omega), if_neg Bool.false_ne_true, lifted]

/-- The parts of a positive whole number that is safe. -/
theorem parts_ofNat (positive : n ≠ 0) (safe : n ≤ maxSafe) :
    parts (ofNat n) =
      .finite .positive (lifted n) (n.log2 - 52)
        (by have := lifted_bounds positive safe; omega) := by
  have ⟨low, high⟩ := lifted_bounds positive safe
  have room := log2_le safe
  have magnitude : min ((n.log2 + 1022) * 2 ^ 52 + lifted n) (2047 * 2 ^ 52) =
      (n.log2 + 1023) * 2 ^ 52 + (lifted n - 2 ^ 52) := by omega
  rw [ofNat_eq positive room, magnitude, parts_ofBits (by omega) (by omega) (by omega)]
  simp only [UnpackedFloat.finite.injEq, true_and]
  omega

theorem parts_ofNat_zero : parts (ofNat 0) = .zero .positive := rfl

theorem lt_of_log2_lt (less : m.log2 < n.log2) : m < n := by
  have positive : n ≠ 0 := by rintro rfl; simp at less
  calc m < 2 ^ (m.log2 + 1) := Nat.lt_log2_self
    _ ≤ 2 ^ n.log2 := Nat.pow_le_pow_right (by decide) less
    _ ≤ n := Nat.log2_self_le positive

/-- Exponents and lifted mantissas, in this order, compare as the numbers do. -/
theorem compare_lifted (m n : Nat) :
    (compare ((m.log2 : Int) - 52) (n.log2 - 52)).then (compare (lifted m) (lifted n)) =
      compare m n := by
  rcases Nat.lt_trichotomy m.log2 n.log2 with less | same | greater
  · rw [compare_lt_iff_lt.mpr (by omega), compare_lt_iff_lt.mpr (lt_of_log2_lt less)]
    rfl
  · have scaled : compare (lifted m) (lifted n) = compare m n := by
      rw [lifted, lifted, same, Nat.shiftLeft_eq, Nat.shiftLeft_eq]
      rw [Nat.compare_eq_ite_lt, Nat.compare_eq_ite_lt]
      simp only [Nat.mul_lt_mul_right (Nat.two_pow_pos _)]
    rw [same, compare_eq_iff_eq.mpr rfl, scaled]
    rfl
  · rw [compare_gt_iff_gt.mpr (by omega), compare_gt_iff_gt.mpr (lt_of_log2_lt greater)]
    rfl

theorem compare_ofNat (left : m ≤ maxSafe) (right : n ≤ maxSafe) :
    (parts (ofNat m)).compare (parts (ofNat n)) = some (compare m n) := by
  by_cases noLeft : m = 0
  · subst noLeft
    by_cases noRight : n = 0
    · subst noRight; rfl
    · rw [parts_ofNat_zero, parts_ofNat noRight right, compare_lt_iff_lt.mpr (by omega)]
      rfl
  · by_cases noRight : n = 0
    · subst noRight
      rw [parts_ofNat_zero, parts_ofNat noLeft left, compare_gt_iff_gt.mpr (by omega)]
      rfl
    · rw [parts_ofNat noLeft left, parts_ofNat noRight right, ← compare_lifted]
      rfl

theorem ofNat_le_iff (left : m ≤ maxSafe) (right : n ≤ maxSafe) : ofNat m ≤ ofNat n ↔ m ≤ n := by
  rw [le_iff_parts, UnpackedFloat.le, compare_ofNat left right, Option.any_some, Nat.isLE_compare]

theorem ofNat_lt_iff (left : m ≤ maxSafe) (right : n ≤ maxSafe) : ofNat m < ofNat n ↔ m < n := by
  rw [lt_iff_parts, UnpackedFloat.lt, compare_ofNat left right, ← compare_lt_iff_lt]
  simp

/-- Shifting to the right takes back an exact shift to the left. -/
theorem shiftRight_exact (m shift : Nat) :
    (⟨m <<< shift, false, false⟩ : ExtendedMantissa) >>> shift = ⟨m, false, false⟩ := by
  induction shift generalizing m with
  | zero => rfl
  | succ shift ih =>
    have moved : m <<< (shift + 1) = (m <<< 1) <<< shift := by
      rw [← Nat.shiftLeft_add, Nat.add_comm]
    have one : ExtendedMantissa.shiftRightOne ⟨m <<< 1, false, false⟩ = ⟨m, false, false⟩ := by
      simp [ExtendedMantissa.shiftRightOne, Nat.shiftLeft_eq]
    have next : (⟨m <<< (shift + 1), false, false⟩ : ExtendedMantissa) >>> (shift + 1) =
        .shiftRightOne ((⟨m <<< (shift + 1), false, false⟩ : ExtendedMantissa) >>> shift) := rfl
    rw [next, moved, ih, one]

theorem log2_shiftLeft (positive : n ≠ 0) (shift : Nat) :
    (n <<< shift).log2 = n.log2 + shift := by
  have scaled : n <<< shift ≠ 0 := by simp [Nat.shiftLeft_eq, positive]
  rw [Nat.log2_eq_iff scaled, Nat.shiftLeft_eq]
  constructor
  · rw [Nat.pow_add]
    exact Nat.mul_le_mul_right _ (Nat.log2_self_le positive)
  · rw [Nat.add_right_comm, Nat.pow_add]
    exact Nat.mul_lt_mul_of_pos_right Nat.lt_log2_self (Nat.two_pow_pos _)

/-- The exponent that rounding aims at depends on the value alone, not on how it is scaled. -/
theorem targetExponent_shifted (positive : n ≠ 0) {shift : Nat} {e : Int} (unit : e + shift = 0) :
    binary64.targetExponent (totalExponent (n <<< shift) e) = n.log2 - 52 := by
  simp only [Float.Model.Format.targetExponent, totalExponent, log2_shiftLeft positive,
    Float.Model.Format.mantissaBits, Float.Model.Format.minExponent]
  omega

theorem shiftToTargetExponent_exact {shift : Nat} {e target : Int} (above : e + shift = target)
    (aimed : binary64.targetExponent (totalExponent (m <<< shift) e) = target) :
    shiftToTargetExponent binary64 (m <<< shift) e .exact =
      ((⟨m, false, false⟩ : ExtendedMantissa), target) := by
  have amount : (target - e).toNat = shift := by omega
  simp only [shiftToTargetExponent, shiftToExponent, aimed, amount, above,
    ExtendedMantissa.ofMantissaAndAccuracy, shiftRight_exact]

/-- A whole number over a power of two is rounded to its own double. -/
theorem round_shifted (positive : n ≠ 0) (safe : n ≤ maxSafe) (shift : Nat) :
    UnpackedFloat.round binary64 .positive (n <<< shift) (-(shift : Int)) = parts (ofNat n) := by
  have room := log2_le safe
  obtain ⟨extra, high⟩ : ∃ extra, max shift (52 - n.log2) = 52 - n.log2 + extra :=
    Nat.exists_eq_add_of_le (Nat.le_max_right ..)
  have target := @targetExponent_shifted n positive shift (-shift) (by omega)
  have raised : decreaseExponent (n <<< shift) (-(shift : Int)) (n.log2 - 52) =
      (lifted n <<< extra, (n.log2 : Int) - 52 - extra) := by
    simp only [decreaseExponent, lifted, ← Nat.shiftLeft_add, Prod.mk.injEq]
    constructor
    · congr 1; omega
    · omega
  have dropped : shiftToTargetExponent binary64 (lifted n <<< extra)
      ((n.log2 : Int) - 52 - extra) .exact =
        ((⟨lifted n, false, false⟩ : ExtendedMantissa), (n.log2 : Int) - 52) := by
    refine shiftToTargetExponent_exact (Int.sub_add_cancel ..) ?_
    rw [lifted, ← Nat.shiftLeft_add]
    exact targetExponent_shifted positive (by omega)
  have settled : shiftToTargetExponent binary64 (lifted n) (n.log2 - 52) .exact =
      ((⟨lifted n, false, false⟩ : ExtendedMantissa), (n.log2 : Int) - 52) :=
    @shiftToTargetExponent_exact (lifted n) 0 _ _ (Int.add_zero _)
      (targetExponent_shifted positive (by omega))
  rw [UnpackedFloat.round, target]
  simp only [raised]
  rw [roundWithAccuracy, dropped]
  simp only [ExtendedMantissa.roundedMantissa, ExtendedMantissa.accuracy,
    Accuracy.roundToNearestEven, settled]
  rw [dif_neg, parts_ofNat positive safe]
  have := lifted_bounds positive safe
  omega

theorem normalize_shifted (safe : n ≤ maxSafe) (shift : Nat) :
    UnpackedFloat.normalize binary64 (n <<< shift : Nat) (-(shift : Int)) .positive =
      parts (ofNat n) := by
  by_cases zero : n = 0
  · subst zero
    rw [Nat.zero_shiftLeft]
    rfl
  · have positive : 0 < n <<< shift := by rw [Nat.shiftLeft_eq]; positivity
    rw [UnpackedFloat.normalize, compare_gt_iff_gt.mpr (by omega)]
    exact round_shifted zero safe shift

/-- Whole numbers brought to a common exponent are all scaled by the same power of two. -/
theorem decreaseExponent_lifted (safe : n ≤ maxSafe) {shift : Nat} (room : 52 - n.log2 ≤ shift) :
    (decreaseExponent (lifted n) (n.log2 - 52) (-(shift : Int))).1 = n <<< shift := by
  have := log2_le safe
  have amount : ((n.log2 : Int) - 52 - -(shift : Int)).toNat = shift - (52 - n.log2) := by omega
  simp only [decreaseExponent, amount, lifted, ← Nat.shiftLeft_add]
  congr 1
  omega

/-- The smaller exponent of two whole numbers, and the room that both have above it. -/
theorem exists_common_shift (left : m ≤ maxSafe) (right : n ≤ maxSafe) :
    ∃ shift : Nat, min ((m.log2 : Int) - 52) (n.log2 - 52) = -(shift : Int) ∧
      52 - m.log2 ≤ shift ∧ 52 - n.log2 ≤ shift := by
  have := log2_le left
  have := log2_le right
  exact ⟨max (52 - m.log2) (52 - n.log2), by omega, Nat.le_max_left .., Nat.le_max_right ..⟩

theorem eq_add_of_parts {z : Float}
    (same : UnpackedFloat.add binary64 (parts x) (parts y) = parts z) : x + y = z := by
  rw [← pack_parts z, ← same]
  rfl

theorem eq_sub_of_parts {z : Float}
    (same : UnpackedFloat.sub binary64 (parts x) (parts y) = parts z) : x - y = z := by
  rw [← pack_parts z, ← same]
  rfl

/-- Sums of whole numbers are exact as far as they are safe. -/
theorem ofNat_add (safe : m + n ≤ maxSafe) : ofNat m + ofNat n = ofNat (m + n) := by
  have left : m ≤ maxSafe := by omega
  have right : n ≤ maxSafe := by omega
  apply eq_add_of_parts
  rcases Nat.eq_zero_or_pos m with rfl | noLeft
  · rcases Nat.eq_zero_or_pos n with rfl | noRight
    · rfl
    · rw [Nat.zero_add, parts_ofNat_zero, parts_ofNat noRight.ne' right]
      rfl
  · rcases Nat.eq_zero_or_pos n with rfl | noRight
    · rw [Nat.add_zero, parts_ofNat_zero, parts_ofNat noLeft.ne' left]
      rfl
    · obtain ⟨shift, common, leftRoom, rightRoom⟩ := exists_common_shift left right
      have sum : Sign.positive.apply (m <<< shift : Nat) + Sign.positive.apply (n <<< shift : Nat) =
          ((m + n) <<< shift : Nat) := by
        simp [Sign.apply, Nat.shiftLeft_eq, Nat.add_mul]
      rw [parts_ofNat noLeft.ne' left, parts_ofNat noRight.ne' right, UnpackedFloat.add, common]
      simp only [decreaseExponent_lifted left leftRoom, decreaseExponent_lifted right rightRoom]
      rw [sum, normalize_shifted safe]

/-- Differences of whole numbers are exact. -/
theorem ofNat_sub (ordered : n ≤ m) (safe : m ≤ maxSafe) :
    ofNat m - ofNat n = ofNat (m - n) := by
  have right : n ≤ maxSafe := by omega
  apply eq_sub_of_parts
  rcases Nat.eq_zero_or_pos n with rfl | noRight
  · rcases Nat.eq_zero_or_pos m with rfl | noLeft
    · rfl
    · rw [Nat.sub_zero, parts_ofNat_zero, parts_ofNat noLeft.ne' safe]
      rfl
  · have noLeft : m ≠ 0 := by omega
    obtain ⟨shift, common, leftRoom, rightRoom⟩ := exists_common_shift safe right
    have difference : Sign.positive.apply (m <<< shift : Nat) -
        Sign.positive.apply (n <<< shift : Nat) = ((m - n) <<< shift : Nat) := by
      have scaled : n <<< shift ≤ m <<< shift := by
        simpa only [Nat.shiftLeft_eq] using Nat.mul_le_mul_right _ ordered
      have apart : (m - n) <<< shift = m <<< shift - n <<< shift := by
        simp only [Nat.shiftLeft_eq, Nat.sub_mul]
      rw [apart, Int.ofNat_sub scaled]
      rfl
    rw [parts_ofNat noLeft safe, parts_ofNat noRight.ne' right, UnpackedFloat.sub, common]
    simp only [decreaseExponent_lifted safe leftRoom, decreaseExponent_lifted right rightRoom]
    rw [difference, normalize_shifted (by omega)]

end GSharp.Number
