import GSharp.Proofs.Number.Scaled

namespace GSharp.Number

open Float.Model (UnpackedFloat)
open Float.Model.UnpackedFloat

variable {n : Nat} {x y : Float}

/-- Doubles are equal as the numbers that they stand for. -/
theorem beq_iff_le : (x == y) = true ↔ x ≤ y ∧ y ≤ x := by
  have same : (x == y) = (parts x).beq (parts y) := rfl
  rw [same, le_iff_parts, le_iff_parts, UnpackedFloat.beq, UnpackedFloat.le, UnpackedFloat.le,
    compare_swap (parts x) (parts y)]
  rcases (parts x).compare (parts y) with _ | _ | _ | _ <;> simp

theorem beq_iff_value (left : x.isFinite = true) (right : y.isFinite = true) :
    (x == y) = true ↔ value x = value y := by
  rw [beq_iff_le, le_iff_value left right, le_iff_value right left, le_antisymm_iff]

theorem value_ofNat (safe : n ≤ maxSafe) : value (ofNat n) = n := by
  rcases Nat.eq_zero_or_pos n with rfl | positive
  · rw [value, parts_ofNat_zero, worth_zero, Nat.cast_zero]
  · have room := log2_le safe
    have exponent : (n.log2 : Int) - 52 = -(52 - n.log2 : Nat) := by omega
    rw [value, parts_ofNat positive.ne' safe, worth, exponent, zpow_neg, zpow_natCast, lifted,
      Nat.shiftLeft_eq, Sign.apply]
    push_cast
    rw [mul_inv_cancel_right₀ (by positivity)]

theorem isFinite_ofNat (safe : n ≤ maxSafe) : (ofNat n).isFinite = true := by
  change (parts (ofNat n)).isFinite = true
  rcases Nat.eq_zero_or_pos n with rfl | positive
  · rfl
  · rw [parts_ofNat positive.ne' safe]
    rfl

namespace Denotes

theorem isFinite (count : Denotes x n) : x.isFinite = true := by
  obtain ⟨safe, rfl | ⟨rfl, rfl⟩⟩ := count
  · exact isFinite_ofNat safe
  · rfl

theorem beq_ofNat (count : Denotes x n) : (Number.ofNat n == x) = true :=
  have own := Denotes.ofNat count.1
  beq_iff_le.mpr ⟨(own.le_iff count).mpr le_rfl, (count.le_iff own).mpr le_rfl⟩

theorem value (count : Denotes x n) : value x = n := by
  rw [← value_ofNat count.1, ← (beq_iff_value (isFinite_ofNat count.1) count.isFinite).mp
    count.beq_ofNat]

/-- A finite double denotes the safe natural number that it stands for. -/
theorem of_value (finite : x.isFinite = true) (safe : n ≤ maxSafe) (same : Number.value x = n) :
    Denotes x n := by
  refine ⟨safe, ?_⟩
  rcases Nat.eq_zero_or_pos n with rfl | positive
  · obtain ⟨s, zero⟩ := isZero_of_value_eq_zero finite (same.trans Nat.cast_zero)
    cases s with
    | positive => exact .inl (eq_of_parts zero)
    | negative => exact .inr ⟨rfl, eq_of_parts zero⟩
  · have equal : (x == Number.ofNat n) = true :=
      (beq_iff_value finite (isFinite_ofNat safe)).mpr (same.trans (value_ofNat safe).symm)
    obtain ⟨-, -, own | ⟨-, zero⟩ | ⟨-, zero⟩⟩ :=
      (beq_iff_ne_notANumber_and_eq (parts x) (parts (Number.ofNat n))).mp equal
    · exact .inl (eq_of_parts own)
    all_goals
      rw [parts_ofNat positive.ne' safe] at zero
      cases zero

end Denotes

theorem denotes_iff : Denotes x n ↔ x.isFinite = true ∧ n ≤ maxSafe ∧ value x = n :=
  ⟨fun count => ⟨count.isFinite, count.1, count.value⟩,
    fun ⟨ordinary, safe, same⟩ => .of_value ordinary safe same⟩

theorem toCount?_eq_some_iff : toCount? x = some n ↔ Denotes x n := by
  refine ⟨fun counted => ?_, Denotes.toCount?_eq⟩
  by_cases safe : isSafeCount x = true
  · obtain ⟨m, count⟩ := isSafeCount_iff.mp safe
    rw [count.toCount?_eq, Option.some.injEq] at counted
    exact counted ▸ count
  · rw [toCount?, if_neg safe] at counted
    cases counted

theorem ofCount?_eq_some_iff : ofCount? n = some x ↔ n ≤ maxSafe ∧ x = ofNat n := by
  rw [ofCount?_eq]
  by_cases safe : n ≤ maxSafe
  · rw [if_pos safe, Option.some.injEq]
    exact ⟨fun same => ⟨safe, same.symm⟩, fun ⟨_, same⟩ => same.symm⟩
  · rw [if_neg safe]
    exact ⟨nofun, fun ⟨small, _⟩ => absurd small safe⟩

theorem ofNat_nearestEven (bound : n < 2 ^ 64) : NearestEven (ofNat n) n := by
  have small : (n : ℝ) < 2 ^ (64 : ℤ) := by exact_mod_cast bound
  have far : (n : ℝ) * 2 ^ (0 : ℤ) ≤ 2 ^ (1000 : ℤ) := by
    rw [zpow_zero, mul_one]
    exact small.le.trans (zpow_le_zpow_right₀ one_le_two (by norm_num))
  have nearest := roundScaled_nearestEven false far
  rwa [if_neg Bool.false_ne_true, factor_positive, one_mul, zpow_zero, mul_one] at nearest

/-- Numbers have doubles up to `maxSafe`, which are exact and lead back to them, and a double leads
to a number exactly if it is finite, whole and in this range; that number leads back to an equal
double, which may differ in the sign of zero. Any number of sixty-four bits is rounded to the
nearest double, a tie going to the even one. -/
theorem counts_invert :
    (∀ n : Nat,
      ((∃ x, ofCount? n = some x) ↔ n ≤ maxSafe) ∧
      (∀ x, ofCount? n = some x → x.isFinite = true ∧ value x = n ∧ toCount? x = some n) ∧
      (n < 2 ^ 64 → NearestEven (ofNat n) n)) ∧
    ∀ x : Float,
      ((∃ n, toCount? x = some n) ↔ x.isFinite = true ∧ ∃ n ≤ maxSafe, value x = n) ∧
      ∀ n, toCount? x = some n →
        n ≤ maxSafe ∧ value x = n ∧ ∃ y, ofCount? n = some y ∧ (y == x) = true := by
  refine ⟨fun n => ⟨?_, fun x made => ?_, ofNat_nearestEven⟩, fun x => ⟨?_, fun n counted => ?_⟩⟩
  · simp only [ofCount?_eq_some_iff, exists_and_left, exists_eq, and_true]
  · obtain ⟨safe, rfl⟩ := ofCount?_eq_some_iff.mp made
    exact ⟨isFinite_ofNat safe, value_ofNat safe, (Denotes.ofNat safe).toCount?_eq⟩
  · simp only [toCount?_eq_some_iff, denotes_iff, exists_and_left]
  · have count := toCount?_eq_some_iff.mp counted
    exact ⟨count.1, count.value, ofNat n, ofCount?_eq_some_iff.mpr ⟨count.1, rfl⟩, count.beq_ofNat⟩

/-- The greatest number of sixty-four bits is rounded and has no double of its own; negative zero
counts as zero. -/
theorem counts_invert_extreme :
    (¬∃ x, ofCount? (2 ^ 64 - 1) = some x) ∧ NearestEven (ofNat (2 ^ 64 - 1)) (2 ^ 64 - 1 : Nat) ∧
      toCount? (-0) = some 0 ∧ ∃ y, ofCount? 0 = some y ∧ (y == -0) = true := by
  have zero : toCount? (-0) = some 0 := by decide +kernel
  exact ⟨fun some => absurd ((counts_invert.1 (2 ^ 64 - 1)).1.mp some) (by decide),
    (counts_invert.1 (2 ^ 64 - 1)).2.2 (by decide), zero, ((counts_invert.2 (-0)).2 0 zero).2.2⟩

end GSharp.Number
