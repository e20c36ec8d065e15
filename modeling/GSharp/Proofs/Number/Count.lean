import GSharp.Proofs.Number.Whole

namespace GSharp.Number

open Float.Model (UnpackedFloat)
open Float.Model.Format (binary64)
open Float.Model.UnpackedFloat

variable {m n : Nat} {x y : Float}

theorem decode?_ofNat (positive : n ≠ 0) (safe : n ≤ maxSafe) :
    decode? (ofNat n) = some ((lifted n : Int), (n.log2 : Int) - 52) := by
  rw [decode?_eq, parts_ofNat positive safe]
  rfl

/-- A double past the safe numbers has a positive exponent, or is infinite. -/
theorem maxSafe_lt_ofBits {bits : Nat} (low : 1076 * 2 ^ 52 ≤ bits) (high : bits ≤ 2047 * 2 ^ 52) :
    ofNat maxSafe < Float.ofBits (UInt64.ofNat bits) := by
  rw [lt_iff_parts]
  rcases Nat.lt_or_eq_of_le high with finite | rfl
  · have split : bits = bits / 2 ^ 52 * 2 ^ 52 + bits % 2 ^ 52 := by omega
    rw [split, parts_ofBits (by omega) (by omega) (by omega), parts_ofNat (by decide) (le_refl _)]
    have above : (0 : Int) < (bits / 2 ^ 52 : Nat) - 1075 := by omega
    have exponent : ((maxSafe.log2 : Nat) : Int) - 52 = 0 := by decide
    simp only [UnpackedFloat.lt, UnpackedFloat.compare, exponent, compare_lt_iff_lt.mpr above]
    rfl
  · rfl

theorem shiftRight_le_halveToEven (n shift : Nat) : n >>> shift ≤ halveToEven n shift := by
  simp only [halveToEven]
  split
  · exact le_refl _
  · exact Nat.le_succ _

theorem maxSafe_lt_ofNat (large : maxSafe < n) : ofNat maxSafe < ofNat n := by
  have length : 53 ≤ n.log2 := (Nat.le_log2 (by omega)).mpr large
  have target : max ((n.log2 : Int) + 1 + 0 - 53) (-1074) = n.log2 - 52 := by omega
  have field : ((n.log2 : Int) - 52 + 1074).toNat = n.log2 + 1022 := by omega
  have shift : ((n.log2 : Int) - 52 - 0).toNat = n.log2 - 52 := by omega
  have mantissa : 2 ^ 52 ≤ halveToEven n (n.log2 - 52) := by
    refine le_trans ?_ (shiftRight_le_halveToEven _ _)
    rw [Nat.shiftRight_eq_div_pow, Nat.le_div_iff_mul_le (by positivity), ← Nat.pow_add,
      Nat.add_sub_of_le (by omega)]
    exact Nat.log2_self_le (by omega)
  have bits : ofNat n = Float.ofBits (UInt64.ofNat
      (min ((n.log2 + 1022) * 2 ^ 52 + halveToEven n (n.log2 - 52)) (2047 * 2 ^ 52))) := by
    rw [ofNat, roundScaled, target, shift, field, if_neg (show n ≠ 0 by omega),
      if_pos (show (0 : Int) < n.log2 - 52 by omega), if_neg Bool.false_ne_true]
  rw [bits]
  exact maxSafe_lt_ofBits (by omega) (Nat.min_le_right ..)

theorem ofCount?_eq (n : Nat) : ofCount? n = if n ≤ maxSafe then some (ofNat n) else none := by
  unfold ofCount?
  by_cases safe : n ≤ maxSafe
  · rw [if_pos safe, if_neg]
    rw [ofNat_lt_iff (le_refl _) safe]
    omega
  · rw [if_neg safe, if_pos (maxSafe_lt_ofNat (by omega))]

/-- A safe number shares its double with no other number, safe or not. -/
theorem ofNat_injective (safe : n ≤ maxSafe) {m : Nat}
    (same : ofNat n = ofNat m) : n = m := by
  have small : m ≤ maxSafe := by
    by_contra large
    have above := maxSafe_lt_ofNat (Nat.lt_of_not_le large)
    rw [← same, ofNat_lt_iff (le_refl _) safe] at above
    omega
  have reflexive := (ofNat_le_iff safe safe).mpr (le_refl n)
  have le := (ofNat_le_iff safe small).mp (same ▸ reflexive)
  have ge := (ofNat_le_iff small safe).mp (same ▸ reflexive)
  exact Nat.le_antisymm le ge

/-- The double is that of a safe natural number. Zero may have either sign. -/
def Denotes (x : Float) (n : Nat) : Prop := n ≤ maxSafe ∧ (x = ofNat n ∨ n = 0 ∧ x = -0)

theorem compare_zero_left (s t : Sign) (a : UnpackedFloat) :
    (zero s).compare a = (zero t).compare a := by
  rcases a with (_ | _) | _ | _ | (_ | _) <;> rfl

theorem compare_zero_right (s t : Sign) (a : UnpackedFloat) :
    a.compare (zero s) = a.compare (zero t) := by
  rcases a with (_ | _) | _ | _ | (_ | _) <;> rfl

namespace Denotes

theorem ofNat (safe : n ≤ maxSafe) : Denotes (ofNat n) n := ⟨safe, .inl rfl⟩

theorem compare_eq (left : Denotes x m) (right : Denotes y n) :
    (parts x).compare (parts y) = some (compare m n) := by
  have leftParts : (parts x).compare (parts y) = (parts (Number.ofNat m)).compare (parts y) := by
    obtain ⟨-, rfl | ⟨rfl, rfl⟩⟩ := left
    · rfl
    · exact compare_zero_left ..
  have rightParts : (parts (Number.ofNat m)).compare (parts y) =
      (parts (Number.ofNat m)).compare (parts (Number.ofNat n)) := by
    obtain ⟨-, rfl | ⟨rfl, rfl⟩⟩ := right
    · rfl
    · exact compare_zero_right ..
  rw [leftParts, rightParts, compare_ofNat left.1 right.1]

theorem le_iff (left : Denotes x m) (right : Denotes y n) : x ≤ y ↔ m ≤ n := by
  rw [le_iff_parts, UnpackedFloat.le, compare_eq left right, Option.any_some, Nat.isLE_compare]

theorem lt_iff (left : Denotes x m) (right : Denotes y n) : x < y ↔ m < n := by
  rw [lt_iff_parts, UnpackedFloat.lt, compare_eq left right, ← compare_lt_iff_lt]
  simp

theorem add_one (count : Denotes x n) (room : n < maxSafe) : Denotes (x + 1) (n + 1) := by
  have one : (1 : Float) = Number.ofNat 1 := rfl
  refine ⟨room, .inl ?_⟩
  obtain ⟨-, rfl | ⟨rfl, rfl⟩⟩ := count
  · rw [one, ofNat_add room]
  · rfl

theorem sub (left : Denotes x m) (right : Denotes y n) (ordered : n ≤ m) :
    Denotes (x - y) (m - n) := by
  refine ⟨by have := left.1; omega, ?_⟩
  obtain ⟨safe, rfl | ⟨rfl, rfl⟩⟩ := left <;> obtain ⟨-, rfl | ⟨rfl, rfl⟩⟩ := right
  · exact .inl (ofNat_sub ordered safe)
  · left
    rcases Nat.eq_zero_or_pos m with rfl | positive
    · rfl
    · apply eq_sub_of_parts
      rw [Nat.sub_zero, parts_ofNat positive.ne' safe]
      rfl
  · obtain rfl : n = 0 := by omega
    exact .inr ⟨rfl, rfl⟩
  · exact .inl rfl

/-- The exact value of a safe count is its number over a power of two, scaled back. -/
theorem decode?_eq (count : Denotes x n) :
    ∃ shift : Nat, decode? x = some (((n * 2 ^ shift : Nat) : Int), -(shift : Int)) := by
  rcases Nat.eq_zero_or_pos n with rfl | positive
  · refine ⟨1074, ?_⟩
    simp only [Nat.zero_mul]
    obtain ⟨-, rfl | ⟨-, rfl⟩⟩ := count <;> rfl
  · obtain ⟨safe, rfl | ⟨zero, -⟩⟩ := count
    · have room := log2_le safe
      have exponent : (n.log2 : Int) - 52 = -(52 - n.log2 : Nat) := by omega
      refine ⟨52 - n.log2, ?_⟩
      rw [decode?_ofNat positive.ne' safe, lifted, Nat.shiftLeft_eq, exponent]
    · omega

theorem isWhole (count : Denotes x n) : isWhole x = true := by
  obtain ⟨shift, value⟩ := count.decode?_eq
  have amount : (-(-(shift : Int))).toNat = shift := by omega
  rw [Number.isWhole, value]
  refine Bool.or_eq_true_iff.mpr (.inr (decide_eq_true ?_))
  rw [Int.natAbs_natCast, amount]
  exact Nat.mul_mod_left ..

theorem truncate?_eq (count : Denotes x n) : truncate? x = some n := by
  obtain ⟨shift, value⟩ := count.decode?_eq
  have amount : (-(-(shift : Int))).toNat = shift := by omega
  simp only [Number.truncate?, value, Option.map_some, amount]
  split
  · obtain rfl : shift = 0 := by omega
    simp
  · rw [Nat.cast_mul, Nat.cast_pow]
    exact congrArg some (Int.mul_tdiv_cancel _ (pow_ne_zero _ (by decide)))

theorem isSafeCount (count : Denotes x n) : isSafeCount x = true := by
  have low : (0 : Float) ≤ x := (le_iff (.ofNat (Nat.zero_le _)) count).mpr (Nat.zero_le n)
  have high : x ≤ Number.ofNat maxSafe := (le_iff count (.ofNat (le_refl _))).mpr count.1
  simp [Number.isSafeCount, low, high, count.isWhole]

theorem toCount?_eq (count : Denotes x n) : toCount? x = some n := by
  rw [toCount?, if_pos count.isSafeCount, count.truncate?_eq]
  rfl

end Denotes

theorem parts_maxSafe : parts (ofNat maxSafe) = .finite .positive (2 ^ 53 - 1) 0 (by decide) := by
  have mantissa : lifted maxSafe = 2 ^ 53 - 1 := by decide
  have exponent : ((maxSafe.log2 : Nat) : Int) - 52 = 0 := by decide
  rw [parts_ofNat (by decide) (le_refl _)]
  simp only [mantissa, exponent]

/-- A whole double with a mantissa and an exponent that is not positive. -/
theorem exists_denotes_of_parts {m : Nat} {e : Int} {positive : 0 < m}
    (finite : parts x = .finite .positive m e positive) (small : e ≤ 0)
    (whole : isWhole x = true) : ∃ n, Denotes x n := by
  have ⟨high, _, normal⟩ := bounds_of_parts finite
  obtain ⟨shift, rfl⟩ : ∃ shift : Nat, e = -(shift : Int) := ⟨(-e).toNat, by omega⟩
  have divides : m % 2 ^ shift = 0 := by
    have value : decode? x = some ((m : Int), -(shift : Int)) := by
      rw [decode?_eq, finite]
      rfl
    rw [isWhole, value] at whole
    rcases Bool.or_eq_true_iff.mp whole with top | exact
    · obtain rfl : shift = 0 := by simpa using top
      exact Nat.mod_one _
    · simpa using exact
  obtain ⟨n, rfl⟩ : ∃ n, m = n <<< shift :=
    ⟨m / 2 ^ shift, by rw [Nat.shiftLeft_eq, Nat.div_mul_cancel (Nat.dvd_of_mod_eq_zero divides)]⟩
  have nonzero : n ≠ 0 := by rintro rfl; simp at positive
  have room : shift < 53 := by
    rw [← Nat.pow_lt_pow_iff_right (a := 2) (by decide)]
    refine lt_of_le_of_lt ?_ high
    rw [Nat.shiftLeft_eq]
    exact Nat.le_mul_of_pos_left _ (Nat.pos_of_ne_zero nonzero)
  have length : n.log2 + shift = 52 := by
    rw [← log2_shiftLeft nonzero, Nat.log2_eq_iff (by omega)]
    exact ⟨by omega, high⟩
  have safe : n ≤ maxSafe := by
    refine Nat.le_of_lt_succ (lt_of_le_of_lt ?_ high)
    rw [Nat.shiftLeft_eq]
    exact Nat.le_mul_of_pos_right _ (Nat.two_pow_pos _)
  refine ⟨n, safe, .inl (eq_of_parts ?_)⟩
  have same : lifted n = n <<< shift := by rw [lifted, ← length, Nat.add_sub_cancel_left]
  have exponent : (n.log2 : Int) - 52 = -(shift : Int) := by omega
  rw [finite, parts_ofNat nonzero safe]
  simp only [same, exponent]

/-- Every safe count denotes a number. -/
theorem exists_denotes (safe : isSafeCount x = true) : ∃ n, Denotes x n := by
  simp only [isSafeCount, Bool.and_eq_true, decide_eq_true_eq] at safe
  obtain ⟨⟨low, high⟩, whole⟩ := safe
  rw [le_iff_parts] at low high
  rw [parts_maxSafe] at high
  have zero : parts (0 : Float) = .zero .positive := rfl
  rw [zero] at low
  rcases shape : parts x with (_ | _) | _ | (_ | _) | ⟨_ | _, m, e, positive⟩ <;>
    rw [shape] at low high
  case infinity.negative | notANumber | finite.negative => cases low
  case infinity.positive => cases high
  case zero.negative => exact ⟨0, Nat.zero_le _, .inr ⟨rfl, eq_of_parts shape⟩⟩
  case zero.positive => exact ⟨0, Nat.zero_le _, .inl (eq_of_parts shape)⟩
  case finite.positive =>
    refine exists_denotes_of_parts shape (Int.not_lt.mp fun large => ?_) whole
    simp only [UnpackedFloat.le, UnpackedFloat.compare, compare_gt_iff_gt.mpr large] at high
    cases high

theorem isSafeCount_iff : isSafeCount x = true ↔ ∃ n, Denotes x n :=
  ⟨exists_denotes, fun ⟨_, count⟩ => count.isSafeCount⟩

end GSharp.Number
