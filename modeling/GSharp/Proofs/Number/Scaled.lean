import GSharp.Proofs.Number.Nearest
import GSharp.Proofs.Number.Zero

namespace GSharp.Number

open Float.Model (UnpackedFloat totalExponent)
open Float.Model.Format (binary64)
open Float.Model.UnpackedFloat

variable {m n : Nat} {e f : Int} {a : UnpackedFloat} {x y z : Float} {r : ℝ}

/-- The bits of a double with a sign, an exponent field and a fraction. -/
theorem parts_ofBits_signed (negative : Bool) {field below : Nat} (finite : field < 2047)
    (bounded : below < 2 ^ 52) :
    parts (Float.ofBits (UInt64.ofNat
      (if negative then 2 ^ 63 + (field * 2 ^ 52 + below) else field * 2 ^ 52 + below))) =
      if field = 0 then
        if subnormal : below = 0 then .zero (if negative then .negative else .positive)
        else .finite (if negative then .negative else .positive) below (-1074)
          (Nat.pos_of_ne_zero subnormal)
      else .finite (if negative then .negative else .positive) (2 ^ 52 + below) (field - 1075)
        (by positivity) := by
  obtain ⟨bits, written⟩ : ∃ bits, (if negative then 2 ^ 63 + (field * 2 ^ 52 + below)
    else field * 2 ^ 52 + below) = bits := ⟨_, rfl⟩
  have size : bits < 2 ^ 64 := by split at written <;> omega
  have middle : bits / 2 ^ 52 % 2 ^ 11 = field := by split at written <;> omega
  have low : bits % 2 ^ 52 = below := by split at written <;> omega
  have same := toNat_toBits_ofBits size (by omega)
  have exponent : exponentField (Float.ofBits (UInt64.ofNat bits)) = field := by
    rw [exponentField, same, middle]
  have rest : fraction (Float.ofBits (UInt64.ofNat bits)) = below := by
    rw [fraction, same, low]
  have signed : sign (Float.ofBits (UInt64.ofNat bits)) =
      if negative then .negative else .positive := by
    rw [sign, same]
    cases negative
    · have written : field * 2 ^ 52 + below = bits := written
      rw [if_neg (by omega)]
      rfl
    · have written : 2 ^ 63 + (field * 2 ^ 52 + below) = bits := written
      rw [if_pos (by omega)]
      rfl
  rw [written, parts_eq]
  simp only [exponent, rest, signed, if_neg (show field ≠ 2047 by omega)]

/-- A mantissa that is carried into the exponent field stands for what it did before. -/
theorem ofBits_worth (negative : Bool) {t : Int} (least : -1074 ≤ t) (most : t ≤ 970)
    (short : m ≤ 2 ^ 53) (normal : 2 ^ 52 ≤ m ∨ t = -1074) :
    Fits (parts (Float.ofBits (UInt64.ofNat
        (if negative then 2 ^ 63 + ((t + 1074).toNat * 2 ^ 52 + m)
          else (t + 1074).toNat * 2 ^ 52 + m)))) ∧
      value (Float.ofBits (UInt64.ofNat
        (if negative then 2 ^ 63 + ((t + 1074).toNat * 2 ^ 52 + m)
          else (t + 1074).toNat * 2 ^ 52 + m))) =
        factor (if negative then .negative else .positive) * (m * 2 ^ t) := by
  obtain ⟨field, below, split, bounded⟩ : ∃ field below,
      (t + 1074).toNat * 2 ^ 52 + m = field * 2 ^ 52 + below ∧ below < 2 ^ 52 :=
    ⟨_, _, (Nat.div_add_mod' _ (2 ^ 52)).symm, Nat.mod_lt _ (by positivity)⟩
  have shape := parts_ofBits_signed negative (show field < 2047 by omega) bounded
  rw [← split] at shape
  unfold value
  rw [shape]
  generalize (if negative = true then Sign.negative else Sign.positive) = s
  by_cases subnormal : field = 0
  · have same : below = m ∧ t = -1074 := by omega
    obtain ⟨rfl, rfl⟩ := same
    rw [if_pos subnormal]
    split
    · next zero => exact ⟨trivial, by simp [worth, zero]⟩
    · exact ⟨⟨⟨by omega, le_rfl, .inr rfl⟩, by decide⟩, worth_finite ..⟩
  · rw [if_neg subnormal]
    refine ⟨⟨⟨by omega, by omega, .inl (by omega)⟩, by omega⟩, ?_⟩
    rw [worth_finite]
    rcases Nat.lt_or_eq_of_le short with short | rfl
    · have same : 2 ^ 52 + below = m ∧ (field : ℤ) - 1075 = t := by omega
      rw [same.1, same.2]
    · have carried : below = 0 ∧ (field : ℤ) - 1075 = t + 1 := by omega
      rw [carried.1, carried.2, zpow_add_one₀ two_ne_zero]
      push_cast
      ring

/-- The mantissa that `roundScaled` settles on, in its unit. -/
theorem scaledMantissa_nearest (m : Nat) (e t : Int) :
    NearestInteger (if e < t then halveToEven m (t - e).toNat else m <<< (e - t).toNat)
      (m * 2 ^ e / 2 ^ t) := by
  split
  · next less =>
    obtain ⟨shift, rfl⟩ : ∃ shift : Nat, t = e + shift := ⟨(t - e).toNat, by omega⟩
    have amount : (e + shift - e : Int).toNat = shift := by omega
    have same : (m : ℝ) * 2 ^ e / 2 ^ (e + shift : ℤ) = m / 2 ^ shift := by
      rw [zpow_add₀ two_ne_zero, zpow_natCast]
      field_simp
    rw [amount, same]
    exact halveToEven_nearest m shift
  · next le =>
    obtain ⟨shift, rfl⟩ : ∃ shift : Nat, e = t + shift := ⟨(e - t).toNat, by omega⟩
    have amount : (t + shift - t : Int).toNat = shift := by omega
    have same : (m : ℝ) * 2 ^ (t + shift : ℤ) / 2 ^ t = (m <<< shift : Nat) := by
      rw [zpow_add₀ two_ne_zero, zpow_natCast, Nat.shiftLeft_eq]
      push_cast
      field_simp
    rw [amount, same]
    exact .exact _

theorem scaledMantissa_normal {t : Int} (some : m ≠ 0) (exponent : (m.log2 : Int) + e = t + 52) :
    2 ^ 52 ≤ if e < t then halveToEven m (t - e).toNat else m <<< (e - t).toNat := by
  split
  · have length : (m >>> (t - e).toNat).log2 = 52 := log2_shiftRight (by omega)
    have dropped : m >>> (t - e).toNat ≠ 0 := fun zero => by simp [zero] at length
    exact ((Nat.le_log2 dropped).mp length.ge).trans (shiftRight_le_halveToEven ..)
  · have length : (m <<< (e - t).toNat).log2 = m.log2 + (e - t).toNat :=
      log2_shiftLeft some _
    have raised : m <<< (e - t).toNat ≠ 0 := by
      rw [Nat.shiftLeft_eq]
      positivity
    exact (Nat.le_log2 raised).mp (by omega)

/-- What comes of rounding: a mantissa in the unit that the number has bits for. -/
theorem roundScaled_settles (negative : Bool) (far : m * 2 ^ e ≤ (2 : ℝ) ^ (1000 : ℤ)) :
    ∃ (n : Nat) (t : Int), (roundScaled negative m e).isFinite = true ∧
      value (roundScaled negative m e) =
        factor (if negative then .negative else .positive) * (n * 2 ^ t) ∧
      NearestInteger n (m * 2 ^ e / 2 ^ t) ∧ (t = -1074 ∨ (2 : ℝ) ^ (t + 52) ≤ m * 2 ^ e) ∧
      (Even n → Even (fraction (roundScaled negative m e))) := by
  obtain ⟨t, target⟩ : ∃ t, max ((m.log2 : Int) + 1 + e - 53) (-1074) = t := ⟨_, rfl⟩
  unfold roundScaled
  simp only [target]
  rcases eq_or_ne m 0 with rfl | some
  · have none : parts (Float.ofBits (UInt64.ofNat (if negative then 2 ^ 63 + 0 else 0))) =
        .zero (if negative then .negative else .positive) := by cases negative <;> rfl
    have fraction : fraction (Float.ofBits (UInt64.ofNat (if negative then 2 ^ 63 + 0 else 0))) =
        0 := by cases negative <;> rfl
    rw [if_pos rfl]
    refine ⟨0, -1074, Fits.isFinite (by rw [none]; trivial), ?_, ?_, .inl rfl, fun even => ?_⟩
    · rw [value, none, worth_zero]
      simp
    · simpa using NearestInteger.exact 0
    · rw [fraction]
      exact even
  · have cases : t = -1074 ∨ m ≠ 0 ∧ m.log2 + e = t + 52 := by omega
    have weight := target_weight cases le_rfl
    have limit := target_le weight far
    have short := @scaledMantissa_le m e t (by omega)
    have normal := (cases.imp id fun exact => scaledMantissa_normal some exact.2).symm
    have nearest := scaledMantissa_nearest m e t
    rw [if_neg some]
    generalize (if e < t then halveToEven m _ else _) = lifted at short normal nearest ⊢
    have fits := ofBits_worth negative (by omega) limit short normal
    rw [Nat.min_eq_left (by omega)]
    refine ⟨lifted, t, fits.1.isFinite, fits.2, nearest, weight, fun even => ?_⟩
    rw [Nat.even_iff] at even ⊢
    cases negative
    · rw [if_neg Bool.false_ne_true, fraction, toNat_toBits_ofBits (by omega) (by omega)]
      omega
    · rw [if_pos rfl, fraction, toNat_toBits_ofBits (by omega) (by omega)]
      omega

theorem roundScaled_close (negative : Bool) (far : m * 2 ^ e ≤ (2 : ℝ) ^ (1000 : ℤ)) :
    Close (roundScaled negative m e)
      (factor (if negative then .negative else .positive) * (m * 2 ^ e)) := by
  obtain ⟨n, t, finite, settled, nearest, weight, -⟩ := roundScaled_settles negative far
  have nonneg : (0 : ℝ) ≤ m * 2 ^ e := by positivity
  refine ⟨finite, ?_⟩
  rw [settled, ← mul_sub, abs_factor_mul, abs_factor_mul, abs_of_nonneg nonneg, abs_sub_in_unit]
  calc |(n : ℝ) - m * 2 ^ e / 2 ^ t| * 2 ^ t ≤ 1 / 2 * 2 ^ t := by gcongr; exact nearest.close
    _ ≤ 2 ^ (-53 : ℤ) * (m * 2 ^ e) + 2 ^ (-1075 : ℤ) := half_unit_le weight nonneg

/-- Rounding chooses the nearest double, and of two that are equally near the even one. -/
theorem roundScaled_nearestEven (negative : Bool) (far : m * 2 ^ e ≤ (2 : ℝ) ^ (1000 : ℤ)) :
    NearestEven (roundScaled negative m e)
      (factor (if negative then .negative else .positive) * (m * 2 ^ e)) := by
  obtain ⟨n, t, finite, settled, nearest, weight, even⟩ := roundScaled_settles negative far
  generalize (if negative then Sign.negative else .positive) = s at settled ⊢
  have square := factor_mul_self s
  -- A sign is taken off both sides, and every double has its opposite.
  have upright (v : ℝ) : |v - factor s * (m * 2 ^ e)| = |factor s * v - m * 2 ^ e| := by
    rw [← abs_factor_mul s (v - _), mul_sub, ← mul_assoc, square, one_mul]
  have place {y : Float} (finite : y.isFinite = true) :
      (∃ k : Int, factor s * value y = k * 2 ^ t) ∨
        -1074 < t ∧ |factor s * value y| < 2 ^ (t + 52) := by
    rcases multiple_or_small finite t with ⟨k, same⟩ | small
    · exact .inl ⟨s.apply 1 * k, by rw [same, factor]; push_cast; ring⟩
    · rw [abs_factor_mul]
      exact .inr small
  have own : factor s * value (roundScaled negative m e) = n * 2 ^ t := by
    rw [settled, ← mul_assoc, square, one_mul]
  refine ⟨finite, fun y other => ?_, fun y other different same => even ?_⟩
  · rw [upright, upright, own]
    exact (nearest.scaled weight (place other)).1
  · rw [upright, upright, own] at same
    refine (nearest.scaled weight (place other)).2 (fun equal => different ?_) same
    rw [settled, ← equal, ← mul_assoc, square, one_mul]

theorem value_eq_toRat {exact : Dyadic} (same : toDyadic? x = some exact) :
    value x = (exact.toRat : ℝ) := by
  rw [toDyadic?, decode?_eq] at same
  rw [value]
  cases shape : parts x with
  | notANumber | infinity => rw [shape] at same; cases same
  | zero s =>
    rw [shape] at same
    cases same
    simp [worth]
  | finite s m e positive =>
    rw [shape] at same
    cases same
    rw [worth, Dyadic.toRat_ofIntWithPrec_eq_mul_two_pow, Int.neg_neg]
    push_cast
    rfl

theorem value_of_isZero (zero : IsZero x) : value x = 0 := by
  obtain ⟨s, shape⟩ := zero
  rw [value, shape]
  rfl

theorem isZero_of_value_eq_zero (finite : x.isFinite = true) (none : value x = 0) : IsZero x := by
  rcases finite_cases finite with zero | ⟨s, m, e, positive, shape⟩
  · exact zero
  · have size : |value x| = m * 2 ^ e := by
      rw [value, shape, worth_finite, abs_factor_mul, abs_of_pos (scaled_pos positive e)]
    rw [none, abs_zero] at size
    exact absurd size (scaled_pos positive e).ne

theorem round_close (exact : Dyadic) (far : |(exact.toRat : ℝ)| ≤ 2 ^ (1000 : ℤ)) :
    Close (round exact) exact.toRat := by
  cases exact with
  | zero =>
    have zero : value (round .zero) = 0 := value_of_isZero isZero_zero
    have none : ((Dyadic.zero.toRat : ℚ) : ℝ) = 0 := Rat.cast_zero
    refine ⟨rfl, ?_⟩
    rw [zero, none]
    simp
  | ofOdd n precision odd =>
    have scaled : (((Dyadic.ofOdd n precision odd).toRat : ℚ) : ℝ) =
        factor (if n < 0 then .negative else .positive) * (n.natAbs * 2 ^ (-precision)) := by
      have signed : (n : ℝ) = factor (if n < 0 then .negative else .positive) * n.natAbs := by
        rw [← apply_eq_factor_mul]
        congr 1
        split <;> simp only [Sign.apply] <;> omega
      rw [Dyadic.toRat_ofOdd_eq_mul_two_pow, ← mul_assoc, ← signed]
      push_cast
      rfl
    rw [scaled] at far ⊢
    rw [abs_factor_mul, abs_of_nonneg (by positivity)] at far
    have close := roundScaled_close (n < 0) far
    simp only [decide_eq_true_eq] at close
    exact close

theorem fusedMulAdd_close (left : x.isFinite = true) (right : y.isFinite = true)
    (last : z.isFinite = true) (far : |value x * value y + value z| ≤ 2 ^ (1000 : ℤ)) :
    Close (fusedMulAdd x y z) (value x * value y + value z) := by
  obtain ⟨a, first⟩ := exists_toDyadic? left
  obtain ⟨b, second⟩ := exists_toDyadic? right
  obtain ⟨c, third⟩ := exists_toDyadic? last
  have exact : value x * value y + value z = ((a * b + c).toRat : ℝ) := by
    rw [value_eq_toRat first, value_eq_toRat second, value_eq_toRat third, Dyadic.toRat_add,
      Dyadic.toRat_mul]
    push_cast
    rfl
  unfold fusedMulAdd
  rw [first, second, third]
  dsimp only
  split
  · next none =>
    have product : value x * value y = 0 := by
      rw [value_eq_toRat first, value_eq_toRat second, ← Rat.cast_mul, ← Dyadic.toRat_mul, none.1]
      exact Rat.cast_zero
    have sum : IsZero (x * y + z) := by
      refine .add ?_ (isZero_of_value_eq_zero last ?_)
      · rcases mul_eq_zero.mp product with zero | zero
        · exact (isZero_of_value_eq_zero left zero).mul_left right
        · exact .mul_right left (isZero_of_value_eq_zero right zero)
      · rw [value_eq_toRat third, none.2]
        exact Rat.cast_zero
    have total : value x * value y + value z = 0 := by
      rw [product, value_eq_toRat third, none.2]
      simp
    refine ⟨sum.isFinite, ?_⟩
    rw [value_of_isZero sum, total]
    simp
  · rw [exact] at far ⊢
    exact round_close _ far

/-- An integer root and a bit for what it leaves are within one half of the root. -/
theorem sqrt_close (n : Nat) :
    |(Nat.sqrt n : ℝ) + (if Nat.sqrt n * Nat.sqrt n = n then 0 else 1) / 2 - √n| ≤ 1 / 2 := by
  have low : (Nat.sqrt n : ℝ) ≤ √n := Real.nat_sqrt_le_real_sqrt
  have high : √n < Nat.sqrt n + 1 := by
    rw [Real.sqrt_lt' (by positivity)]
    exact_mod_cast Nat.lt_succ_sqrt' n
  rw [abs_le]
  split
  · next whole =>
    have same : √n = Nat.sqrt n := by
      rw [Real.sqrt_eq_iff_mul_self_eq (by positivity) (by positivity)]
      exact_mod_cast whole.symm
    rw [same]
    constructor <;> linarith
  · constructor <;> linarith

/-- The root of a number that was shifted to an even exponent, with one more bit below. -/
theorem scaledRoot_close {n : Nat} (some : n ≠ 0) (precision : Int) {lift : Nat}
    (lifted : 128 + precision.natAbs % 2 = lift) :
    |((2 * Nat.sqrt (n <<< lift) +
        (if Nat.sqrt (n <<< lift) * Nat.sqrt (n <<< lift) = n <<< lift then 0 else 1) : Nat) : ℝ) *
          2 ^ (-(precision + lift) / 2 - 1) - √(n * 2 ^ (-precision))| ≤
      2 ^ (-65 : ℤ) * √(n * 2 ^ (-precision)) := by
  obtain ⟨k, even⟩ : ∃ k : Int, precision + lift = 2 * k := ⟨(precision + lift) / 2, by omega⟩
  have exponent : -(precision + lift) / 2 - 1 = -k - 1 := by omega
  obtain ⟨square, shifted⟩ : ∃ square, n <<< lift = square := ⟨_, rfl⟩
  have root : √(n * 2 ^ (-precision)) = √square * 2 ^ (-k) := by
    have same : (n : ℝ) * 2 ^ (-precision) = square * (2 ^ (-k)) ^ 2 := by
      rw [← shifted, Nat.shiftLeft_eq, ← zpow_natCast, ← zpow_mul]
      push_cast
      rw [mul_assoc, ← zpow_natCast, ← zpow_add₀ two_ne_zero]
      congr 2
      omega
    rw [same, Real.sqrt_mul (by positivity), Real.sqrt_sq (by positivity)]
  have large : (2 : ℝ) ^ (64 : ℤ) ≤ √square := by
    have long : 2 ^ 128 ≤ square := by
      rw [← shifted, Nat.shiftLeft_eq]
      calc 2 ^ 128 ≤ 2 ^ lift := Nat.pow_le_pow_right two_pos (by omega)
        _ ≤ n * 2 ^ lift := Nat.le_mul_of_pos_left _ (Nat.pos_of_ne_zero some)
    rw [Real.le_sqrt (by positivity) (by positivity), ← zpow_natCast, ← zpow_mul]
    exact_mod_cast long
  rw [exponent, shifted, root]
  have unit : (0 : ℝ) < 2 ^ (-k) := by positivity
  have half := sqrt_close square
  calc _ = |(Nat.sqrt square : ℝ) +
          (if Nat.sqrt square * Nat.sqrt square = square then 0 else 1) / 2 - √square| *
            2 ^ (-k) := by
        rw [← abs_of_pos unit, ← abs_mul, abs_of_pos unit, zpow_sub_one₀ two_ne_zero]
        congr 1
        push_cast
        ring
    _ ≤ 1 / 2 * 2 ^ (-k) := by gcongr
    _ = 2 ^ (-65 : ℤ) * (2 ^ (64 : ℤ) * 2 ^ (-k)) := by rw [← mul_assoc]; norm_num
    _ ≤ 2 ^ (-65 : ℤ) * (√square * 2 ^ (-k)) := by gcongr

/-- What is next to a number far below the last place is rounded next to it. -/
theorem roundScaled_close_of_close (nonneg : 0 ≤ r) (far : r ≤ 2 ^ (900 : ℤ))
    (near : |m * 2 ^ e - r| ≤ 2 ^ (-65 : ℤ) * r) :
    WithinUnit (roundScaled false m e) r := by
  have value : (0 : ℝ) ≤ m * 2 ^ e := by positivity
  rw [show (2 : ℝ) ^ (-65 : ℤ) = 1 / 36893488147419103232 by norm_num] at near
  obtain ⟨low, high⟩ := abs_le.mp near
  have limit : (m : ℝ) * 2 ^ e ≤ 2 ^ (1000 : ℤ) :=
    calc (m : ℝ) * 2 ^ e ≤ r * 2 := by linarith
      _ ≤ 2 ^ (900 : ℤ) * 2 := by gcongr
      _ = 2 ^ (901 : ℤ) := (zpow_add_one₀ two_ne_zero 900).symm
      _ ≤ 2 ^ (1000 : ℤ) := zpow_le_zpow_right₀ one_le_two (by norm_num)
  obtain ⟨finite, error⟩ := roundScaled_close false limit
  rw [if_neg Bool.false_ne_true, factor_positive, one_mul, abs_of_nonneg value] at error
  refine ⟨finite, ?_⟩
  generalize (2 : ℝ) ^ (-1075 : ℤ) = tiny at error ⊢
  rw [show (2 : ℝ) ^ (-53 : ℤ) = 1 / 9007199254740992 by norm_num] at error
  rw [show (2 : ℝ) ^ (-52 : ℤ) = 1 / 4503599627370496 by norm_num]
  rw [abs_le] at error ⊢
  constructor <;> linarith

/-- The length of a vector is rounded twice, the first time far below the last place. The bound
leaves room for a length that is a unit off in the last place. -/
theorem hypot_close (left : x.isFinite = true) (right : y.isFinite = true)
    (far : √(value x ^ 2 + value y ^ 2) ≤ 2 ^ (900 : ℤ)) :
    WithinUnit (hypot x y) √(value x ^ 2 + value y ^ 2) := by
  obtain ⟨a, first⟩ := exists_toDyadic? left
  obtain ⟨b, second⟩ := exists_toDyadic? right
  have square : value x ^ 2 + value y ^ 2 = ((a * a + b * b).toRat : ℝ) := by
    rw [value_eq_toRat first, value_eq_toRat second, Dyadic.toRat_add, Dyadic.toRat_mul,
      Dyadic.toRat_mul]
    push_cast
    ring
  have ordinary {z : Float} (finite : z.isFinite = true) : z.isInf = false := by
    change (parts z).isInf = false
    change (parts z).isFinite = true at finite
    cases shape : parts z <;> first | rfl | (rw [shape] at finite; cases finite)
  have nonneg : 0 ≤ value x ^ 2 + value y ^ 2 := by positivity
  unfold WithinUnit hypot
  rw [ordinary left, ordinary right, first, second]
  simp only [Bool.or_self, Bool.false_eq_true, if_false]
  rw [square] at far nonneg ⊢
  generalize a * a + b * b = exact at far nonneg ⊢
  cases exact with
  | zero =>
    have none : ((Dyadic.zero.toRat : ℚ) : ℝ) = 0 := Rat.cast_zero
    refine ⟨rfl, ?_⟩
    rw [none, Real.sqrt_zero, value_of_isZero isZero_zero]
    simp
  | ofOdd n precision odd =>
    have scaled : (((Dyadic.ofOdd n precision odd).toRat : ℚ) : ℝ) =
        n.natAbs * 2 ^ (-precision) := by
      have positive : 0 ≤ n := by
        rw [Dyadic.toRat_ofOdd_eq_mul_two_pow] at nonneg
        push_cast at nonneg
        exact_mod_cast nonneg_of_mul_nonneg_left nonneg (by positivity)
      have same : (n : ℝ) = n.natAbs := by
        rw [← Int.cast_natCast, Int.natAbs_of_nonneg positive]
      rw [Dyadic.toRat_ofOdd_eq_mul_two_pow, ← same]
      push_cast
      rfl
    rw [scaled] at far ⊢
    have some : n.natAbs ≠ 0 := by omega
    have root := scaledRoot_close some precision rfl
    exact roundScaled_close_of_close (Real.sqrt_nonneg _) far root

end GSharp.Number
