import GSharp.Proofs.Number.Magnitude

namespace GSharp.Number

open Float.Model (UnpackedFloat)
open Float.Model.Format (binary64)
open Float.Model.UnpackedFloat

variable {m n : Nat} {e f : Int} {a : UnpackedFloat} {x y : Float}

/-- The signed mantissa, scaled. What is not finite is worth nothing. -/
noncomputable def worth : UnpackedFloat → ℝ
  | .finite s m e _ => s.apply m * 2 ^ e
  | _ => 0

/-- The real number that a finite double stands for. -/
noncomputable def value (x : Float) : ℝ := worth (parts x)

/-- A mantissa of fifty-three bits, or the smallest exponent: the one form that a double has. -/
def Settled (m : Nat) (e : Int) : Prop := m < 2 ^ 53 ∧ -1074 ≤ e ∧ (2 ^ 52 ≤ m ∨ e = -1074)

/-- Finite and settled, with an exponent that a double can have. -/
def Fits : UnpackedFloat → Prop
  | .zero _ => True
  | .finite _ m e _ => Settled m e ∧ e ≤ 971
  | _ => False

/-- What a mantissa with its two residual bits says of a number. -/
def Tells : ExtendedMantissa → ℝ → Prop
  | ⟨m, false, false⟩, r => r = m
  | ⟨m, false, true⟩, r => m < r ∧ r < m + 1 / 2
  | ⟨m, true, false⟩, r => r = m + 1 / 2
  | ⟨m, true, true⟩, r => m + 1 / 2 < r ∧ r < m + 1

/-- The finite number nearest to a real one, or next to the nearest. -/
def Near (a : UnpackedFloat) (r : ℝ) : Prop :=
  Fits a ∧ |worth a - r| ≤ 2 ^ (-53 : ℤ) * |r| + 2 ^ (-1075 : ℤ)

/-- A finite double next to a real number. -/
def Close (x : Float) (r : ℝ) : Prop :=
  x.isFinite = true ∧ |value x - r| ≤ 2 ^ (-53 : ℤ) * |r| + 2 ^ (-1075 : ℤ)

/-- A finite double within a unit in the last place of a number that is not negative. -/
def WithinUnit (x : Float) (r : ℝ) : Prop :=
  x.isFinite = true ∧ |value x - r| ≤ 2 ^ (-52 : ℤ) * r + 2 ^ (-1075 : ℤ)

/-- Finite and far below the largest doubles. -/
def Tame (x : Float) : Prop := x.isFinite = true ∧ |value x| ≤ 2 ^ 100

theorem exponentField_lt (x : Float) : exponentField x < 2 ^ 11 := Nat.mod_lt _ (by positivity)

theorem fits_parts (finite : x.isFinite = true) : Fits (parts x) := by
  change (parts x).isFinite = true at finite
  cases shape : parts x with
  | zero s => trivial
  | finite s m e positive =>
    refine ⟨bounds_of_parts shape, ?_⟩
    have field := exponentField_lt x
    rw [parts_eq] at shape
    split at shape
    · split at shape <;> cases shape
    · split at shape
      · split at shape
        · cases shape
        · cases shape
          decide
      · cases shape
        omega
  | _ => rw [shape] at finite; cases finite

theorem parts_pack_zero (s : Sign) : parts (.ofModel (.pack (.zero s))) = .zero s := by
  cases s <;> rfl

theorem parts_pack_infinity (s : Sign) : parts (.ofModel (.pack (.infinity s))) = .infinity s := by
  cases s <;> rfl

theorem parts_pack_notANumber : parts (.ofModel (.pack .notANumber)) = .notANumber := by
  rw [parts_pack, UnpackedFloat.pack, unpack_packedNaN]

theorem unpack_packComponents_subnormal (s : Sign) (positive : 0 < m) (small : m < 2 ^ 52) :
    unpack binary64 (packComponents binary64 s 0#11 (BitVec.ofNat 52 m)) =
      .finite s m (-1074) positive := by
  have whole : (BitVec.ofNat 52 m).toNat = m := by
    rw [BitVec.toNat_ofNat]
    exact Nat.mod_eq_of_lt small
  have some : BitVec.ofNat 52 m ≠ 0#52 := by
    intro none
    rw [none] at whole
    exact positive.ne whole
  unfold UnpackedFloat.unpack
  simp only [unpackExponent_packComponents, unpackMantissa_packComponents,
    unpackSign_packComponents, Sign.ofBitVec_toBitVec]
  rw [if_neg (by decide), if_pos trivial, dif_neg some]
  congr 1

theorem unpack_packComponents_normal (s : Sign) (field : Nat) (low : 0 < field)
    (high : field < 2047) (normal : 2 ^ 52 ≤ m) (short : m < 2 ^ 53) :
    unpack binary64 (packComponents binary64 s (BitVec.ofNat 11 field) (BitVec.ofNat 52 m)) =
      .finite s m (field - 1075) (by omega) := by
  have whole : (BitVec.ofNat 11 field).toNat = field := by
    rw [BitVec.toNat_ofNat]
    exact Nat.mod_eq_of_lt (by omega)
  have implicit : (1#1 ++ BitVec.ofNat 52 m).toNat = m := by
    rw [BitVec.toNat_append, BitVec.toNat_ofNat]
    have lower : m % 2 ^ 52 < 2 ^ 52 := Nat.mod_lt _ (by positivity)
    exact (Nat.two_pow_add_eq_or_of_lt lower 1).symm.trans (by omega)
  have notAllOnes : BitVec.ofNat 11 field ≠ -1#11 := by
    intro allOnes
    rw [allOnes] at whole
    exact high.ne whole.symm
  have notZero : BitVec.ofNat 11 field ≠ 0#11 := by
    intro none
    rw [none] at whole
    exact low.ne whole
  unfold UnpackedFloat.unpack
  simp only [unpackExponent_packComponents, unpackMantissa_packComponents,
    unpackSign_packComponents, Sign.ofBitVec_toBitVec]
  rw [if_neg notAllOnes, if_neg notZero]
  simp only [implicit, whole]
  congr 1

theorem Fits.parts_pack (fits : Fits a) : parts (.ofModel (.pack a)) = a := by
  cases a with
  | notANumber | infinity => exact fits.elim
  | zero s => exact parts_pack_zero s
  | finite s m e positive =>
    rw [Number.parts_pack]
    obtain ⟨⟨short, least, normal⟩, most⟩ := fits
    have biased : (e + binary64.exponentBias + binary64.mantissaBitsWithoutImplicit).toNat =
        (e + 1075).toNat := by
      simp [Float.Model.Format.exponentBias]
      omega
    unfold UnpackedFloat.pack
    simp only [biased]
    rw [if_neg (by change ¬2048 ≤ _; omega)]
    by_cases long : 2 ^ 52 ≤ m
    · have length : m.log2 + 1 = binary64.mantissaBits :=
        congrArg (· + 1) ((Nat.log2_eq_iff positive.ne').mpr ⟨long, short⟩)
      rw [if_pos length]
      have back := unpack_packComponents_normal s (e + 1075).toNat (by omega) (by omega) long short
      refine back.trans ?_
      congr 1
      omega
    · have length : ¬m.log2 + 1 = binary64.mantissaBits := by
        have bits := (Nat.log2_lt positive.ne').mpr (not_le.mp long)
        change ¬m.log2 + 1 = 53
        omega
      obtain rfl := normal.resolve_left long
      rw [if_neg length]
      exact unpack_packComponents_subnormal s positive (not_le.mp long)

/-- A larger exponent outweighs any mantissa. -/
theorem Settled.lt_of_exponent_lt (left : Settled m e) (right : Settled n f) (less : e < f) :
    (m : ℝ) * 2 ^ e < n * 2 ^ f := by
  have long : 2 ^ 52 ≤ n := right.2.2.resolve_right (by have := left.2.1; omega)
  have below : (m : ℝ) < 2 ^ 53 := by exact_mod_cast left.1
  have above : (2 : ℝ) ^ 52 ≤ n := by exact_mod_cast long
  calc (m : ℝ) * 2 ^ e < 2 ^ 53 * 2 ^ e := by gcongr
    _ = 2 ^ 52 * 2 ^ (e + 1) := by rw [zpow_add_one₀ two_ne_zero]; ring
    _ ≤ n * 2 ^ f := by
      have : e + 1 ≤ f := less
      gcongr
      exact one_le_two

/-- The comparison of exponents and then of mantissas is that of the scaled numbers. -/
theorem Settled.compare_eq (left : Settled m e) (right : Settled n f) :
    (compare e f).then (compare m n) = cmp ((m : ℝ) * 2 ^ e) (n * 2 ^ f) := by
  rcases Int.lt_trichotomy e f with less | rfl | greater
  · rw [compare_lt_iff_lt.mpr less, (cmp_eq_lt_iff _ _).mpr (left.lt_of_exponent_lt right less)]
    rfl
  · rw [compare_eq_iff_eq.mpr rfl, Ordering.then, cmp_mul_pos_right (by positivity),
      Nat.strictMono_cast.cmp_map_eq, cmp_eq_compare]
  · rw [compare_gt_iff_gt.mpr greater,
      (cmp_eq_gt_iff _ _).mpr (right.lt_of_exponent_lt left greater)]
    rfl

theorem isLE_cmp (a b : ℝ) : (cmp a b).isLE = true ↔ a ≤ b := by
  rcases lt_trichotomy a b with less | rfl | greater
  · simp [(cmp_eq_lt_iff _ _).mpr less, less.le]
  · simp
  · simp [(cmp_eq_gt_iff _ _).mpr greater, greater]

theorem scaled_pos (positive : 0 < m) (e : Int) : 0 < (m : ℝ) * 2 ^ e := by positivity

/-- Finite doubles are in order as the numbers that they stand for. -/
theorem le_iff_value (left : x.isFinite = true) (right : y.isFinite = true) :
    x ≤ y ↔ value x ≤ value y := by
  have fits := fits_parts left
  have fits' := fits_parts right
  rw [le_iff_parts, UnpackedFloat.le]
  unfold value
  cases first : parts x <;> cases second : parts y <;> rw [first] at fits <;>
    rw [second] at fits' <;> first | exact fits.elim | exact fits'.elim | skip
  case zero.zero => simp [UnpackedFloat.compare, worth]
  case zero.finite t n f some =>
    have := scaled_pos some f
    cases t <;> simp [UnpackedFloat.compare, worth, Sign.apply, this, this.le]
  case finite.zero s m e positive t =>
    have := scaled_pos positive e
    cases s <;> simp [UnpackedFloat.compare, worth, Sign.apply, this, this.le]
  case finite.finite s m e positive t n f some =>
    have := scaled_pos positive e
    have := scaled_pos some f
    cases s <;> cases t <;>
      simp only [UnpackedFloat.compare, Option.any_some, worth, Sign.apply,
        fits.1.compare_eq fits'.1, cmp_swap, isLE_cmp, Int.cast_neg, Int.cast_natCast, neg_mul]
    case positive.negative => simp; linarith
    case negative.positive => simp; linarith
    case negative.negative => exact neg_le_neg_iff.symm

theorem Fits.isFinite (fits : Fits (parts x)) : x.isFinite = true := by
  change (parts x).isFinite = true
  cases shape : parts x with
  | zero | finite => rfl
  | _ => rw [shape] at fits; exact fits.elim

@[simp]
theorem parts_neg (x : Float) : parts (-x) = (parts x).neg := by
  have packed : -x = .ofModel (.pack (parts x).neg) := rfl
  rw [packed]
  cases shape : parts x with
  | notANumber => exact parts_pack_notANumber
  | infinity s => exact parts_pack_infinity (-s)
  | zero s => exact parts_pack_zero (-s)
  | finite s m e positive =>
    have finite : x.isFinite = true := by
      change (parts x).isFinite = true
      rw [shape]
      rfl
    have fits := fits_parts finite
    rw [shape] at fits
    exact Fits.parts_pack (a := .finite (-s) m e positive) fits

theorem worth_zero (s : Sign) : worth (.zero s) = 0 := rfl

theorem worth_neg (a : UnpackedFloat) : worth a.neg = -worth a := by
  cases a with
  | finite s m e positive => cases s <;> simp [worth, UnpackedFloat.neg, Sign.apply]
  | _ => simp [worth, UnpackedFloat.neg]

theorem value_neg (x : Float) : value (-x) = -value x := by
  rw [value, parts_neg, worth_neg, value]

theorem isFinite_neg (x : Float) : (-x).isFinite = x.isFinite := by
  change (parts (-x)).isFinite = (parts x).isFinite
  rw [parts_neg]
  cases parts x <;> rfl

theorem sub_eq_add (x y : Float) : x - y = x + -y := by
  change Float.ofModel (.pack (UnpackedFloat.sub binary64 (parts x) (parts y))) =
    .ofModel (.pack (UnpackedFloat.add binary64 (parts x) (parts (-y))))
  rw [parts_neg]
  congr 2
  cases parts x <;> cases parts y
  case zero.zero s t => cases s <;> cases t <;> rfl
  case zero.infinity s t => cases s <;> cases t <;> rfl
  case infinity.infinity s t => cases s <;> cases t <;> rfl
  case finite.finite s m e positive t n f some =>
    simp only [UnpackedFloat.sub, UnpackedFloat.add, UnpackedFloat.neg]
    cases t <;> simp [Sign.apply, Int.sub_eq_add_neg]
  all_goals rfl

theorem value_abs (x : Float) : value x.abs = |value x| := by
  rw [value, parts_abs, value]
  cases parts x with
  | finite s m e positive =>
    cases s <;> simp [worth, UnpackedFloat.abs, Sign.apply, abs_mul]
  | _ => simp [worth, UnpackedFloat.abs]

theorem isFinite_abs (x : Float) : x.abs.isFinite = x.isFinite := by
  change (parts x.abs).isFinite = (parts x).isFinite
  rw [parts_abs]
  cases parts x <;> rfl

end GSharp.Number
