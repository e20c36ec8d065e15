import GSharp.Proofs.Number.Bounded
import GSharp.Proofs.Number.Count

namespace GSharp.Number

open Float.Model (UnpackedFloat totalExponent)
open Float.Model.Format (binary64)
open Float.Model.UnpackedFloat

variable {m n : Nat} {e f : Int} {a b : UnpackedFloat} {x y : Float}

theorem not_le_of_lt (less : x < y) : ¬y ≤ x := by
  rw [lt_iff_parts, UnpackedFloat.lt, beq_iff_eq] at less
  rw [le_iff_parts, UnpackedFloat.le, compare_swap, less]
  exact Bool.false_ne_true

/-- No number below one, and no zero. -/
def AtLeastOne : UnpackedFloat → Prop
  | .zero _ => False
  | .finite _ m e _ => m.log2 = 52 ∧ -52 ≤ e
  | _ => True

theorem log2_shiftRight {shift : Nat} (length : m.log2 = 52 + shift) :
    (m >>> shift).log2 = 52 := by
  have some : m ≠ 0 := by
    rintro rfl
    simp at length
    omega
  have scale : 2 ^ 52 * 2 ^ shift = 2 ^ m.log2 := by rw [length, Nat.pow_add]
  have low : 2 ^ 52 ≤ m / 2 ^ shift := by
    rw [Nat.le_div_iff_mul_le (Nat.two_pow_pos shift), scale]
    exact Nat.log2_self_le some
  have high : m / 2 ^ shift < 2 ^ (52 + 1) := by
    rw [Nat.div_lt_iff_lt_mul (Nat.two_pow_pos shift), Nat.pow_succ, Nat.mul_right_comm, scale,
      ← Nat.pow_succ]
    exact Nat.lt_log2_self
  rw [Nat.shiftRight_eq_div_pow]
  exact (Nat.log2_eq_iff (by omega)).mpr ⟨low, high⟩

/-- Where there are bits enough, all but the first fifty-three are dropped. -/
theorem shiftToTargetExponent_atLeastOne (accuracy : Accuracy) (bits : 52 ≤ m.log2)
    (large : 0 ≤ m.log2 + e) :
    (shiftToTargetExponent binary64 m e accuracy).1.mantissa.log2 = 52 ∧
      -52 ≤ (shiftToTargetExponent binary64 m e accuracy).2 := by
  have target := targetExponent_eq m e
  have amount : m.log2 = 52 + (binary64.targetExponent (totalExponent m e) - e).toNat := by omega
  simp only [shiftToTargetExponent, shiftToExponent]
  rw [mantissa_shiftRight, mantissa_ofMantissaAndAccuracy]
  exact ⟨log2_shiftRight amount, by omega⟩

theorem le_roundedMantissa (extended : ExtendedMantissa) :
    extended.mantissa ≤ extended.roundedMantissa := by
  unfold ExtendedMantissa.roundedMantissa Accuracy.roundToNearestEven
  split <;> omega

theorem roundWithAccuracy_atLeastOne (s : Sign) (accuracy : Accuracy) (bits : 52 ≤ m.log2)
    (large : 0 ≤ m.log2 + e) : AtLeastOne (roundWithAccuracy binary64 s m e accuracy) := by
  obtain ⟨length, low⟩ := shiftToTargetExponent_atLeastOne accuracy bits large
  unfold roundWithAccuracy
  generalize shiftToTargetExponent binary64 m e accuracy = first at length low ⊢
  have some : first.1.mantissa ≠ 0 := by
    intro zero
    simp [zero] at length
  have kept := le_roundedMantissa first.1
  have rounded : 52 ≤ first.1.roundedMantissa.log2 := by
    rw [← length, Nat.le_log2 (by omega)]
    exact (Nat.log2_self_le some).trans kept
  have large : 0 ≤ first.1.roundedMantissa.log2 + first.2 := by omega
  obtain ⟨settled, above⟩ := shiftToTargetExponent_atLeastOne .exact rounded large
  dsimp only
  split
  next zero => simp [zero] at settled
  next => exact ⟨settled, above⟩

theorem round_atLeastOne (s : Sign) (some : m ≠ 0) (large : 0 ≤ m.log2 + e) :
    AtLeastOne (UnpackedFloat.round binary64 s m e) := by
  unfold UnpackedFloat.round
  have target := targetExponent_eq m e
  simp only [decreaseExponent]
  apply roundWithAccuracy_atLeastOne <;> rw [log2_shiftLeft some] <;> omega

theorem unpack_packComponents_ne_zero (s t : Sign) {exponent : BitVec 11} (mantissa : BitVec 52)
    (some : exponent ≠ 0#11) :
    unpack binary64 (packComponents binary64 s exponent mantissa) ≠ .zero t := by
  unfold UnpackedFloat.unpack
  simp only [unpackExponent_packComponents]
  rw [if_neg some]
  split
  · split <;> exact UnpackedFloat.noConfusion
  · exact UnpackedFloat.noConfusion

theorem AtLeastOne.parts_ne_zero (large : AtLeastOne a) (s : Sign) :
    parts (.ofModel (.pack a)) ≠ .zero s := by
  rw [parts_pack]
  cases a with
  | zero => exact large.elim
  | notANumber =>
    simp only [UnpackedFloat.pack, unpack_packedNaN]
    exact UnpackedFloat.noConfusion
  | infinity t => exact unpack_packComponents_ne_zero t s _ (by decide)
  | finite t m e positive =>
    obtain ⟨length, low⟩ := large
    have biased : (e + binary64.exponentBias + binary64.mantissaBitsWithoutImplicit).toNat =
        (e + 1075).toNat := by
      simp [Float.Model.Format.exponentBias]
      omega
    unfold UnpackedFloat.pack
    simp only [biased]
    split
    next => exact unpack_packComponents_ne_zero t s _ (by decide)
    next finite =>
      have finite : ¬2048 ≤ (e + 1075).toNat + 1 := finite
      have whole : m.log2 + 1 = binary64.mantissaBits := congrArg (· + 1) length
      rw [if_pos whole]
      refine unpack_packComponents_ne_zero t s _ fun zero => ?_
      have field := congrArg BitVec.toNat zero
      rw [BitVec.toNat_ofNat] at field
      simp only [BitVec.toNat_ofNat, Nat.zero_mod] at field
      omega

/-- No number below zero, unless it is infinite. -/
def Upward : UnpackedFloat → Prop
  | .finite s _ _ _ => s = .positive
  | _ => True

theorem upward_abs (a : UnpackedFloat) : Upward a.abs := by cases a <;> trivial

/-- Packing keeps the sign. -/
theorem Upward.parts_pack (upward : Upward a) : Upward (parts (.ofModel (.pack a))) := by
  rw [Number.parts_pack]
  cases a with
  | notANumber =>
    rw [UnpackedFloat.pack, unpack_packedNaN]
    trivial
  | infinity s => cases s <;> trivial
  | zero s => cases s <;> trivial
  | finite s m e positive =>
    obtain rfl : s = .positive := upward
    have same := unpack_pack_abs (.finite .positive m e positive)
    rw [UnpackedFloat.abs] at same
    rw [same]
    exact upward_abs _

theorem round_upward (m : Nat) (e : Int) : Upward (UnpackedFloat.round binary64 .positive m e) := by
  unfold UnpackedFloat.round roundWithAccuracy
  dsimp only
  split
  · trivial
  · rfl

theorem normalize_upward {m : Int} (positive : 0 ≤ m) (e : Int) :
    Upward (UnpackedFloat.normalize binary64 m e .positive) := by
  unfold UnpackedFloat.normalize
  rcases positive.eq_or_lt with rfl | positive
  · trivial
  · rw [compare_gt_iff_gt.mpr positive]
    exact round_upward _ _

/-- Magnitudes in order are in order as mantissas once their exponents are the same. -/
theorem shiftLeft_le_of_compare (short : m < 2 ^ 53) (normal : 2 ^ 52 ≤ n ∨ f = -1074)
    (least : -1074 ≤ e) (ordered : (compare e f).then (compare m n) ≠ .gt) :
    m <<< (e - min e f).toNat ≤ n <<< (f - min e f).toNat := by
  rcases Int.lt_trichotomy e f with less | rfl | greater
  · have long : 2 ^ 52 ≤ n := normal.resolve_right (by omega)
    have room : (f - min e f).toNat = (f - e - 1).toNat + 1 := by omega
    have none : (e - min e f).toNat = 0 := by omega
    rw [none, room, Nat.shiftLeft_zero, Nat.shiftLeft_eq, Nat.pow_succ, ← Nat.mul_assoc]
    have scaled := Nat.le_mul_of_pos_right n (Nat.two_pow_pos (f - e - 1).toNat)
    omega
  · rw [compare_eq_iff_eq.mpr rfl, Ordering.then, ne_eq, compare_gt_iff_gt, not_lt] at ordered
    rw [Nat.shiftLeft_eq, Nat.shiftLeft_eq]
    exact Nat.mul_le_mul_right _ ordered
  · rw [compare_gt_iff_gt.mpr greater] at ordered
    exact absurd rfl ordered

theorem difference_nonneg {s t : Sign} {positive : 0 < m} {some : 0 < n}
    (upper : parts y = .finite s m e positive) (lower : parts x = .finite t n f some)
    (ordered : x ≤ y) : 0 ≤ s.apply (m <<< (e - min e f).toNat : Nat) -
      t.apply (n <<< (f - min e f).toNat : Nat) := by
  have ⟨short, least, normal⟩ := bounds_of_parts upper
  have ⟨short', least', normal'⟩ := bounds_of_parts lower
  rw [le_iff_parts, UnpackedFloat.le, upper, lower] at ordered
  cases s <;> cases t <;> simp only [UnpackedFloat.compare, Option.any_some] at ordered
  case positive.positive =>
    have less := shiftLeft_le_of_compare short' normal least' fun above => by
      rw [above] at ordered
      cases ordered
    rw [min_comm] at less
    exact Int.sub_nonneg.mpr (Int.ofNat_le.mpr less)
  case negative.negative =>
    have less := shiftLeft_le_of_compare short normal' least fun above => by
      rw [Ordering.swap_then, ← Int.compare_swap e, ← Nat.compare_swap m, Ordering.swap_swap,
        Ordering.swap_swap, above] at ordered
      cases ordered
    simp only [Sign.apply]
    omega
  case negative.positive => cases ordered
  case positive.negative =>
    simp only [Sign.apply, Int.sub_neg]
    exact Int.natCast_nonneg _

/-- A smaller double may be taken away without the sign becoming negative. -/
theorem sub_upward (ordered : x ≤ y) : Upward (parts (y - x)) := by
  have packed : y - x = .ofModel (.pack (UnpackedFloat.sub binary64 (parts y) (parts x))) := rfl
  rw [packed]
  refine Upward.parts_pack ?_
  cases upper : parts y with
  | notANumber => trivial
  | infinity s =>
    cases parts x with
    | infinity t => cases s <;> cases t <;> trivial
    | _ => trivial
  | zero s =>
    cases lower : parts x with
    | zero t => cases s <;> cases t <;> trivial
    | finite t n f some =>
      rw [le_iff_parts, upper, lower] at ordered
      cases t with
      | positive => cases ordered
      | negative => rfl
    | _ => trivial
  | finite s m e positive =>
    cases lower : parts x with
    | zero t =>
      rw [le_iff_parts, upper, lower] at ordered
      cases s with
      | positive => rfl
      | negative => cases ordered
    | finite t n f some => exact normalize_upward (difference_nonneg upper lower ordered) _
    | _ => trivial

theorem Upward.add_one (upward : Upward a) :
    AtLeastOne (UnpackedFloat.add binary64 a (parts 1)) := by
  have one : parts 1 = .finite .positive (2 ^ 52) (-52) (by decide) := rfl
  rw [one]
  cases a with
  | notANumber => trivial
  | infinity s => trivial
  | zero s => exact ⟨by decide, by decide⟩
  | finite s m e positive =>
    obtain rfl : s = .positive := upward
    -- At the common exponent the one alone has the bits that rounding keeps.
    obtain ⟨shift, room⟩ : ∃ shift, (-52 - min e (-52)).toNat = shift := ⟨_, rfl⟩
    have large : 2 ^ (52 + shift) ≤ m <<< (e - min e (-52)).toNat + 2 ^ 52 <<< shift := by
      rw [Nat.shiftLeft_eq (2 ^ 52), ← Nat.pow_add]
      exact Nat.le_add_left _ _
    have some := Nat.lt_of_lt_of_le (Nat.two_pow_pos _) large
    have bits := (Nat.le_log2 some.ne').mpr large
    simp only [UnpackedFloat.add, decreaseExponent, Sign.apply, ← Int.natCast_add, room]
    rw [UnpackedFloat.normalize, compare_gt_iff_gt.mpr (Int.natCast_pos.mpr some)]
    exact round_atLeastOne _ some.ne' (by rw [Int.toNat_natCast]; omega)

/-- One more than such a difference is no zero, of either sign. -/
theorem toCount?_sub_add_one (ordered : x ≤ y) : toCount? (y - x + 1) ≠ some 0 := by
  have packed (z : Float) :
      z + 1 = .ofModel (.pack (UnpackedFloat.add binary64 (parts z) (parts 1))) := rfl
  have nonzero := (sub_upward ordered).add_one.parts_ne_zero
  rw [← packed] at nonzero
  intro none
  have safe : isSafeCount (y - x + 1) = true := by
    by_contra large
    rw [toCount?, if_neg large] at none
    cases none
  obtain ⟨n, count⟩ := exists_denotes safe
  rw [count.toCount?_eq] at none
  obtain rfl := Option.some.inj none
  obtain ⟨-, same | ⟨-, same⟩⟩ := count
  · exact nonzero .positive (same ▸ rfl)
  · exact nonzero .negative (same ▸ rfl)

end GSharp.Number
