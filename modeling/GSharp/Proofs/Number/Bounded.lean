import GSharp.Proofs.Number.Magnitude

/-!
How large results are. The exponent of a double bounds it, and an operation raises the exponent by
so little that what starts far from the largest doubles stays finite. The bounds are rough.
-/
namespace GSharp.Number

open Float.Model (UnpackedFloat totalExponent)
open Float.Model.Format (binary64)
open Float.Model.UnpackedFloat

/-- Finite, with an exponent that is not above the given one. -/
def Below (top : Int) : UnpackedFloat → Prop
  | .zero _ => True
  | .finite _ _ e _ => e ≤ top
  | _ => False

variable {m n bits : Nat} {e f top : Int} {a : UnpackedFloat}

theorem Below.mono {top' : Int} (below : Below top a) (le : top ≤ top') : Below top' a := by
  cases a with
  | finite s m e positive => exact Int.le_trans below le
  | _ => exact below

theorem log2_lt_or_zero (small : m < 2 ^ bits) : m.log2 < bits ∨ m.log2 = 0 := by
  by_cases zero : m = 0
  · exact .inr (by simp [zero])
  · exact .inl ((Nat.log2_lt zero).mpr small)

theorem shiftRight_lt (small : m < 2 ^ bits) (shift : Nat) : m >>> shift < 2 ^ (bits - shift) := by
  rw [Nat.shiftRight_eq_div_pow, Nat.div_lt_iff_lt_mul (Nat.two_pow_pos shift), ← Nat.pow_add]
  exact Nat.lt_of_lt_of_le small (Nat.pow_le_pow_right (by decide) (by omega))

theorem shiftLeft_lt (small : m < 2 ^ bits) (shift : Nat) : m <<< shift < 2 ^ (bits + shift) := by
  rw [Nat.shiftLeft_eq, Nat.pow_add]
  exact Nat.mul_lt_mul_of_pos_right small (Nat.two_pow_pos shift)

theorem mantissa_shiftRight (extended : ExtendedMantissa) (shift : Nat) :
    (extended >>> shift).mantissa = extended.mantissa >>> shift := by
  induction shift with
  | zero => rfl
  | succ shift ih =>
    change (extended >>> shift).mantissa / 2 = _
    rw [ih, Nat.shiftRight_succ]

theorem roundedMantissa_le (extended : ExtendedMantissa) :
    extended.roundedMantissa ≤ extended.mantissa + 1 := by
  unfold ExtendedMantissa.roundedMantissa Accuracy.roundToNearestEven
  split <;> omega

theorem mantissa_ofMantissaAndAccuracy (m : Nat) (accuracy : Accuracy) :
    (ExtendedMantissa.ofMantissaAndAccuracy m accuracy).mantissa = m := by
  unfold ExtendedMantissa.ofMantissaAndAccuracy
  split <;> rfl

theorem targetExponent_eq (m : Nat) (e : Int) :
    binary64.targetExponent (totalExponent m e) = max (m.log2 + 1 + e - 53) (-1074) := rfl

/-- Bits are dropped until no more are left than a double has, and the exponent is raised for it. -/
theorem shiftToTargetExponent_below (accuracy : Accuracy) (small : m < 2 ^ bits)
    (range : bits + e ≤ top + 53) (low : e ≤ top) (least : -1074 ≤ top) :
    ∃ shift : Nat, (shiftToTargetExponent binary64 m e accuracy).2 = e + shift ∧ e + shift ≤ top ∧
      (shiftToTargetExponent binary64 m e accuracy).1.mantissa < 2 ^ (bits - shift) := by
  have target := targetExponent_eq m e
  have log := log2_lt_or_zero small
  refine ⟨(binary64.targetExponent (totalExponent m e) - e).toNat, rfl, by omega, ?_⟩
  simp only [shiftToTargetExponent, shiftToExponent]
  rw [mantissa_shiftRight, mantissa_ofMantissaAndAccuracy]
  exact shiftRight_lt small _

/-- Rounding raises the exponent of what has too many bits, and of what is rounded up to one more
bit, but no further. -/
theorem roundWithAccuracy_below (s : Sign) (accuracy : Accuracy) (small : m < 2 ^ bits)
    (range : bits + e ≤ top + 52) (low : e ≤ top) (least : -1074 ≤ top) :
    Below top (roundWithAccuracy binary64 s m e accuracy) := by
  obtain ⟨shift, reached, within, fewer⟩ :=
    shiftToTargetExponent_below accuracy small (Int.le_trans range (by omega)) low least
  unfold roundWithAccuracy
  generalize shiftToTargetExponent binary64 m e accuracy = first at reached fewer ⊢
  have rounded := roundedMantissa_le first.1
  have fewer : first.1.roundedMantissa < 2 ^ (bits - shift + 1) := by rw [Nat.pow_succ]; omega
  have settled : ∃ shift : Nat, _ ∧ first.2 + shift ≤ top ∧ _ :=
    shiftToTargetExponent_below .exact fewer (by omega) (by omega) least
  obtain ⟨_, reached', within', -⟩ := settled
  dsimp only
  split
  · trivial
  · exact reached' ▸ within'

theorem round_below (s : Sign) (small : m < 2 ^ bits) (positive : 0 < m)
    (range : bits + e ≤ top + 52) (least : -1074 ≤ top) :
    Below top (UnpackedFloat.round binary64 s m e) := by
  unfold UnpackedFloat.round
  have log := (Nat.log2_lt positive.ne').mpr small
  simp only [decreaseExponent, targetExponent_eq]
  exact roundWithAccuracy_below s .exact (shiftLeft_lt small _) (by omega) (by omega) least

theorem normalize_below {m : Int} (small : m.natAbs < 2 ^ bits) (range : bits + e ≤ top + 52)
    (least : -1074 ≤ top) : Below top (UnpackedFloat.normalize binary64 m e .positive) := by
  unfold UnpackedFloat.normalize
  rcases Int.lt_trichotomy m 0 with negative | rfl | positive
  · rw [compare_lt_iff_lt.mpr negative]
    exact round_below _ (by omega) (by omega) range least
  · trivial
  · rw [compare_gt_iff_gt.mpr positive]
    exact round_below _ (by omega) (by omega) range least

theorem unpack_packComponents_below (s : Sign) {exponent : BitVec 11} (mantissa : BitVec 52)
    (ordinary : exponent.toNat < 2047) (range : (exponent.toNat : Int) ≤ top + 1075)
    (least : -1074 ≤ top) :
    Below top (unpack binary64 (packComponents binary64 s exponent mantissa)) := by
  have notAllOnes : exponent ≠ -1#11 := by
    rintro rfl
    exact absurd ordinary (by decide)
  unfold UnpackedFloat.unpack
  simp only [unpackExponent_packComponents, unpackMantissa_packComponents]
  rw [if_neg notAllOnes]
  split
  · rename_i none
    split
    · trivial
    · rw [none]
      exact least
  · change (_ : Int) - 1075 ≤ top
    omega

/-- What is far below the largest doubles is packed as it is. -/
theorem parts_pack_below (below : Below top a) (least : -1074 ≤ top) (far : top < 972) :
    Below top (parts (.ofModel (.pack a))) := by
  rw [parts_pack]
  cases a with
  | notANumber | infinity => exact below.elim
  | zero s => exact unpack_packComponents_below s _ (by decide) (by simp; omega) least
  | finite s m e positive =>
    have : e ≤ top := below
    have biased : (e + binary64.exponentBias + binary64.mantissaBitsWithoutImplicit).toNat =
        (e + 1075).toNat := by
      simp [Float.Model.Format.exponentBias]
      omega
    have small : (e + 1075).toNat < 2047 := by omega
    unfold UnpackedFloat.pack
    simp only [biased]
    rw [if_neg (by change ¬2048 ≤ _; omega)]
    have whole : (BitVec.ofNat 11 (e + 1075).toNat).toNat = (e + 1075).toNat := by
      rw [BitVec.toNat_ofNat]
      omega
    split
    · exact unpack_packComponents_below s _ (by omega) (by omega) least
    · exact unpack_packComponents_below s _ (by decide) (by simp; omega) least

variable {x y : Float}

theorem isFinite_of_below (below : Below top (parts x)) : x.isFinite = true := by
  change (parts x).isFinite = true
  cases shape : parts x with
  | zero | finite => rfl
  | _ => rw [shape] at below; exact below.elim

theorem natAbs_apply (s : Sign) (m : Nat) : (s.apply m).natAbs = m := by
  cases s <;> simp [Sign.apply]

/-- Two mantissas brought to a common exponent add up to one more bit than the longer one has. -/
theorem aligned_sum_lt {shift shift' room : Nat} (s t : Sign) (left : m < 2 ^ 53)
    (right : n < 2 ^ 53) (le : shift ≤ room) (le' : shift' ≤ room) :
    (s.apply (m <<< shift : Nat) + t.apply (n <<< shift' : Nat)).natAbs < 2 ^ (54 + room) := by
  have first : m <<< shift < 2 ^ (53 + room) :=
    Nat.lt_of_lt_of_le (shiftLeft_lt left shift) (Nat.pow_le_pow_right (by decide) (by omega))
  have second : n <<< shift' < 2 ^ (53 + room) :=
    Nat.lt_of_lt_of_le (shiftLeft_lt right shift') (Nat.pow_le_pow_right (by decide) (by omega))
  calc _ ≤ (s.apply (m <<< shift : Nat)).natAbs + (t.apply (n <<< shift' : Nat)).natAbs :=
        Int.natAbs_add_le ..
    _ = m <<< shift + n <<< shift' := by rw [natAbs_apply, natAbs_apply]
    _ < 2 ^ (53 + room) + 2 ^ (53 + room) := Nat.add_lt_add first second
    _ = 2 ^ (54 + room) := by rw [← Nat.two_mul, ← Nat.pow_succ']; congr 1; omega

theorem add_below (left : Below top (parts x)) (right : Below top (parts y))
    (least : -1074 ≤ top) (far : top < 970) : Below (top + 2) (parts (x + y)) := by
  have packed : x + y = .ofModel (.pack (UnpackedFloat.add binary64 (parts x) (parts y))) := rfl
  rw [packed]
  refine parts_pack_below ?_ (by omega) (by omega)
  cases first : parts x with
  | notANumber | infinity => rw [first] at left; exact left.elim
  | zero s =>
    cases second : parts y with
    | notANumber | infinity => rw [second] at right; exact right.elim
    | zero t => cases s <;> cases t <;> trivial
    | finite t n f some =>
      rw [second] at right
      exact right.mono (by omega)
  | finite s m e positive =>
    rw [first] at left
    cases second : parts y with
    | notANumber | infinity => rw [second] at right; exact right.elim
    | zero t => exact left.mono (by omega)
    | finite t n f some =>
      rw [second] at right
      have : e ≤ top := left
      have : f ≤ top := right
      have sum := aligned_sum_lt s t (bounds_of_parts first).1 (bounds_of_parts second).1
        (Int.toNat_le_toNat (Int.sub_le_sub_right left (min e f)))
        (Int.toNat_le_toNat (Int.sub_le_sub_right right (min e f)))
      exact normalize_below sum (by omega) (by omega)

theorem quotient_lt (small : m < 2 ^ 53) (normal : 2 ^ 52 ≤ n) (shift : Nat) :
    m <<< shift / n < 2 ^ (1 + shift) := by
  rw [Nat.div_lt_iff_lt_mul (by omega)]
  calc m <<< shift < 2 ^ (53 + shift) := shiftLeft_lt small shift
    _ = 2 ^ (1 + shift) * 2 ^ 52 := by rw [← Nat.pow_add]; congr 1; omega
    _ ≤ 2 ^ (1 + shift) * n := Nat.mul_le_mul_left _ normal

/-- Divided by a double with all its bits, a number is brought down by the exponent of that. -/
theorem div_below {top' : Int} {s : Sign} {positive : 0 < n} (below : Below top (parts x))
    (divisor : parts y = .finite s n f positive) (normal : 2 ^ 52 ≤ n) (range : top - f ≤ top')
    (least : -1074 ≤ top') (far : top' < 972) : Below top' (parts (x / y)) := by
  have packed : x / y = .ofModel (.pack (UnpackedFloat.div binary64 (parts x) (parts y))) := rfl
  rw [packed, divisor]
  refine parts_pack_below ?_ least far
  cases dividend : parts x with
  | notANumber | infinity => rw [dividend] at below; exact below.elim
  | zero => trivial
  | finite t m e some =>
    rw [dividend] at below
    have : e ≤ top := below
    have small := (bounds_of_parts dividend).1
    have target : binary64.targetExponent (totalExponent m e - totalExponent n f) =
        max ((m.log2 : Int) + 1 + e - (n.log2 + 1 + f) - 53) (-1074) := rfl
    unfold UnpackedFloat.div UnpackedFloat.divCore
    simp only [target]
    generalize near : min (e - f) _ = reached
    have quotient := quotient_lt small normal (e - f - reached).toNat
    exact roundWithAccuracy_below _ _ quotient (by omega) (by omega) least

theorem halveToEven_le (m shift : Nat) : halveToEven m shift ≤ m >>> shift + 1 := by
  unfold halveToEven
  dsimp only
  split <;> omega

/-- What is built from bits is as large as their exponent field says. -/
theorem parts_ofBits_below {bits : Nat} (small : bits < 2 ^ 64)
    (ordinary : bits / 2 ^ 52 % 2 ^ 11 < 2047)
    (range : ((bits / 2 ^ 52 % 2 ^ 11 : Nat) : Int) ≤ top + 1075) (least : -1074 ≤ top) :
    Below top (parts (Float.ofBits (UInt64.ofNat bits))) := by
  have field : exponentField (Float.ofBits (UInt64.ofNat bits)) = bits / 2 ^ 52 % 2 ^ 11 := by
    rw [exponentField, toNat_toBits_ofBits small (by omega)]
  rw [parts_eq, field, if_neg (by omega)]
  split
  · split
    · trivial
    · exact least
  · change (_ : Int) ≤ top
    omega

/-- The mantissa that `roundScaled` settles on. -/
theorem scaledMantissa_le {target : Int} (room : (m.log2 : Int) + 1 + e - 53 ≤ target) :
    (if e < target then halveToEven m (target - e).toNat else m <<< (e - target).toNat) ≤
      2 ^ 53 := by
  have small : m < 2 ^ (m.log2 + 1) := Nat.lt_log2_self
  split
  · calc _ ≤ m >>> (target - e).toNat + 1 := halveToEven_le ..
      _ ≤ 2 ^ (m.log2 + 1 - (target - e).toNat) := shiftRight_lt small _
      _ ≤ 2 ^ 53 := Nat.pow_le_pow_right (by decide) (by omega)
  · calc _ ≤ 2 ^ (m.log2 + 1 + (e - target).toNat) := (shiftLeft_lt small _).le
      _ ≤ 2 ^ 53 := Nat.pow_le_pow_right (by decide) (by omega)

theorem roundScaled_below (negative : Bool) (small : m < 2 ^ bits)
    (range : bits + e ≤ top + 52) (least : -1073 ≤ top) (far : top < 971) :
    Below top (parts (roundScaled negative m e)) := by
  unfold roundScaled
  by_cases zero : m = 0
  · simp only [if_pos zero]
    cases negative <;> exact parts_ofBits_below (by decide) (by decide) (by simp; omega) (by omega)
  · have log := (Nat.log2_lt zero).mpr small
    have mantissa := @scaledMantissa_le m e (max ((m.log2 : Int) + 1 + e - 53) (-1074)) (by omega)
    simp only [if_neg zero]
    generalize (if e < _ then halveToEven m _ else _) = lifted at mantissa ⊢
    generalize above : ((max ((m.log2 : Int) + 1 + e - 53) (-1074)) + 1074).toNat = field
    generalize capped : min (field * 2 ^ 52 + lifted) (2047 * 2 ^ 52) = magnitude
    have fits : magnitude / 2 ^ 52 ≤ field + 2 := by omega
    cases negative
    · exact parts_ofBits_below (by simp; omega) (by simp; omega) (by simp; omega) (by omega)
    · exact parts_ofBits_below (by simp; omega) (by simp; omega) (by simp; omega) (by omega)

/-- A double with a field that is neither the least nor the greatest has all its bits. -/
theorem parts_normal (some : exponentField y ≠ 0) (ordinary : exponentField y ≠ 2047) :
    parts y = .finite (sign y) (2 ^ 52 + fraction y) (exponentField y - 1075) (by positivity) := by
  rw [parts_eq, if_neg ordinary, if_neg some]

/-- A remainder has no greater exponent than the divisor, but for rounding, unless it is not a
number. -/
theorem remainder_below {s : Sign} {positive : 0 < n} (x : Float)
    (divisor : parts y = .finite s n f positive) (least : -1074 ≤ f) (far : f < 970) :
    Below (f + 1) (parts (remainder x y)) ∨ remainder x y = 0.0 / 0.0 := by
  have small := (bounds_of_parts divisor).1
  have exact : decode? y = some (s.apply n, f) := by rw [decode?_eq, divisor]
  unfold remainder
  rw [exact]
  cases decode? x with
  | none => exact .inr rfl
  | some decoded =>
    obtain ⟨m, e⟩ := decoded
    have nonzero : s.apply n ≠ 0 := by
      have := natAbs_apply s n
      omega
    simp only [if_neg nonzero, natAbs_apply]
    left
    have scaled : 0 < n <<< (f - min e f).toNat := by rw [Nat.shiftLeft_eq]; positivity
    have less := Nat.mod_lt (m.natAbs <<< (e - min e f).toNat) scaled
    exact roundScaled_below _ (Nat.lt_trans less (shiftLeft_lt small _)) (by omega) (by omega)
      (by omega)

theorem euclideanRemainder_below {s : Sign} {positive : 0 < n} (x : Float)
    (divisor : parts y = .finite s n f positive) (least : -1074 ≤ f) (far : f < 969) :
    Below (f + 3) (parts (euclideanRemainder x y)) ∨ euclideanRemainder x y = 0.0 / 0.0 := by
  unfold euclideanRemainder
  dsimp only
  rcases remainder_below x divisor least (by omega) with below | nan
  · left
    split
    · have size : Below (f + 1) (parts y.abs) := by
        rw [parts_abs, divisor]
        exact Int.le_of_lt (Int.lt_succ f)
      exact (add_below below size (by omega) (by omega)).mono (by omega)
    · exact below.mono (by omega)
  · rw [nan, if_neg (by decide)]
    exact .inr rfl

end GSharp.Number
