import GSharp.Number.Count
import Mathlib

/-!
What a double is made of, read off its bits: a sign, a mantissa and an exponent, or a special value.
The exact value that `decode?` gives and the model of floating-point arithmetic meet here.
-/
namespace GSharp.Number

open Float.Model UnpackedFloat

variable {x y : Float}

/-- A double as the model of arithmetic sees it. -/
def parts (x : Float) : UnpackedFloat := x.toModel.unpack

theorem pack_parts (x : Float) : Float.ofModel (Float.Model.pack (parts x)) = x :=
  Float.ofBits_toBits x

theorem eq_of_parts (same : parts x = parts y) : x = y := by
  rw [← pack_parts x, same, pack_parts]

section Bits

variable (bits : BitVec Format.binary64.numBits)

theorem unpackMantissa_toNat : (unpackMantissa bits).toNat = bits.toNat % 2 ^ 52 := by
  simp [unpackMantissa_def]

theorem unpackExponent_toNat :
    (unpackExponent bits).toNat = bits.toNat / 2 ^ 52 % 2 ^ 11 := by
  simp [unpackExponent_def, Nat.shiftRight_eq_div_pow]

theorem ofBitVec_unpackSign :
    Sign.ofBitVec (unpackSign bits) = if bits.toNat / 2 ^ 63 = 1 then .negative else .positive := by
  have bounded : bits.toNat < 2 ^ 64 := bits.isLt
  have value : (unpackSign bits).toNat = bits.toNat / 2 ^ 63 := by
    simp [unpackSign_def, Nat.shiftRight_eq_div_pow]
    omega
  unfold Sign.ofBitVec
  by_cases set : bits.toNat / 2 ^ 63 = 1
  · rw [if_pos set, if_neg fun clear => by simp [clear] at value; omega]
  · have clear : unpackSign bits = 0#1 := BitVec.eq_of_toNat_eq (by simp [value]; omega)
    rw [if_neg set, if_pos clear]

end Bits

theorem le_iff_parts : x ≤ y ↔ (parts x).le (parts y) = true := decide_eq_true_iff

theorem lt_iff_parts : x < y ↔ (parts x).lt (parts y) = true := decide_eq_true_iff

def exponentField (x : Float) : Nat := x.toBits.toNat / 2 ^ 52 % 2 ^ 11

def fraction (x : Float) : Nat := x.toBits.toNat % 2 ^ 52

def sign (x : Float) : Sign := if x.toBits.toNat / 2 ^ 63 = 1 then .negative else .positive

theorem fraction_lt (x : Float) : fraction x < 2 ^ 52 := Nat.mod_lt _ (by positivity)

/-- The parts by the fields. The mantissa of a normal double has one more bit than its field. -/
theorem parts_eq (x : Float) : parts x =
    if exponentField x = 2047 then
      if fraction x = 0 then .infinity (sign x) else .notANumber
    else if exponentField x = 0 then
      if subnormal : fraction x = 0 then .zero (sign x)
      else .finite (sign x) (fraction x) (-1074) (Nat.pos_of_ne_zero subnormal)
    else .finite (sign x) (2 ^ 52 + fraction x) (exponentField x - 1075) (by positivity) := by
  let bits : BitVec Format.binary64.numBits := x.toBits.toBitVec
  have mantissa : (unpackMantissa bits).toNat = fraction x := unpackMantissa_toNat bits
  have exponent : (unpackExponent bits).toNat = exponentField x := unpackExponent_toNat bits
  have signed : Sign.ofBitVec (unpackSign bits) = sign x := ofBitVec_unpackSign bits
  have allOnes : (unpackExponent bits = -1#_) ↔ exponentField x = 2047 := by
    rw [← exponent, ← BitVec.toNat_inj]; rfl
  have allZeros : (unpackExponent bits = 0#_) ↔ exponentField x = 0 := by
    rw [← exponent, ← BitVec.toNat_inj]; rfl
  have noFraction : (unpackMantissa bits = 0#_) ↔ fraction x = 0 := by
    rw [← mantissa, ← BitVec.toNat_inj]; rfl
  have implicit : (1#1 ++ unpackMantissa bits).toNat = 2 ^ 52 + fraction x := by
    rw [BitVec.toNat_append, mantissa]
    exact (Nat.two_pow_add_eq_or_of_lt (fraction_lt x) 1).symm
  change UnpackedFloat.unpack Format.binary64 bits = _
  unfold UnpackedFloat.unpack
  simp only [allOnes, allZeros, noFraction, signed, mantissa, exponent, implicit]
  split
  · rfl
  · split
    · split
      · rfl
      · simp [Format.exponentBias]
        omega
    · rfl

/-- The mantissa has the fifty-three bits of a normal double, or the exponent is the smallest. -/
theorem bounds_of_parts {s : Sign} {m : Nat} {e : Int} {positive : 0 < m}
    (finite : parts x = .finite s m e positive) :
    m < 2 ^ 53 ∧ -1074 ≤ e ∧ (2 ^ 52 ≤ m ∨ e = -1074) := by
  have small := fraction_lt x
  rw [parts_eq] at finite
  split at finite
  · split at finite <;> cases finite
  · split at finite
    · split at finite
      · cases finite
      · cases finite
        exact ⟨by omega, le_refl _, .inr rfl⟩
    · cases finite
      exact ⟨by omega, by omega, .inl (by omega)⟩

/-- A finite double stands for its signed mantissa, scaled. -/
theorem decode?_eq (x : Float) : decode? x =
    match parts x with
    | .finite s m e _ => some (s.apply m, e)
    | .zero _ => some (0, -1074)
    | _ => none := by
  have signed (m : Nat) :
      (if x.toBits.toNat / 2 ^ 63 = 1 then -(m : Int) else m) = (sign x).apply m := by
    unfold sign
    split <;> rfl
  unfold decode?
  simp only [signed]
  change (if exponentField x = 2047 then none
    else if exponentField x = 0 then some ((sign x).apply (fraction x), (-1074 : Int))
    else some ((sign x).apply (2 ^ 52 + fraction x : Nat), (exponentField x : Int) - 1075)) = _
  rw [parts_eq]
  by_cases special : exponentField x = 2047
  · by_cases empty : fraction x = 0 <;> simp [special, empty]
  · by_cases small : exponentField x = 0
    · by_cases empty : fraction x = 0
      · cases sign x <;> simp [small, empty, Sign.apply]
      · simp [small, empty]
    · simp [special, small]

/-- Bits that are not those of a special value are the bits of their double. -/
theorem toBits_ofBits {bits : UInt64} (finite : bits.toNat / 2 ^ 52 % 2 ^ 11 ≠ 2047) :
    (Float.ofBits bits).toBits = bits := by
  let vector : BitVec Format.binary64.numBits := bits.toBitVec
  have ordinary : ¬(isNaNBits vector = true) := by
    intro special
    have allOnes : unpackExponent vector = -1#_ := (of_decide_eq_true special).1
    have exponent := unpackExponent_toNat vector
    rw [allOnes] at exponent
    exact finite exponent.symm
  have packed : (UnpackedFloat.unpack Format.binary64 vector).pack Format.binary64 = vector := by
    rw [pack_unpack vector, if_neg ordinary]
  exact UInt64.toBitVec_inj.mp packed

theorem toNat_toBits_ofBits {bits : Nat} (small : bits < 2 ^ 64)
    (finite : bits / 2 ^ 52 % 2 ^ 11 ≠ 2047) :
    (Float.ofBits (UInt64.ofNat bits)).toBits.toNat = bits := by
  have number : (UInt64.ofNat bits).toNat = bits := UInt64.toNat_ofNat_of_lt' small
  rw [toBits_ofBits (by rwa [number]), number]

/-- The double with a given exponent field and fraction. -/
theorem parts_ofBits {field below : Nat} (normal : 0 < field) (finite : field < 2047)
    (bounded : below < 2 ^ 52) :
    parts (Float.ofBits (UInt64.ofNat (field * 2 ^ 52 + below))) =
      .finite .positive (2 ^ 52 + below) (field - 1075) (by positivity) := by
  have same := @toNat_toBits_ofBits (field * 2 ^ 52 + below) (by omega) (by omega)
  have exponent : exponentField (Float.ofBits (UInt64.ofNat (field * 2 ^ 52 + below))) = field := by
    rw [exponentField, same]; omega
  have rest : fraction (Float.ofBits (UInt64.ofNat (field * 2 ^ 52 + below))) = below := by
    rw [fraction, same]; omega
  have signed : sign (Float.ofBits (UInt64.ofNat (field * 2 ^ 52 + below))) = .positive := by
    rw [sign, same, if_neg (by omega)]
  rw [parts_eq]
  simp only [exponent, rest, signed, if_neg (show field ≠ 2047 by omega),
    if_neg (show field ≠ 0 by omega)]

end GSharp.Number
