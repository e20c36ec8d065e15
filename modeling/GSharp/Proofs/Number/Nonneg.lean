import GSharp.Proofs.Number.Magnitude

namespace GSharp.Number

open Float.Model (UnpackedFloat)
open Float.Model.Format (binary64)
open Float.Model.UnpackedFloat

variable {m : Nat} {e : Int} {a : UnpackedFloat} {x y : Float}

/-- Zero, a positive number or the positive infinity. -/
def Nonneg : UnpackedFloat → Prop
  | .zero _ => True
  | .finite s _ _ _ => s = .positive
  | .infinity s => s = .positive
  | .notANumber => False

theorem nonneg_iff : 0 ≤ x ↔ Nonneg (parts x) := by
  have zero : parts 0 = .zero .positive := rfl
  rw [le_iff_parts, UnpackedFloat.le, zero]
  rcases parts x with (_ | _) | _ | _ | (_ | _) <;>
    simp [UnpackedFloat.compare, Nonneg]

theorem unpack_packComponents_nonneg {exponent : BitVec 11} (mantissa : BitVec 52)
    (ordinary : exponent ≠ -1#11) :
    Nonneg (unpack binary64 (packComponents binary64 .positive exponent mantissa)) := by
  unfold UnpackedFloat.unpack
  simp only [unpackExponent_packComponents, unpackMantissa_packComponents,
    unpackSign_packComponents, Sign.ofBitVec_toBitVec]
  rw [if_neg ordinary]
  split
  · split
    · trivial
    · rfl
  · rfl

/-- Packing keeps what is not negative so, even where it is too large. -/
theorem Nonneg.parts_pack (nonneg : Nonneg a) : Nonneg (parts (.ofModel (.pack a))) := by
  rw [Number.parts_pack]
  cases a with
  | notANumber => exact nonneg.elim
  | infinity s => cases s <;> trivial
  | zero s => cases s <;> trivial
  | finite s m e positive =>
    obtain rfl : s = .positive := nonneg
    unfold UnpackedFloat.pack
    dsimp only
    split
    · rfl
    · next fits =>
      split
      · refine unpack_packComponents_nonneg _ fun allOnes => ?_
        have field := congrArg BitVec.toNat allOnes
        rw [BitVec.toNat_ofNat] at field
        generalize (e + _ + _ : Int).toNat = biased at fits field
        have field : biased % 2048 = 2047 := field
        have fits : ¬2048 ≤ biased + 1 := fits
        omega
      · exact unpack_packComponents_nonneg _ (by decide)

theorem roundWithAccuracy_nonneg (m : Nat) (e : Int) (accuracy : Accuracy) :
    Nonneg (roundWithAccuracy binary64 .positive m e accuracy) := by
  unfold roundWithAccuracy
  dsimp only
  split
  · trivial
  · rfl

theorem normalize_nonneg {m : Int} (positive : 0 ≤ m) (e : Int) :
    Nonneg (UnpackedFloat.normalize binary64 m e .positive) := by
  unfold UnpackedFloat.normalize
  rcases positive.eq_or_lt with rfl | positive
  · trivial
  · rw [compare_gt_iff_gt.mpr positive]
    exact roundWithAccuracy_nonneg ..

theorem nonneg_add (left : 0 ≤ x) (right : 0 ≤ y) : 0 ≤ x + y := by
  have packed : x + y = .ofModel (.pack (UnpackedFloat.add binary64 (parts x) (parts y))) := rfl
  rw [nonneg_iff] at left right ⊢
  rw [packed]
  refine Nonneg.parts_pack ?_
  generalize parts x = a at left
  generalize parts y = b at right
  rcases a with s | _ | s | ⟨s, m, e, positive⟩ <;>
    rcases b with t | _ | t | ⟨t, n, f, some⟩
  case finite.finite =>
    obtain rfl : s = .positive := left
    obtain rfl : t = .positive := right
    exact normalize_nonneg (Int.natCast_nonneg (m <<< _ + n <<< _)) _
  case zero.zero => cases s <;> cases t <;> trivial
  case zero.finite => exact right
  case finite.zero => exact left
  all_goals cases left <;> cases right <;> rfl

/-- A number that is not negative may be scaled by a positive one. -/
theorem nonneg_mul {positive : 0 < m} (left : parts x = .finite .positive m e positive)
    (right : 0 ≤ y) : 0 ≤ x * y := by
  have packed : x * y = .ofModel (.pack (UnpackedFloat.mul binary64 (parts x) (parts y))) := rfl
  rw [nonneg_iff] at right ⊢
  rw [packed, left]
  refine Nonneg.parts_pack ?_
  generalize parts y = b at right ⊢
  rcases b with t | _ | t | ⟨t, n, f, some⟩
  case zero => trivial
  case finite =>
    obtain rfl : t = .positive := right
    exact roundWithAccuracy_nonneg ..
  all_goals cases right <;> rfl

theorem nonneg_abs (finite : x.isFinite = true) : 0 ≤ x.abs := by
  change (parts x).isFinite = true at finite
  rw [nonneg_iff, parts_abs]
  cases shape : parts x with
  | zero | finite => rw [UnpackedFloat.abs]; trivial
  | _ => rw [shape] at finite; cases finite

theorem nonneg_maximum (left : 0 ≤ x) (right : 0 ≤ y) : 0 ≤ maximum x y := by
  rcases maximum_cases x y with largest | largest <;> rw [largest]
  · exact left
  · exact right

end GSharp.Number
