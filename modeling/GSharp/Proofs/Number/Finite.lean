import GSharp.Proofs.Number.Magnitude

namespace GSharp.Number

open Float.Model (UnpackedFloat)
open Float.Model.Format (binary64)

variable {x y : Float}

theorem isNaN_of_isFinite (finite : x.isFinite = true) : x.isNaN = false := by
  have ordinary : (parts x).isFinite = true := finite
  change (parts x).isNaN = false
  cases shape : parts x with
  | notANumber => rw [shape] at ordinary; cases ordinary
  | _ => rfl

/-- Zero may be taken away from anything, an infinity or not-a-number included. -/
theorem sub_zero (x : Float) : x - 0 = x := by
  have packed : x - 0 =
      .ofModel (.pack (UnpackedFloat.sub binary64 (parts x) (.zero .positive))) := rfl
  have same (a : UnpackedFloat) : UnpackedFloat.sub binary64 a (.zero .positive) = a := by
    cases a with
    | zero s => cases s <;> rfl
    | _ => rfl
  rw [packed, same, pack_parts]

theorem le_iff_not_lt (left : x.isFinite = true) (right : y.isFinite = true) :
    x ≤ y ↔ ¬y < x := by
  have noLeft := isNaN_of_isFinite left
  have noRight := isNaN_of_isFinite right
  rw [le_iff_parts, UnpackedFloat.le, lt_iff_parts, UnpackedFloat.lt, compare_swap (parts x)]
  cases order : (parts x).compare (parts y) with
  | none =>
    rcases compare_eq_none order with nan | nan
    · rw [isNaN_iff_parts.mpr nan] at noLeft; cases noLeft
    · rw [isNaN_iff_parts.mpr nan] at noRight; cases noRight
  | some o => cases o <;> simp

end GSharp.Number
