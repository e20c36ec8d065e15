import GSharp.Proofs.Number.Parts

namespace GSharp.Number

open Float.Model (UnpackedFloat)
open Float.Model.Format (binary64)
open Float.Model.UnpackedFloat

variable {x y : Float}

/-- Only the sign of what is read back depends on the sign that was packed. -/
theorem unpack_packComponents_abs (s : Sign) (exponent : BitVec 11) (mantissa : BitVec 52) :
    unpack binary64 (packComponents binary64 .positive exponent mantissa) =
      (unpack binary64 (packComponents binary64 s exponent mantissa)).abs := by
  unfold UnpackedFloat.unpack
  simp only [unpackExponent_packComponents, unpackMantissa_packComponents,
    unpackSign_packComponents, Sign.ofBitVec_toBitVec]
  split
  · split <;> rfl
  · split
    · split <;> rfl
    · rfl

theorem unpack_pack_abs (a : UnpackedFloat) :
    unpack binary64 (pack binary64 a.abs) = (unpack binary64 (pack binary64 a)).abs := by
  cases a with
  | notANumber =>
    simp only [UnpackedFloat.abs, UnpackedFloat.pack, unpack_packedNaN]
  | infinity s => exact unpack_packComponents_abs s _ _
  | zero s => exact unpack_packComponents_abs s _ _
  | finite s m e positive =>
    unfold UnpackedFloat.abs UnpackedFloat.pack
    dsimp only
    split
    · exact unpack_packComponents_abs s _ _
    · split <;> exact unpack_packComponents_abs s _ _

theorem parts_pack (a : UnpackedFloat) :
    parts (.ofModel (.pack a)) = unpack binary64 (pack binary64 a) := rfl

@[simp]
theorem parts_abs (x : Float) : parts x.abs = (parts x).abs := by
  have packed : x.abs = .ofModel (.pack (parts x).abs) := rfl
  rw [packed, parts_pack, unpack_pack_abs, ← parts_pack, pack_parts]

/-- An absolute value is at least zero, unless it is not a number. -/
theorem abs_nonneg_or_nan (x : Float) : 0 ≤ x.abs ∨ x.abs.isNaN = true := by
  have zero : parts 0 = .zero .positive := rfl
  have nan : x.abs.isNaN = (parts x.abs).isNaN := rfl
  rw [le_iff_parts, nan, zero, parts_abs]
  cases parts x with
  | notANumber => exact .inr rfl
  | _ => exact .inl rfl

theorem roundWithAccuracy_abs (s t : Sign) (m : Nat) (e : Int) (accuracy : Accuracy) :
    (roundWithAccuracy binary64 s m e accuracy).abs =
      (roundWithAccuracy binary64 t m e accuracy).abs := by
  unfold roundWithAccuracy
  dsimp only
  split <;> rfl

theorem normalize_abs (m : Int) (e : Int) :
    (UnpackedFloat.normalize binary64 (-m) e .positive).abs =
      (UnpackedFloat.normalize binary64 m e .positive).abs := by
  rcases Int.lt_trichotomy m 0 with negative | rfl | positive
  · rw [UnpackedFloat.normalize, UnpackedFloat.normalize, compare_lt_iff_lt.mpr negative,
      compare_gt_iff_gt.mpr (by omega)]
    exact roundWithAccuracy_abs ..
  · rfl
  · rw [UnpackedFloat.normalize, UnpackedFloat.normalize, compare_gt_iff_gt.mpr positive,
      compare_lt_iff_lt.mpr (by omega), Int.neg_neg]
    exact roundWithAccuracy_abs ..

theorem sub_abs_comm (a b : UnpackedFloat) :
    (UnpackedFloat.sub binary64 a b).abs = (UnpackedFloat.sub binary64 b a).abs := by
  rcases a with s | _ | s | ⟨s, m, e, p⟩ <;> rcases b with t | _ | t | ⟨t, n, f, q⟩
  case finite.finite =>
    unfold UnpackedFloat.sub
    dsimp only
    rw [min_comm, ← normalize_abs, Int.neg_sub]
  all_goals first | rfl | (cases s <;> cases t <;> rfl)

theorem abs_sub_comm (x y : Float) : (x - y).abs = (y - x).abs := by
  have packed (x y : Float) :
      x - y = .ofModel (.pack (UnpackedFloat.sub binary64 (parts x) (parts y))) := rfl
  apply eq_of_parts
  rw [parts_abs, parts_abs, packed x, packed y, parts_pack, parts_pack, ← unpack_pack_abs,
    ← unpack_pack_abs, sub_abs_comm]

theorem compare_swap (a b : UnpackedFloat) : b.compare a = (a.compare b).map Ordering.swap := by
  rcases a with s | _ | s | ⟨s, m, e, p⟩ <;> rcases b with t | _ | t | ⟨t, n, f, q⟩
  case finite.finite =>
    cases s <;> cases t <;>
      simp [UnpackedFloat.compare, Ordering.swap_then, Nat.compare_swap, Int.compare_swap]
  all_goals first | rfl | (cases s <;> first | rfl | (cases t <;> rfl))

theorem isNaN_iff_parts : x.isNaN = true ↔ parts x = .notANumber := isNaN_iff

theorem not_lt_of_isNaN (nan : x.isNaN = true) : ¬y < x := by
  rw [lt_iff_parts, UnpackedFloat.lt, isNaN_iff_parts.mp nan]
  cases parts y <;> simp [UnpackedFloat.compare]

theorem not_lt_of_lt (less : x < y) : ¬y < x := by
  rw [lt_iff_parts, UnpackedFloat.lt, beq_iff_eq] at less
  rw [lt_iff_parts, UnpackedFloat.lt, compare_swap, less]
  exact Bool.false_ne_true

theorem compare_eq_none {a b : UnpackedFloat} (unordered : a.compare b = none) :
    a = .notANumber ∨ b = .notANumber := by
  rcases a with (_ | _) | _ | _ | (_ | _) <;> rcases b with (_ | _) | _ | _ | (_ | _) <;>
    first | exact .inl rfl | exact .inr rfl | cases unordered

theorem abs_ne_negativeZero (a : UnpackedFloat) : a.abs ≠ .zero .negative := by
  cases a <;> nofun

/-- Two magnitudes of which neither is the smaller one are the same. -/
theorem abs_eq_of_not_lt (left : ¬x.abs.isNaN = true) (right : ¬y.abs.isNaN = true)
    (notLess : ¬x.abs < y.abs) (notGreater : ¬y.abs < x.abs) : x.abs = y.abs := by
  rw [isNaN_iff_parts] at left right
  rw [lt_iff_parts, UnpackedFloat.lt] at notLess notGreater
  rw [compare_swap (parts x.abs)] at notGreater
  have equal : (parts x.abs).beq (parts y.abs) = true := by
    cases order : (parts x.abs).compare (parts y.abs) with
    | none => exact ((compare_eq_none order).elim left right).elim
    | some o =>
      rw [order] at notLess notGreater
      cases o <;> simp_all [UnpackedFloat.beq]
  obtain ⟨-, -, same | ⟨-, negative⟩ | ⟨negative, -⟩⟩ := (beq_iff_ne_notANumber_and_eq _ _).mp equal
  · exact eq_of_parts same
  · exact (abs_ne_negativeZero _ ((parts_abs y).symm.trans negative)).elim
  · exact (abs_ne_negativeZero _ ((parts_abs x).symm.trans negative)).elim

theorem maximum_cases (x y : Float) : maximum x y = x ∨ maximum x y = y := by
  unfold maximum
  split
  · exact .inr rfl
  · split
    · exact .inr rfl
    · exact .inl rfl

theorem minimum_cases (x y : Float) : minimum x y = x ∨ minimum x y = y := by
  unfold minimum
  split
  · exact .inr rfl
  · split
    · exact .inr rfl
    · exact .inl rfl

theorem maximum_abs_comm (x y : Float) : maximum x.abs y.abs = maximum y.abs x.abs := by
  unfold maximum
  by_cases left : x.abs.isNaN = true <;> by_cases right : y.abs.isNaN = true
  · rw [if_pos left, if_pos right]
    exact eq_of_parts ((isNaN_iff_parts.mp right).trans (isNaN_iff_parts.mp left).symm)
  · rw [if_pos left, if_neg right, if_neg (not_lt_of_isNaN left)]
  · rw [if_neg left, if_pos right, if_neg (not_lt_of_isNaN right)]
  · rw [if_neg left, if_neg right]
    by_cases less : x.abs < y.abs
    · rw [if_pos less, if_neg (not_lt_of_lt less)]
    · by_cases greater : y.abs < x.abs
      · rw [if_neg less, if_pos greater]
      · rw [if_neg less, if_neg greater, abs_eq_of_not_lt left right less greater]

end GSharp.Number
