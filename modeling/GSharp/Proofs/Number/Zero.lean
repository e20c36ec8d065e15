import GSharp.Proofs.Number.Finite
import GSharp.Proofs.Number.Value

namespace GSharp.Number

open Float.Model (UnpackedFloat)
open Float.Model.Format (binary64)
open Float.Model.UnpackedFloat

variable {x y z : Float}

/-- Zero of either sign. -/
def IsZero (x : Float) : Prop := ∃ s, parts x = .zero s

theorem parts_sub (x y : Float) :
    parts (x - y) = parts (.ofModel (.pack (UnpackedFloat.sub binary64 (parts x) (parts y)))) := rfl

theorem parts_add (x y : Float) :
    parts (x + y) = parts (.ofModel (.pack (UnpackedFloat.add binary64 (parts x) (parts y)))) := rfl

theorem parts_mul (x y : Float) :
    parts (x * y) = parts (.ofModel (.pack (UnpackedFloat.mul binary64 (parts x) (parts y)))) := rfl

theorem toDyadic?_eq_none_iff : toDyadic? x = none ↔ x.isFinite = false := by
  change _ ↔ (parts x).isFinite = false
  rw [toDyadic?, decode?_eq]
  cases parts x <;> simp [UnpackedFloat.isFinite]

theorem exists_toDyadic? (finite : x.isFinite = true) : ∃ value, toDyadic? x = some value := by
  cases exact : toDyadic? x with
  | some value => exact ⟨value, rfl⟩
  | none =>
    rw [toDyadic?_eq_none_iff, finite] at exact
    cases exact

theorem isNaN_of_strict {op : UnpackedFloat → UnpackedFloat → UnpackedFloat}
    (left : ∀ b, op .notANumber b = .notANumber) (right : ∀ a, op a .notANumber = .notANumber)
    (nan : x.isNaN = true ∨ y.isNaN = true) :
    (Float.ofModel (.pack (op (parts x) (parts y)))).isNaN = true := by
  simp only [isNaN_iff_parts] at nan ⊢
  rcases nan with nan | nan <;> rw [nan]
  · rw [left]
    exact parts_pack_notANumber
  · rw [right]
    exact parts_pack_notANumber

theorem isNaN_sub (nan : x.isNaN = true ∨ y.isNaN = true) : (x - y).isNaN = true :=
  isNaN_of_strict (fun _ => rfl) (fun a => by cases a <;> rfl) nan

theorem isNaN_add (nan : x.isNaN = true ∨ y.isNaN = true) : (x + y).isNaN = true :=
  isNaN_of_strict (fun _ => rfl) (fun a => by cases a <;> rfl) nan

theorem isNaN_mul (nan : x.isNaN = true ∨ y.isNaN = true) : (x * y).isNaN = true :=
  isNaN_of_strict (fun _ => rfl) (fun a => by cases a <;> rfl) nan

theorem isNaN_div (nan : x.isNaN = true ∨ y.isNaN = true) : (x / y).isNaN = true :=
  isNaN_of_strict (fun _ => rfl) (fun a => by cases a <;> rfl) nan

theorem not_le_of_isNaN (nan : x.isNaN = true ∨ y.isNaN = true) : ¬x ≤ y := by
  simp only [isNaN_iff_parts] at nan
  rw [le_iff_parts, UnpackedFloat.le]
  rcases nan with nan | nan <;> rw [nan]
  · simp [UnpackedFloat.compare]
  · cases parts x <;> simp [UnpackedFloat.compare]

theorem isInf_iff_parts : x.isInf = true ↔ ∃ s, parts x = .infinity s := by
  change (parts x).isInf = true ↔ _
  cases parts x <;> simp [UnpackedFloat.isInf]

theorem not_isFinite_cases (special : x.isFinite = false) :
    x.isNaN = true ∨ x.isInf = true := by
  change (parts x).isNaN = true ∨ (parts x).isInf = true
  change (parts x).isFinite = false at special
  cases shape : parts x with
  | notANumber => exact .inl rfl
  | infinity s => exact .inr rfl
  | _ => rw [shape] at special; cases special

/-- There are three doubles that are not finite. -/
theorem eq_of_not_isFinite (special : x.isFinite = false) :
    x = 0.0 / 0.0 ∨ x = 1.0 / 0.0 ∨ x = -(1.0 / 0.0) := by
  rcases not_isFinite_cases special with nan | infinite
  · exact .inl (eq_of_parts ((isNaN_iff_parts.mp nan).trans rfl))
  · obtain ⟨s, shape⟩ := isInf_iff_parts.mp infinite
    cases s with
    | positive => exact .inr (.inl (eq_of_parts shape))
    | negative => exact .inr (.inr (eq_of_parts shape))

/-- What is at most some double is a number, and no number is above infinity. -/
theorem le_infinity (ordered : x ≤ y) : x ≤ 1.0 / 0.0 := by
  have top : parts (1.0 / 0.0) = .infinity .positive := rfl
  rw [le_iff_parts, top]
  cases shape : parts x with
  | notANumber => exact absurd ordered (not_le_of_isNaN (.inl (isNaN_iff_parts.mpr shape)))
  | infinity s => cases s <;> rfl
  | zero | finite => rfl

theorem negInfinity_le (ordered : y ≤ x) : -(1.0 / 0.0) ≤ x := by
  have bottom : parts (-(1.0 / 0.0)) = .infinity .negative := rfl
  rw [le_iff_parts, bottom]
  cases shape : parts x with
  | notANumber => exact absurd ordered (not_le_of_isNaN (.inr (isNaN_iff_parts.mpr shape)))
  | infinity s => cases s <;> rfl
  | zero | finite => rfl

theorem not_infinity_lt (x : Float) : ¬1.0 / 0.0 < x := by
  have top : parts (1.0 / 0.0) = .infinity .positive := rfl
  rw [lt_iff_parts, top]
  cases parts x with
  | infinity s => cases s <;> exact Bool.false_ne_true
  | zero | finite | notANumber => exact Bool.false_ne_true

/-- Where the lower one of two numbers is infinite, the higher one is. -/
theorem maximum_of_minimum (top : minimum x y = 1.0 / 0.0) : maximum x y = 1.0 / 0.0 := by
  unfold minimum at top
  unfold maximum
  split at top
  · next nan => rw [if_pos nan, top]
  · next number =>
    rw [if_neg number]
    split at top
    · next less =>
      rw [top] at less
      exact absurd less (not_infinity_lt x)
    · rw [top, if_neg (not_infinity_lt y)]

theorem not_isFinite_of_isNaN (nan : x.isNaN = true) : x.isFinite = false := by
  change (parts x).isFinite = false
  rw [isNaN_iff_parts.mp nan]
  rfl

/-- Packing makes nothing finite. -/
theorem isFinite_of_parts_pack {a : UnpackedFloat}
    (finite : (Float.ofModel (.pack a)).isFinite = true) : a.isFinite = true := by
  change (parts (.ofModel (.pack a))).isFinite = true at finite
  cases a with
  | notANumber => rw [parts_pack_notANumber] at finite; exact finite
  | infinity s => rw [parts_pack_infinity] at finite; exact finite
  | zero | finite => rfl

theorem isFinite_of_add (finite : (x + y).isFinite = true) :
    x.isFinite = true ∧ y.isFinite = true := by
  have result : (UnpackedFloat.add binary64 (parts x) (parts y)).isFinite = true :=
    isFinite_of_parts_pack finite
  change (parts x).isFinite = true ∧ (parts y).isFinite = true
  cases first : parts x <;> cases second : parts y <;> rw [first, second] at result <;>
    first | exact ⟨rfl, rfl⟩ | cases result | skip
  rename_i s t
  cases s <;> cases t <;> cases result

/-- A finite difference is one of finite doubles. -/
theorem isFinite_of_sub (finite : (x - y).isFinite = true) :
    x.isFinite = true ∧ y.isFinite = true := by
  rw [sub_eq_add] at finite
  exact (isFinite_of_add finite).imp_right (isFinite_neg y).symm.trans

theorem isFinite_of_mul (finite : (x * y).isFinite = true) :
    x.isFinite = true ∧ y.isFinite = true := by
  have result : (UnpackedFloat.mul binary64 (parts x) (parts y)).isFinite = true :=
    isFinite_of_parts_pack finite
  change (parts x).isFinite = true ∧ (parts y).isFinite = true
  cases first : parts x <;> cases second : parts y <;> rw [first, second] at result <;>
    first | exact ⟨rfl, rfl⟩ | cases result

theorem isFinite_of_hypot (finite : (hypot x y).isFinite = true) :
    x.isFinite = true ∧ y.isFinite = true := by
  by_contra special
  rw [not_and_or, Bool.not_eq_true, Bool.not_eq_true] at special
  unfold hypot at finite
  split at finite
  · exact absurd finite (by decide)
  · next ordinary =>
    rw [Bool.or_eq_true, not_or] at ordinary
    have nan : x.isNaN = true ∨ y.isNaN = true := special.imp
      (fun left => (not_isFinite_cases left).resolve_right ordinary.1)
      (fun right => (not_isFinite_cases right).resolve_right ordinary.2)
    have sum := not_isFinite_of_isNaN (isNaN_add nan)
    split at finite
    · next left right =>
      rw [← toDyadic?_eq_none_iff, ← toDyadic?_eq_none_iff, left, right] at special
      simp at special
    · rw [sum] at finite
      cases finite

theorem isNaN_hypot (nan : x.isNaN = true ∨ y.isNaN = true) (left : x.isInf = false)
    (right : y.isInf = false) : (hypot x y).isNaN = true := by
  have sum := isNaN_add nan
  have special : toDyadic? x = none ∨ toDyadic? y = none := by
    rw [toDyadic?_eq_none_iff, toDyadic?_eq_none_iff]
    exact nan.imp not_isFinite_of_isNaN not_isFinite_of_isNaN
  unfold hypot
  rw [left, right]
  rcases special with none | none <;> rw [none]
  · exact sum
  · cases toDyadic? x <;> exact sum

theorem sub_self_of_isFinite (finite : x.isFinite = true) : x - x = 0 := by
  apply eq_of_parts
  have none : UnpackedFloat.sub binary64 (parts x) (parts x) = .zero .positive := by
    cases shape : parts x with
    | zero s => cases s <;> rfl
    | finite s m e positive => simp [UnpackedFloat.sub, UnpackedFloat.normalize]
    | _ =>
      change (parts x).isFinite = true at finite
      rw [shape] at finite
      cases finite
  rw [parts_sub, none]
  rfl

theorem isNaN_sub_self (special : x.isFinite = false) : (x - x).isNaN = true := by
  rcases not_isFinite_cases special with nan | infinite
  · exact isNaN_sub (.inl nan)
  · obtain ⟨s, infinite⟩ := isInf_iff_parts.mp infinite
    rw [isNaN_iff_parts, parts_sub, infinite]
    cases s <;> exact parts_pack_notANumber

theorem isInf_sub_self (x : Float) : (x - x).isInf = false := by
  cases finite : x.isFinite with
  | true =>
    rw [sub_self_of_isFinite finite]
    rfl
  | false =>
    have nan : parts (x - x) = .notANumber := isNaN_iff_parts.mp (isNaN_sub_self finite)
    change (parts (x - x)).isInf = false
    rw [nan]
    rfl

theorem isZero_zero : IsZero 0 := ⟨.positive, rfl⟩

theorem IsZero.isFinite (zero : IsZero x) : x.isFinite = true := by
  obtain ⟨s, shape⟩ := zero
  change (parts x).isFinite = true
  rw [shape]
  rfl

theorem IsZero.toDyadic? (zero : IsZero x) : toDyadic? x = some 0 := by
  obtain ⟨s, shape⟩ := zero
  rw [Number.toDyadic?, decode?_eq, shape]
  rfl

theorem IsZero.neg (zero : IsZero x) : IsZero (-x) := by
  obtain ⟨s, shape⟩ := zero
  refine ⟨-s, ?_⟩
  rw [parts_neg, shape]
  rfl

theorem IsZero.add (left : IsZero x) (right : IsZero y) : IsZero (x + y) := by
  obtain ⟨s, first⟩ := left
  obtain ⟨t, second⟩ := right
  rw [IsZero, parts_add, first, second]
  cases s <;> cases t <;> exact ⟨_, parts_pack_zero _⟩

theorem IsZero.mul_left (zero : IsZero x) (finite : y.isFinite = true) : IsZero (x * y) := by
  obtain ⟨s, shape⟩ := zero
  rw [IsZero, parts_mul, shape]
  change (parts y).isFinite = true at finite
  cases second : parts y with
  | zero t => exact ⟨_, parts_pack_zero _⟩
  | finite t n f some => exact ⟨_, parts_pack_zero _⟩
  | _ => rw [second] at finite; cases finite

theorem IsZero.mul_right (finite : x.isFinite = true) (zero : IsZero y) : IsZero (x * y) := by
  obtain ⟨s, shape⟩ := zero
  rw [IsZero, parts_mul, shape]
  change (parts x).isFinite = true at finite
  cases first : parts x with
  | zero t => exact ⟨_, parts_pack_zero _⟩
  | finite t n f some => exact ⟨_, parts_pack_zero _⟩
  | _ => rw [first] at finite; cases finite

/-- Zero times what is not finite is not a number. -/
theorem IsZero.isNaN_mul (zero : IsZero x) (special : y.isFinite = false) :
    (x * y).isNaN = true := by
  rcases not_isFinite_cases special with nan | infinite
  · exact Number.isNaN_mul (.inr nan)
  · obtain ⟨s, shape⟩ := zero
    obtain ⟨t, infinite⟩ := isInf_iff_parts.mp infinite
    rw [isNaN_iff_parts, parts_mul, shape, infinite]
    exact parts_pack_notANumber

theorem IsZero.abs (zero : IsZero x) : x.abs = 0 := by
  obtain ⟨s, shape⟩ := zero
  apply eq_of_parts
  rw [parts_abs, shape]
  rfl

theorem fusedMulAdd_of_not_isFinite (special : x.isFinite = false ∨ y.isFinite = false) :
    fusedMulAdd x y z = x * y + z := by
  rw [← toDyadic?_eq_none_iff, ← toDyadic?_eq_none_iff] at special
  unfold fusedMulAdd
  rcases special with none | none <;> rw [none]
  cases toDyadic? x <;> rfl

theorem not_isFinite_fusedMulAdd (special : y.isFinite = false) :
    (fusedMulAdd x y z).isFinite = false := by
  rw [fusedMulAdd_of_not_isFinite (.inr special), ← Bool.not_eq_true]
  intro finite
  rw [(isFinite_of_mul (isFinite_of_add finite).1).2] at special
  cases special

theorem isNaN_fusedMulAdd (nan : x.isNaN = true ∨ y.isNaN = true ∨ z.isNaN = true) :
    (fusedMulAdd x y z).isNaN = true := by
  rcases nan with nan | nan | nan
  · rw [fusedMulAdd_of_not_isFinite (.inl (not_isFinite_of_isNaN nan))]
    exact isNaN_add (.inl (isNaN_mul (.inl nan)))
  · rw [fusedMulAdd_of_not_isFinite (.inr (not_isFinite_of_isNaN nan))]
    exact isNaN_add (.inl (isNaN_mul (.inr nan)))
  · have sum := isNaN_add (x := x * y) (.inr nan)
    unfold fusedMulAdd
    rw [toDyadic?_eq_none_iff.mpr (not_isFinite_of_isNaN nan)]
    cases toDyadic? x with
    | none => exact sum
    | some _ =>
      cases toDyadic? y with
      | none => exact sum
      | some _ => exact nan

theorem IsZero.fusedMulAdd (left : IsZero x) (finite : y.isFinite = true) (last : IsZero z) :
    IsZero (fusedMulAdd x y z) := by
  obtain ⟨value, exact⟩ := exists_toDyadic? finite
  have none : (0 : Dyadic) * value = 0 := by simp
  unfold Number.fusedMulAdd
  rw [left.toDyadic?, exact, last.toDyadic?]
  simp only [none, and_self, if_true]
  exact (left.mul_left finite).add last

theorem IsZero.fusedMulAdd_right (finite : x.isFinite = true) (right : IsZero y) (last : IsZero z) :
    IsZero (Number.fusedMulAdd x y z) := by
  obtain ⟨value, exact⟩ := exists_toDyadic? finite
  have none : value * (0 : Dyadic) = 0 := by simp
  unfold Number.fusedMulAdd
  rw [exact, right.toDyadic?, last.toDyadic?]
  simp only [none, and_self, if_true]
  exact (mul_right finite right).add last

theorem IsZero.fusedMulAdd_one (left : IsZero x) (finite : y.isFinite = true) :
    Number.fusedMulAdd x y 1 = 1 := by
  obtain ⟨value, exact⟩ := exists_toDyadic? finite
  have none : (0 : Dyadic) * value = 0 := by simp
  have one : Number.toDyadic? 1 = some 1 := rfl
  have some : ¬(1 : Dyadic) = 0 := by decide
  unfold Number.fusedMulAdd
  rw [left.toDyadic?, exact, one]
  simp only [none, some, and_false, if_false]
  rfl

theorem IsZero.isNaN_fusedMulAdd (left : IsZero x) (special : y.isFinite = false) :
    (Number.fusedMulAdd x y z).isNaN = true := by
  rw [fusedMulAdd_of_not_isFinite (.inr special)]
  exact isNaN_add (.inl (left.isNaN_mul special))

end GSharp.Number
