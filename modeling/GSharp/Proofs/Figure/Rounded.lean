import GSharp.Figure.Containment
import GSharp.Proofs.Number.Scaled

namespace GSharp

open Number

variable {p q : Point} {x y : Float} {r : ℝ}

/-- The unit of rounding, and what is lost among the smallest numbers. -/
theorem Number.Close.error (close : Close x r) :
    |value x - r| ≤ 1 / 9007199254740992 * |r| + 2 ^ (-1075 : ℤ) := by
  have unit : (2 : ℝ) ^ (-53 : ℤ) = 1 / 9007199254740992 := by norm_num
  rw [← unit]
  exact close.2

theorem Number.tiny_pos : (0 : ℝ) < 2 ^ (-1075 : ℤ) := by positivity

theorem Number.tiny_le : (2 : ℝ) ^ (-1075 : ℤ) ≤ 1 / 2 ^ 200 := by
  rw [one_div, ← zpow_natCast, ← zpow_neg]
  exact zpow_le_zpow_right₀ one_le_two (by norm_num)

theorem Number.WithinUnit.error (within : WithinUnit x r) :
    |value x - r| ≤ 1 / 2 ^ 52 * r + 1 / 2 ^ 200 := by
  have unit : (2 : ℝ) ^ (-52 : ℤ) = 1 / 2 ^ 52 := by norm_num
  rw [← unit]
  exact within.2.trans (add_le_add_right tiny_le _)

/-- The place of a point on the plane of complex numbers. -/
noncomputable def Point.place (p : Point) : ℂ := ⟨value p.x, value p.y⟩

namespace Plane

/-- The third component of the vector product. -/
def area (z w : ℂ) : ℝ := z.re * w.im - z.im * w.re

theorem area_add_right (z w w' : ℂ) : area z (w + w') = area z w + area z w' := by
  simp [area]
  ring

theorem area_sub_right (z w w' : ℂ) : area z (w - w') = area z w - area z w' := by
  simp [area]
  ring

theorem area_mul_real (z w : ℂ) (r : ℝ) : area z (w * r) = r * area z w := by
  simp [area]
  ring

theorem area_self (z : ℂ) : area z z = 0 := by
  simp [area]
  ring

theorem area_swap (z w : ℂ) : area z w = -area w z := by
  simp [area]
  ring

/-- The scalar product. -/
def inner (z w : ℂ) : ℝ := z.re * w.re + z.im * w.im

theorem inner_self (z : ℂ) : inner z z = ‖z‖ ^ 2 := by
  rw [Complex.sq_norm, Complex.normSq_apply, inner]

theorem abs_mul_re_add_le (z w : ℂ) : |z.re * w.re| + |z.im * w.im| ≤ ‖z‖ * ‖w‖ := by
  rw [Complex.norm_eq_sqrt_sq_add_sq, Complex.norm_eq_sqrt_sq_add_sq,
    ← Real.sqrt_mul (by positivity)]
  apply Real.le_sqrt_of_sq_le
  rw [abs_mul, abs_mul]
  have := sq_nonneg (|z.re| * |w.im| - |z.im| * |w.re|)
  have := sq_abs z.re
  have := sq_abs z.im
  have := sq_abs w.re
  have := sq_abs w.im
  nlinarith

theorem abs_inner_le (z w : ℂ) : |inner z w| ≤ ‖z‖ * ‖w‖ :=
  (abs_add_le _ _).trans (abs_mul_re_add_le z w)

/-- The products of an area are those of a scalar product with the other vector on its side. -/
theorem abs_mul_im_add_le (z w : ℂ) : |z.re * w.im| + |z.im * w.re| ≤ ‖z‖ * ‖w‖ := by
  have turned : ‖(⟨w.im, w.re⟩ : ℂ)‖ = ‖w‖ := by
    rw [Complex.norm_eq_sqrt_sq_add_sq, Complex.norm_eq_sqrt_sq_add_sq, add_comm]
  exact turned ▸ abs_mul_re_add_le z ⟨w.im, w.re⟩

theorem abs_area_le (z w : ℂ) : |area z w| ≤ ‖z‖ * ‖w‖ :=
  (abs_sub _ _).trans (abs_mul_im_add_le z w)

theorem norm_mul_real (z : ℂ) (r : ℝ) : ‖z * r‖ = ‖z‖ * |r| := by
  rw [norm_mul, Complex.norm_real, Real.norm_eq_abs]

/-- Coordinates next to those of a vector make a vector next to it. -/
theorem norm_le_of_abs_le {z w : ℂ} {c t : ℝ} (nonneg : 0 ≤ c) (nonneg' : 0 ≤ t)
    (re : |z.re| ≤ c * |w.re| + t) (im : |z.im| ≤ c * |w.im| + t) : ‖z‖ ≤ c * ‖w‖ + 2 * t := by
  have bound : ‖z‖ ≤ ‖(⟨c * |w.re| + t, c * |w.im| + t⟩ : ℂ)‖ := by
    rw [Complex.norm_eq_sqrt_sq_add_sq, Complex.norm_eq_sqrt_sq_add_sq, ← sq_abs z.re,
      ← sq_abs z.im]
    apply Real.sqrt_le_sqrt
    gcongr
  have scaled : ‖(⟨c * |w.re|, c * |w.im|⟩ : ℂ)‖ = c * ‖w‖ := by
    rw [Complex.norm_eq_sqrt_sq_add_sq, Complex.norm_eq_sqrt_sq_add_sq,
      ← Real.sqrt_sq nonneg, ← Real.sqrt_mul (sq_nonneg c), Real.sqrt_sq nonneg]
    simp only [mul_pow, sq_abs, mul_add]
  have rest : ‖(⟨t, t⟩ : ℂ)‖ ≤ 2 * t := by
    calc ‖(⟨t, t⟩ : ℂ)‖ ≤ |t| + |t| := Complex.norm_le_abs_re_add_abs_im _
      _ = 2 * t := by rw [abs_of_nonneg nonneg']; ring
  have split : (⟨c * |w.re| + t, c * |w.im| + t⟩ : ℂ) = ⟨c * |w.re|, c * |w.im|⟩ + ⟨t, t⟩ := rfl
  calc ‖z‖ ≤ ‖(⟨c * |w.re|, c * |w.im|⟩ : ℂ) + ⟨t, t⟩‖ := split ▸ bound
    _ ≤ c * ‖w‖ + 2 * t := (norm_add_le _ _).trans (add_le_add scaled.le rest)

/-- A product of lengths, within the rounding of both. -/
theorem mul_error {P Q l m : ℝ} (nonneg : 0 ≤ P) (nonneg' : 0 ≤ Q) (small : P ≤ 2 ^ 101)
    (small' : Q ≤ 2 ^ 101) (left : |l - P| ≤ 1 / 2 ^ 52 * P + 1 / 2 ^ 200)
    (right : |m - Q| ≤ 1 / 2 ^ 52 * Q + 1 / 2 ^ 200) :
    |l * m - P * Q| ≤ 1 / 2 ^ 50 * (P * Q) + 1 / 2 ^ 90 := by
  have first : |(l - P) * Q| ≤ (1 / 2 ^ 52 * P + 1 / 2 ^ 200) * Q := by
    rw [abs_mul, abs_of_nonneg nonneg']
    gcongr
  have second : |P * (m - Q)| ≤ P * (1 / 2 ^ 52 * Q + 1 / 2 ^ 200) := by
    rw [abs_mul, abs_of_nonneg nonneg]
    gcongr
  have third : |(l - P) * (m - Q)| ≤
      (1 / 2 ^ 52 * P + 1 / 2 ^ 200) * (1 / 2 ^ 52 * Q + 1 / 2 ^ 200) := by
    rw [abs_mul]
    gcongr
  have total : |l * m - P * Q| ≤ |(l - P) * Q| + |P * (m - Q)| + |(l - P) * (m - Q)| := by
    calc |l * m - P * Q| = |(l - P) * Q + P * (m - Q) + (l - P) * (m - Q)| := by ring_nf
      _ ≤ _ := (abs_add_le _ _).trans (by gcongr; exact abs_add_le _ _)
  have : 0 ≤ P * Q := by positivity
  linarith
end Plane

namespace Number

theorem Close.abs_value_le (close : Close x r) :
    |value x| ≤ 2 * |r| + 1 / 2 ^ 200 := by
  have error := close.error
  have tiny := tiny_le
  have := abs_sub_abs_le_abs_sub (value x) r
  have : 0 ≤ |r| := by positivity
  linarith

theorem Close.le_abs_value (close : Close x r) :
    |r| ≤ 2 * |value x| + 1 / 2 ^ 199 := by
  have error := close.error
  have tiny := tiny_le
  have := abs_le.mp (abs_abs_sub_abs_le (value x) r)
  have : 0 ≤ |r| := by positivity
  linarith

theorem Close.neg (close : Close x r) : Close (-x) (-r) := by
  refine ⟨(isFinite_neg x).trans close.1, ?_⟩
  have turned : -value x - -r = -(value x - r) := by ring
  rw [value_neg, turned, abs_neg, abs_neg]
  exact close.2

theorem far_of_le (small : |r| ≤ 2 ^ 250) : |r| ≤ 2 ^ (1000 : ℤ) :=
  small.trans (by exact_mod_cast pow_le_pow_right₀ one_le_two (by norm_num))

theorem Tame.mul_le (left : Tame x) (right : Tame y) : |value x * value y| ≤ 2 ^ 200 := by
  rw [abs_mul]
  calc |value x| * |value y| ≤ 2 ^ 100 * 2 ^ 100 :=
        mul_le_mul left.2 right.2 (abs_nonneg _) (by positivity)
    _ = 2 ^ 200 := by norm_num

theorem Tame.sub (left : Tame x) (right : Tame y) : Close (x - y) (value x - value y) := by
  refine sub_close left.1 right.1 (far_of_le ?_)
  calc |value x - value y| ≤ |value x| + |value y| := abs_sub _ _
    _ ≤ 2 ^ 100 + 2 ^ 100 := add_le_add left.2 right.2
    _ ≤ 2 ^ 250 := by norm_num

theorem Tame.add (left : Tame x) (right : Tame y) : Close (x + y) (value x + value y) := by
  refine add_close left.1 right.1 (far_of_le ?_)
  calc |value x + value y| ≤ |value x| + |value y| := abs_add_le _ _
    _ ≤ 2 ^ 100 + 2 ^ 100 := add_le_add left.2 right.2
    _ ≤ 2 ^ 250 := by norm_num

theorem Tame.mul (left : Tame x) (right : Tame y) : Close (x * y) (value x * value y) :=
  mul_close left.1 right.1 (far_of_le ((left.mul_le right).trans (by norm_num)))

theorem value_one : value 1 = 1 := by
  have one : parts 1 = .finite .positive (2 ^ 52) (-52) (by decide) := rfl
  rw [value, one, worth_finite]
  norm_num [factor, Float.Model.UnpackedFloat.Sign.apply]

end Number

theorem Plane.value_epsilon : value Plane.epsilon = 4835703278458517 / 2 ^ 82 := by
  have small : parts Plane.epsilon = .finite .positive 4835703278458517 (-82) (by decide) := rfl
  rw [value, small, worth_finite]
  norm_num [factor, Float.Model.UnpackedFloat.Sign.apply]

namespace Point

/-- Both coordinates are far below the largest doubles. -/
def Tame (p : Point) : Prop := Number.Tame p.x ∧ Number.Tame p.y

theorem Tame.of_norm (finite : p.x.isFinite = true ∧ p.y.isFinite = true)
    (small : ‖p.place‖ ≤ 2 ^ 100) : p.Tame :=
  ⟨⟨finite.1, (Complex.abs_re_le_norm p.place).trans small⟩,
    finite.2, (Complex.abs_im_le_norm p.place).trans small⟩

/-- A point whose coordinates were rounded once. -/
theorem norm_sub_le_of_close {z : ℂ} (re : Close p.x z.re) (im : Close p.y z.im) :
    (p.x.isFinite = true ∧ p.y.isFinite = true) ∧
      ‖p.place - z‖ ≤ 1 / 2 ^ 53 * ‖z‖ + 1 / 2 ^ 199 := by
  have unit : (1 / 9007199254740992 : ℝ) = 1 / 2 ^ 53 := by norm_num
  refine ⟨⟨re.1, im.1⟩, ?_⟩
  have error := Plane.norm_le_of_abs_le (z := p.place - z) (w := z) (by positivity)
    Number.tiny_pos.le (unit ▸ re.error) (unit ▸ im.error)
  have := Number.tiny_le
  linarith

theorem sub_place (left : q.Tame) (right : p.Tame) :
    ((q - p).x.isFinite = true ∧ (q - p).y.isFinite = true) ∧
      ‖(q - p).place - (q.place - p.place)‖ ≤
        1 / 2 ^ 53 * ‖q.place - p.place‖ + 1 / 2 ^ 199 :=
  norm_sub_le_of_close (left.1.sub right.1) (left.2.sub right.2)

theorem add_place (left : p.Tame) (right : q.Tame) :
    ((p + q).x.isFinite = true ∧ (p + q).y.isFinite = true) ∧
      ‖(p + q).place - (p.place + q.place)‖ ≤
        1 / 2 ^ 53 * ‖p.place + q.place‖ + 1 / 2 ^ 199 :=
  norm_sub_le_of_close (left.1.add right.1) (left.2.add right.2)

theorem scale_place (tame : p.Tame) (factor : Number.Tame x) :
    ((p.scale x).x.isFinite = true ∧ (p.scale x).y.isFinite = true) ∧
      ‖(p.scale x).place - p.place * value x‖ ≤
        1 / 2 ^ 53 * ‖p.place * value x‖ + 1 / 2 ^ 199 := by
  refine norm_sub_le_of_close ?_ ?_
  · rw [Complex.re_mul_ofReal]
    exact tame.1.mul factor
  · rw [Complex.im_mul_ofReal]
    exact tame.2.mul factor

/-- A product to which another one is added that was rounded before. -/
theorem fused_error {c : Float} {s M : ℝ} (left : Number.Tame x) (right : Number.Tame y)
    (close : Close c s) (bound : |value x * value y| + |s| ≤ M) (far : M ≤ 2 ^ 203) :
    (fusedMulAdd x y c).isFinite = true ∧
      |value (fusedMulAdd x y c) - (value x * value y + s)| ≤ 1 / 2 ^ 51 * M + 1 / 2 ^ 190 := by
  have error := close.error
  have tiny := Number.tiny_le
  have fused (far : |value x * value y + value c| ≤ 2 ^ 250) :
      Close (fusedMulAdd x y c) (value x * value y + value c) :=
    fusedMulAdd_close left.1 right.1 close.1 (far_of_le far)
  generalize value c = w at *
  generalize value x * value y = m at *
  have near : |m + w| ≤ |m| + |s| + |w - s| := by
    calc |m + w| = |m + s + (w - s)| := by ring_nf
      _ ≤ |m + s| + |w - s| := abs_add_le _ _
      _ ≤ |m| + |s| + |w - s| := by gcongr; exact abs_add_le _ _
  have := abs_nonneg m
  have := abs_nonneg s
  have rounded := fused (by linarith)
  have error' := rounded.error
  refine ⟨rounded.1, ?_⟩
  calc |value (fusedMulAdd x y c) - (m + s)| =
        |(value (fusedMulAdd x y c) - (m + w)) + (w - s)| := by ring_nf
    _ ≤ |value (fusedMulAdd x y c) - (m + w)| + |w - s| := abs_add_le _ _
    _ ≤ 1 / 2 ^ 51 * M + 1 / 2 ^ 190 := by linarith

theorem norm_place_le (tame : p.Tame) : ‖p.place‖ ≤ 2 ^ 101 := by
  calc ‖p.place‖ ≤ |value p.x| + |value p.y| := Complex.norm_le_abs_re_add_abs_im p.place
    _ ≤ 2 ^ 100 + 2 ^ 100 := add_le_add tame.1.2 tame.2.2
    _ = 2 ^ 101 := by norm_num

theorem norm_mul_norm_le (left : p.Tame) (right : q.Tame) : ‖p.place‖ * ‖q.place‖ ≤ 2 ^ 203 := by
  calc ‖p.place‖ * ‖q.place‖ ≤ 2 ^ 101 * 2 ^ 101 :=
        mul_le_mul (norm_place_le left) (norm_place_le right) (norm_nonneg _) (by positivity)
    _ ≤ 2 ^ 203 := by norm_num

/-- The vector product, of two tame vectors. -/
theorem cross_error (left : p.Tame) (right : q.Tame) :
    (p.cross q).isFinite = true ∧
      |value (p.cross q) - Plane.area p.place q.place| ≤
        1 / 2 ^ 51 * (‖p.place‖ * ‖q.place‖) + 1 / 2 ^ 190 := by
  have bound := Plane.abs_mul_im_add_le p.place q.place
  rw [← abs_neg (p.place.im * q.place.re)] at bound
  exact fused_error left.1 right.2 (left.2.mul right.1).neg bound (norm_mul_norm_le left right)

/-- The scalar product. -/
theorem dot_error (left : p.Tame) (right : q.Tame) :
    (p.dot q).isFinite = true ∧
      |value (p.dot q) - Plane.inner p.place q.place| ≤
        1 / 2 ^ 51 * (‖p.place‖ * ‖q.place‖) + 1 / 2 ^ 190 :=
  fused_error left.1 right.1 (left.2.mul right.2) (Plane.abs_mul_re_add_le p.place q.place)
    (norm_mul_norm_le left right)

/-- How a length is computed matters for this alone. -/
theorem length_close (tame : p.Tame) : WithinUnit p.length ‖p.place‖ := by
  have norm : √(value p.x ^ 2 + value p.y ^ 2) = ‖p.place‖ :=
    (Complex.norm_eq_sqrt_sq_add_sq p.place).symm
  have limit : (2 : ℝ) ^ 101 ≤ 2 ^ (900 : ℤ) := by
    exact_mod_cast pow_le_pow_right₀ one_le_two (by norm_num)
  have close :=
    hypot_close tame.1.1 tame.2.1 (by rw [norm]; exact (norm_place_le tame).trans limit)
  rwa [norm] at close

/-- The slack of the test for parallel vectors is no less than it is meant to be, but for little,
whichever doubles are taken for the lengths. -/
theorem slack_ge {length length' : Float} (left : p.Tame) (right : q.Tame)
    (long : WithinUnit length ‖p.place‖) (long' : WithinUnit length' ‖q.place‖) :
    (Plane.epsilon * Number.fusedMulAdd length length' 1).isFinite = true ∧
      99 / 10 ^ 11 * (1 + ‖p.place‖ * ‖q.place‖) ≤
        value (Plane.epsilon * Number.fusedMulAdd length length' 1) := by
  have finite := long.1
  have finite' := long'.1
  have product := Plane.mul_error (norm_nonneg _) (norm_nonneg _) (norm_place_le left)
    (norm_place_le right) long.error long'.error
  have size : ‖p.place‖ * ‖q.place‖ ≤ 2 ^ 101 * 2 ^ 101 :=
    mul_le_mul (norm_place_le left) (norm_place_le right) (norm_nonneg _) (by positivity)
  have nonneg : 0 ≤ ‖p.place‖ * ‖q.place‖ := by positivity
  have tiny := Number.tiny_le
  have fused (far : |value length * value length' + value 1| ≤ 2 ^ 250) :
      Close (fusedMulAdd length length' 1) (value length * value length' + value 1) :=
    fusedMulAdd_close finite finite' rfl (far_of_le far)
  rw [value_one] at fused
  generalize value length * value length' = l at product fused
  generalize ‖p.place‖ * ‖q.place‖ = r at *
  obtain ⟨low, high⟩ := abs_le.mp product
  have positive : 0 ≤ l + 1 := by linarith
  have close := fused (by rw [abs_of_nonneg positive]; linarith)
  have sum := close.error
  rw [abs_of_nonneg positive, abs_le] at sum
  have scaled (far : |value Plane.epsilon * value (fusedMulAdd length length' 1)| ≤ 2 ^ 250) :
      Close (Plane.epsilon * fusedMulAdd length length' 1)
        (value Plane.epsilon * value (fusedMulAdd length length' 1)) :=
    mul_close rfl close.1 (far_of_le far)
  generalize value (fusedMulAdd length length' 1) = f at sum scaled
  rw [Plane.value_epsilon] at scaled
  have above : 0 ≤ 4835703278458517 / 2 ^ 82 * f := by
    have : 0 ≤ f := by linarith
    positivity
  have slack := scaled (by rw [abs_of_nonneg above]; linarith)
  refine ⟨slack.1, ?_⟩
  have error := slack.error
  rw [abs_of_nonneg above, abs_le] at error
  linarith

/-- Vectors that span hardly any area are found parallel. -/
theorem isParallel_of_area_le (left : p.Tame) (right : q.Tame)
    (small : |Plane.area p.place q.place| ≤ 9 / 10 ^ 10 * (1 + ‖p.place‖ * ‖q.place‖)) :
    p.isParallel q = true := by
  obtain ⟨finite, error⟩ := cross_error left right
  obtain ⟨finite', slack⟩ := slack_ge left right (length_close left) (length_close right)
  have nonneg : 0 ≤ ‖p.place‖ * ‖q.place‖ := by positivity
  apply decide_eq_true
  rw [le_iff_value ((isFinite_abs _).trans finite) finite', value_abs]
  have := abs_sub_abs_le_abs_sub (value (p.cross q)) (Plane.area p.place q.place)
  linarith

/-- Vectors that are not found parallel span some area. -/
theorem area_gt_of_not_isParallel (left : p.Tame) (right : q.Tame)
    (apart : p.isParallel q = false) :
    9 / 10 ^ 10 * (1 + ‖p.place‖ * ‖q.place‖) < |Plane.area p.place q.place| := by
  by_contra small
  rw [isParallel_of_area_le left right (not_lt.mp small)] at apart
  cases apart

end Point

end GSharp
