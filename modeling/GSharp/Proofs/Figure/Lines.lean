import GSharp.Proofs.Figure.Rounded
import GSharp.Proofs.Figure.OperandOrder

/-!
Two lines across a part of the plane. Where coordinates are at most 256, a shared point is computed
so well that both lines hold it, however flat they cross.
-/
namespace GSharp

open Number Intersection

variable {p q v o d : Point} {t : Float}

/-- The computed point at a parameter, from an origin and a direction. -/
theorem Point.pointAt_error (origin : o.Tame) (small : ‖o.place‖ ≤ 363) (direction : d.Tame)
    (short : ‖d.place‖ ≤ 727) (finite : t.isFinite = true) (near : |value t| ≤ 2 ^ 60) :
    ((o + d.scale t).IsFinite ∧ ‖(o + d.scale t).place‖ ≤ 2 ^ 80) ∧
      ‖(o + d.scale t).place - (o.place + d.place * value t)‖ ≤
        201 / 100 / 2 ^ 53 * (‖d.place‖ * |value t|) + 364 / 2 ^ 53 := by
  have tame : Number.Tame t := ⟨finite, near.trans (by norm_num)⟩
  obtain ⟨exact, error⟩ := Point.scale_place direction tame
  have size : ‖d.place * (value t : ℂ)‖ = ‖d.place‖ * |value t| :=
    Plane.norm_mul_real _ _
  have reach : ‖d.place‖ * |value t| ≤ 727 * 2 ^ 60 :=
    mul_le_mul short near (abs_nonneg _) (by norm_num)
  have nonneg : 0 ≤ ‖d.place‖ * |value t| := by positivity
  rw [size] at error
  have length := norm_sub_norm_le (d.scale t).place (d.place * value t)
  rw [size] at length
  obtain ⟨exact', error'⟩ := Point.add_place origin (Point.Tame.of_norm exact (by linarith))
  have sum := norm_add_le o.place (d.scale t).place
  have total := norm_sub_norm_le (o + d.scale t).place (o.place + (d.scale t).place)
  refine ⟨⟨exact', by linarith⟩, ?_⟩
  calc ‖(o + d.scale t).place - (o.place + d.place * value t)‖ =
        ‖((o + d.scale t).place - (o.place + (d.scale t).place)) +
          ((d.scale t).place - d.place * value t)‖ := by
          congr 1
          ring
    _ ≤ ‖(o + d.scale t).place - (o.place + (d.scale t).place)‖ +
          ‖(d.scale t).place - d.place * value t‖ := norm_add_le _ _
    _ ≤ 201 / 100 / 2 ^ 53 * (‖d.place‖ * |value t|) + 364 / 2 ^ 53 := by linarith

/-- Both coordinates are at most 256. -/
def Point.Central (p : Point) : Prop := p.x.abs ≤ 256 ∧ p.y.abs ≤ 256

theorem Number.sized_of_abs_le {x : Float} (small : x.abs ≤ 256) :
    x.isFinite = true ∧ |value x| ≤ 256 := by
  have limit : parts 256 = .finite .positive (2 ^ 52) (-44) (by decide) := rfl
  have finite : x.isFinite = true := by
    change (parts x).isFinite = true
    rw [le_iff_parts, parts_abs, limit] at small
    cases shape : parts x with
    | zero | finite => rfl
    | infinity s | notANumber => rw [shape] at small; exact absurd small Bool.false_ne_true
  have whole : value 256 = 256 := by
    rw [value, limit, worth_finite]
    norm_num [factor, Float.Model.UnpackedFloat.Sign.apply]
  rw [le_iff_value ((isFinite_abs x).trans finite) rfl, value_abs, whole] at small
  exact ⟨finite, small⟩

namespace Point.Central

theorem isFinite (central : p.Central) : p.IsFinite :=
  ⟨(sized_of_abs_le central.1).1, (sized_of_abs_le central.2).1⟩

theorem norm_le (central : p.Central) : ‖p.place‖ ≤ 363 := by
  have left := (sized_of_abs_le central.1).2
  have right := (sized_of_abs_le central.2).2
  rw [Complex.norm_eq_sqrt_sq_add_sq]
  apply Real.sqrt_le_iff.mpr ⟨by norm_num, ?_⟩
  have := sq_le_sq' (abs_le.mp left).1 (abs_le.mp left).2
  have := sq_le_sq' (abs_le.mp right).1 (abs_le.mp right).2
  change value p.x ^ 2 + value p.y ^ 2 ≤ _
  linarith

theorem tame (central : p.Central) : p.Tame :=
  .of_norm central.isFinite (central.norm_le.trans (by norm_num))

/-- The direction from one point to another. -/
theorem sub (left : p.Central) (right : q.Central) :
    (q - p).Tame ∧ ‖q.place - p.place‖ ≤ 726 ∧ ‖(q - p).place‖ ≤ 727 ∧
      ‖(q - p).place - (q.place - p.place)‖ ≤ 727 / 2 ^ 53 := by
  obtain ⟨finite, error⟩ := sub_place right.tame left.tame
  have apart := norm_sub_le q.place p.place
  have := left.norm_le
  have := right.norm_le
  have length := norm_sub_norm_le (q - p).place (q.place - p.place)
  exact ⟨.of_norm finite (by linarith), by linarith, by linarith, by linarith⟩

end Point.Central

/-- A point that spans little area with a direction is found on the line in that direction. -/
theorem onLine_of_area_le {first second : Point} (left : first.Central) (right : second.Central)
    (finite : q.IsFinite) (reach : ‖q.place‖ ≤ 2 ^ 80)
    (small : |Plane.area (second - first).place (q.place - first.place)| ≤
      8 / 10 ^ 10 * (1 + ‖(second - first).place‖ * ‖q.place - first.place‖)) :
    onLine q first second = true := by
  obtain ⟨tame, -, short, -⟩ := left.sub right
  obtain ⟨exact, error⟩ := Point.sub_place (Point.Tame.of_norm finite (reach.trans (by norm_num)))
    left.tame
  have apart := norm_sub_le q.place first.place
  have := left.norm_le
  have length := norm_sub_norm_le (q - first).place (q.place - first.place)
  have length' := norm_sub_norm_le (q.place - first.place) (q - first).place
  rw [norm_sub_rev (q.place - first.place)] at length'
  refine Point.isParallel_of_area_le tame (.of_norm exact (by linarith)) ?_
  have split : Plane.area (second - first).place (q - first).place =
      Plane.area (second - first).place (q.place - first.place) +
        Plane.area (second - first).place ((q - first).place - (q.place - first.place)) := by
    rw [← Plane.area_add_right, add_sub_cancel]
  have rest := Plane.abs_area_le (second - first).place
    ((q - first).place - (q.place - first.place))
  rw [split]
  refine (abs_add_le _ _).trans ((add_le_add small rest).trans ?_)
  -- What remains is between the lengths of the exact and of the computed offset.
  generalize (q - first).place - (q.place - first.place) = e at *
  have scaled : ‖(second - first).place‖ * ‖e‖ ≤ ‖(second - first).place‖ *
      (1 / 2 ^ 53 * ‖q.place - first.place‖ + 1 / 2 ^ 199) := by gcongr
  have scaled' : ‖(second - first).place‖ * (‖q.place - first.place‖ - ‖e‖) ≤
      ‖(second - first).place‖ * ‖(q - first).place‖ := by
    gcongr
    linarith
  have : 0 ≤ ‖(second - first).place‖ * ‖q.place - first.place‖ := by positivity
  linarith

/-- A rounded quotient nearly solves the equation that it is the solution of. -/
theorem Number.Close.equation_error {N D : ℝ} (close : Close t (N / D)) (some : D ≠ 0) :
    |value t * D - N| ≤ 1 / 2 ^ 53 * |N| + 1 / 2 ^ 200 * |D| := by
  have rounded := close.error
  have tiny := Number.tiny_le
  calc |value t * D - N| = |value t - N / D| * |D| := by
        rw [← abs_mul, sub_mul, div_mul_cancel₀ N some]
    _ ≤ (1 / 2 ^ 53 * |N / D| + 1 / 2 ^ 200) * |D| := by
        gcongr
        linarith
    _ = 1 / 2 ^ 53 * (|N / D| * |D|) + 1 / 2 ^ 200 * |D| := by ring
    _ = 1 / 2 ^ 53 * |N| + 1 / 2 ^ 200 * |D| := by rw [← abs_mul, div_mul_cancel₀ N some]

/-- What is left of an equation whose coefficients are known but for an error. -/
theorem abs_residual_le (N N' D D' s : ℝ) :
    |N' - s * D'| ≤ |N - N'| + |s * D - N| + |s * (D - D')| := by
  calc |N' - s * D'| = |s * (D - D') - (N - N') - (s * D - N)| := by ring_nf
    _ ≤ |s * (D - D')| + |N - N'| + |s * D - N| :=
        (abs_sub _ _).trans (by gcongr; exact abs_sub _ _)
    _ = |N - N'| + |s * D - N| + |s * (D - D')| := by ring

/-- The quotient that is computed nearly solves the equation of the parameter. -/
theorem Point.parameter_error {f d' : Point} (direction : d.Tame) (direction' : d'.Tame)
    (offset : f.Tame) (short : ‖d.place‖ ≤ 727) (short' : ‖d'.place‖ ≤ 727)
    (near : ‖f.place‖ ≤ 727) (apart : d.isParallel d' = false) :
    let t := f.cross d' / d.cross d'
    (t.isFinite = true ∧ |value t| ≤ 2 ^ 60) ∧
      |Plane.area f.place d'.place - value t * Plane.area d.place d'.place| ≤
        ‖d'.place‖ * (501 / 100 / 2 ^ 53 * ‖f.place‖ +
          4 / 2 ^ 53 * (‖d.place‖ * |value t|)) + 1 / 2 ^ 100 := by
  intro t
  have large := Point.area_gt_of_not_isParallel direction direction' apart
  obtain ⟨finite, error⟩ := Point.cross_error direction direction'
  obtain ⟨finite', error'⟩ := Point.cross_error offset direction'
  have size := Plane.abs_area_le f.place d'.place
  have size' := Plane.abs_area_le d.place d'.place
  have product : ‖f.place‖ * ‖d'.place‖ ≤ 727 * 727 :=
    mul_le_mul near short' (norm_nonneg _) (by norm_num)
  have product' : ‖d.place‖ * ‖d'.place‖ ≤ 727 * 727 :=
    mul_le_mul short short' (norm_nonneg _) (by norm_num)
  have nonneg : 0 ≤ ‖f.place‖ * ‖d'.place‖ := by positivity
  have nonneg' : 0 ≤ ‖d.place‖ * ‖d'.place‖ := by positivity
  have quotient (divisor : value (d.cross d') ≠ 0)
      (far : |value (f.cross d') / value (d.cross d')| ≤ 2 ^ 250) :
      Close t (value (f.cross d') / value (d.cross d')) :=
    div_close finite' finite divisor (far_of_le far)
  generalize value (d.cross d') = D at *
  generalize value (f.cross d') = N at *
  generalize Plane.area d.place d'.place = D' at *
  generalize Plane.area f.place d'.place = N' at *
  obtain ⟨low, high⟩ := abs_le.mp ((abs_abs_sub_abs_le D D').trans error)
  have above := abs_sub_abs_le_abs_sub N N'
  have divisor : 8 / 10 ^ 10 ≤ |D| := by linarith
  have some : 0 < |D| := by linarith
  have ratio : |N / D| ≤ 2 ^ 59 := by
    rw [abs_div, div_le_iff₀ some]
    linarith
  have close := quotient (abs_pos.mp some) (ratio.trans (by norm_num))
  have rounded := close.error
  have tiny := Number.tiny_le
  have length := abs_sub_abs_le_abs_sub (value t) (N / D)
  have bound : |value t| ≤ 2 ^ 60 := by linarith
  refine ⟨⟨close.1, bound⟩, ?_⟩
  have exact := close.equation_error (abs_pos.mp some)
  have scaled : |value t * (D - D')| ≤
      |value t| * (1 / 2 ^ 51 * (‖d.place‖ * ‖d'.place‖) + 1 / 2 ^ 190) := by
    rw [abs_mul]
    gcongr
  have total := abs_residual_le N N' D D' (value t)
  linarith

namespace Plane

variable {z w g F W : ℂ} {r : ℝ}

/-- A point next to a parameter's spans little area with the direction. -/
theorem area_along_le (short : ‖z‖ ≤ 727)
    (error : ‖W - z * r‖ ≤ 201 / 100 / 2 ^ 53 * (‖z‖ * |r|) + 364 / 2 ^ 53) :
    |area z W| ≤ 8 / 10 ^ 10 * (1 + ‖z‖ * ‖W‖) := by
  have along : area z W = area z (W - z * r) := by
    simp [area_sub_right, area_mul_real, area_self]
  have length := norm_sub_le W (W - z * r)
  rw [sub_sub_cancel, norm_mul_real] at length
  have close : ‖W - z * r‖ ≤ 3 / 2 ^ 53 * ‖W‖ + 365 / 2 ^ 53 := by
    have := norm_nonneg W
    linarith
  calc |area z W| ≤ ‖z‖ * ‖W - z * r‖ := along ▸ abs_area_le z _
    _ ≤ ‖z‖ * (3 / 2 ^ 53 * ‖W‖ + 365 / 2 ^ 53) := by gcongr
    _ ≤ 8 / 10 ^ 10 * (1 + ‖z‖ * ‖W‖) := by
      have : 0 ≤ ‖z‖ * ‖W‖ := by positivity
      linarith

/-- So it does with the other direction, where the parameter nearly solves the equation. -/
theorem area_across_le (short : ‖w‖ ≤ 727) (near : ‖F‖ ≤ 726) (near' : ‖g‖ ≤ 727)
    (offset : ‖g - F‖ ≤ 727 / 2 ^ 53)
    (error : ‖W - z * r‖ ≤ 201 / 100 / 2 ^ 53 * (‖z‖ * |r|) + 364 / 2 ^ 53)
    (solved : |area g w - r * area z w| ≤
      ‖w‖ * (501 / 100 / 2 ^ 53 * ‖g‖ + 4 / 2 ^ 53 * (‖z‖ * |r|)) + 1 / 2 ^ 100) :
    |area w (W - F)| ≤ 8 / 10 ^ 10 * (1 + ‖w‖ * ‖W - F‖) := by
  have split : area w (W - F) =
      area w (W - z * r) + (area g w - r * area z w) + area w (g - F) := by
    rw [area_sub_right, area_sub_right, area_sub_right, area_mul_real, area_swap w z, area_swap g w]
    ring
  have length : ‖z‖ * |r| ≤ ‖W - F‖ + 726 + ‖W - z * r‖ := by
    calc ‖z‖ * |r| = ‖(W - F) + F - (W - z * r)‖ := by
          rw [← norm_mul_real]
          congr 1
          ring
      _ ≤ ‖W - F‖ + ‖F‖ + ‖W - z * r‖ := (norm_sub_le _ _).trans (by gcongr; exact norm_add_le _ _)
      _ ≤ _ := by gcongr
  have reach : ‖z‖ * |r| ≤ 101 / 100 * ‖W - F‖ + 727 := by
    have := norm_nonneg (W - F)
    linarith
  calc |area w (W - F)| ≤
        |area w (W - z * r)| + |area g w - r * area z w| + |area w (g - F)| := by
        rw [split]
        exact (abs_add_le _ _).trans (by gcongr; exact abs_add_le _ _)
    _ ≤ ‖w‖ * (201 / 100 / 2 ^ 53 * (101 / 100 * ‖W - F‖ + 727) + 364 / 2 ^ 53) +
        (‖w‖ * (501 / 100 / 2 ^ 53 * 727 + 4 / 2 ^ 53 * (101 / 100 * ‖W - F‖ + 727)) +
          1 / 2 ^ 100) + ‖w‖ * (727 / 2 ^ 53) := by
        gcongr
        · refine (abs_area_le _ _).trans ?_
          gcongr
          exact error.trans (by gcongr)
        · exact solved.trans (by gcongr)
        · exact (abs_area_le _ _).trans (by gcongr)
    _ ≤ 8 / 10 ^ 10 * (1 + ‖w‖ * ‖W - F‖) := by
      have : 0 ≤ ‖w‖ * ‖W - F‖ := by positivity
      linarith

end Plane

variable {first second first' second' : Point}

theorem onLine_first (left : first.Central) (right : second.Central) :
    onLine first first second = true := by
  refine onLine_of_area_le left right left.isFinite (left.norm_le.trans (by norm_num)) ?_
  simp [Plane.area]
  norm_num

/-- Coordinates found near each other are. -/
theorem abs_sub_le_of_approximately {x y : Float} (left : x.abs ≤ 256) (right : y.abs ≤ 256)
    (near : Plane.approximately x y = true) : |value x - value y| ≤ 1 / 200 := by
  obtain ⟨finite, small⟩ := sized_of_abs_le left
  obtain ⟨finite', small'⟩ := sized_of_abs_le right
  obtain ⟨larger, most⟩ : (maximum x.abs y.abs).isFinite = true ∧
      |value (maximum x.abs y.abs)| ≤ 256 := by
    rcases maximum_cases x.abs y.abs with largest | largest <;>
      rw [largest, isFinite_abs, value_abs, abs_abs]
    · exact ⟨finite, small⟩
    · exact ⟨finite', small'⟩
  have difference : Close (x - y) (value x - value y) :=
    Tame.sub ⟨finite, small.trans (by norm_num)⟩ ⟨finite', small'.trans (by norm_num)⟩
  have unit : |value Plane.epsilon| ≤ 1 / 10 ^ 8 := by
    rw [Plane.value_epsilon, abs_of_pos] <;> norm_num
  have sum := Tame.add (x := 1) ⟨rfl, by rw [value_one]; norm_num⟩
    ⟨larger, most.trans (by norm_num)⟩
  rw [value_one] at sum
  have total : |value (1 + maximum x.abs y.abs)| ≤ 2 ^ 10 := by
    have := sum.abs_value_le
    have := abs_add_le 1 (value (maximum x.abs y.abs))
    rw [abs_one] at this
    linarith
  have slack := Tame.mul ⟨rfl, unit.trans (by norm_num)⟩ ⟨sum.1, total.trans (by norm_num)⟩
  have bound := (le_iff_value ((isFinite_abs _).trans difference.1) slack.1).mp
    (of_decide_eq_true near)
  have product : |value Plane.epsilon * value (1 + maximum x.abs y.abs)| ≤ 1 / 10 ^ 8 * 2 ^ 10 := by
    rw [abs_mul]
    gcongr
  rw [value_abs] at bound
  calc |value x - value y| ≤ 2 * |value (x - y)| + 1 / 2 ^ 199 := difference.le_abs_value
    _ ≤ 2 * |value (Plane.epsilon * (1 + maximum x.abs y.abs))| + 1 / 2 ^ 199 := by
      have := bound.trans (le_abs_self _)
      linarith
    _ ≤ 1 / 200 := by
      have := slack.abs_value_le
      linarith

/-- A point near the first point of a line of hardly any length is found on that line. -/
theorem onLine_of_near (left : first.Central) (right : second.Central) (central : q.Central)
    (short : (second - first).length ≤ Plane.epsilon) (near : q.near first = true) :
    onLine q first second = true := by
  obtain ⟨direction, -, -, -⟩ := left.sub right
  have computed := Point.length_close direction
  have bound : value (second - first).length ≤ value Plane.epsilon :=
    (le_iff_value computed.1 rfl).mp short
  rw [Plane.value_epsilon] at bound
  have length : ‖(second - first).place‖ ≤ 1 / 10 ^ 8 := by
    have := (abs_le.mp computed.error).1
    linarith
  obtain ⟨near_x, near_y⟩ := Bool.and_eq_true_iff.mp near
  have apart : ‖q.place - first.place‖ ≤ 1 / 100 := by
    have := abs_sub_le_of_approximately central.1 left.1 near_x
    have := abs_sub_le_of_approximately central.2 left.2 near_y
    have sides := Complex.norm_le_abs_re_add_abs_im (q.place - first.place)
    change _ ≤ |value q.x - value first.x| + |value q.y - value first.y| at sides
    linarith
  refine onLine_of_area_le left right central.isFinite (central.norm_le.trans (by norm_num)) ?_
  have : 0 ≤ ‖(second - first).place‖ * ‖q.place - first.place‖ := by positivity
  calc |Plane.area (second - first).place (q.place - first.place)| ≤
        ‖(second - first).place‖ * ‖q.place - first.place‖ := Plane.abs_area_le _ _
    _ ≤ 1 / 10 ^ 8 * (1 / 100) := by gcongr
    _ ≤ 8 / 10 ^ 10 * (1 + ‖(second - first).place‖ * ‖q.place - first.place‖) := by linarith

namespace Linear

/-- A line holds what is computed at a parameter of its own. -/
theorem onLine_pointAt (left : first.Central) (right : second.Central) (finite : t.isFinite = true)
    (small : |value t| ≤ 2 ^ 60) : onLine (first + (second - first).scale t) first second = true := by
  obtain ⟨direction, -, short, -⟩ := left.sub right
  obtain ⟨⟨exact, reach⟩, placed⟩ :=
    Point.pointAt_error left.tame left.norm_le direction short finite small
  rw [← sub_sub] at placed
  exact onLine_of_area_le left right exact reach (Plane.area_along_le short placed)

/-- The parameter of a crossing. -/
theorem onLine_crossing (left : first.Central) (right : second.Central) (left' : first'.Central)
    (right' : second'.Central)
    (apart : (second - first).isParallel (second' - first') = false) :
    let q := first + (second - first).scale
      ((first' - first).cross (second' - first') / (second - first).cross (second' - first'))
    onLine q first second = true ∧ onLine q first' second' = true := by
  obtain ⟨direction, -, short, -⟩ := left.sub right
  obtain ⟨direction', -, short', -⟩ := left'.sub right'
  obtain ⟨offset, near, near', error⟩ := left.sub left'
  obtain ⟨⟨finite, small⟩, solved⟩ :=
    Point.parameter_error direction direction' offset short short' near' apart
  generalize (first' - first).cross (second' - first') /
    (second - first).cross (second' - first') = t at *
  obtain ⟨⟨exact, reach⟩, placed⟩ :=
    Point.pointAt_error left.tame left.norm_le direction short finite small
  intro q
  change ‖q.place - _‖ ≤ _ at placed
  rw [← sub_sub] at placed
  refine ⟨onLine_pointAt left right finite small, onLine_of_area_le left' right' exact reach ?_⟩
  have across := Plane.area_across_le short' near near' error placed solved
  rwa [sub_sub_sub_cancel_right] at across

end Linear

end GSharp
