import GSharp.Proofs.Figure.Lines

namespace GSharp

open Number Intersection

variable {first second first' second' q v d : Point}

/-- How far along a direction a vector reaches, in lengths of the direction. -/
theorem Point.projection_small (vector : v.Tame) (direction : d.Tame) (near : ‖v.place‖ ≤ 727)
    (long : ¬d.length ≤ Plane.epsilon) :
    (v.dot d / d.dot d).isFinite = true ∧ |value (v.dot d / d.dot d)| ≤ 2 ^ 50 := by
  have computed := length_close direction
  rw [le_iff_value computed.1 rfl, Plane.value_epsilon, not_le] at long
  have length : 9 / 10 ^ 10 ≤ ‖d.place‖ := by
    have := (abs_le.mp computed.error).2
    linarith
  obtain ⟨finite, error⟩ := dot_error vector direction
  obtain ⟨finite', error'⟩ := dot_error direction direction
  rw [Plane.inner_self, ← sq] at error'
  have size := Plane.abs_inner_le v.place d.place
  have product : ‖v.place‖ * ‖d.place‖ ≤ 727 * ‖d.place‖ := by gcongr
  have square : 9 / 10 ^ 10 * ‖d.place‖ ≤ ‖d.place‖ ^ 2 := by
    rw [sq]
    gcongr
  have quotient (divisor : value (d.dot d) ≠ 0)
      (far : |value (v.dot d) / value (d.dot d)| ≤ 2 ^ 250) :
      Close (v.dot d / d.dot d) (value (v.dot d) / value (d.dot d)) :=
    div_close finite finite' divisor (far_of_le far)
  generalize value (d.dot d) = D at *
  generalize value (v.dot d) = N at *
  have above := abs_sub_abs_le_abs_sub N (Plane.inner v.place d.place)
  have divisor : 8 / 10 ^ 10 * ‖d.place‖ ≤ D := by
    have := (abs_le.mp error').1
    linarith
  have some : 0 < D := by linarith
  have ratio : |N / D| ≤ 2 ^ 45 := by
    rw [abs_div, abs_of_pos some, div_le_iff₀ some]
    linarith
  have close := quotient some.ne' (ratio.trans (by norm_num))
  refine ⟨close.1, ?_⟩
  have := close.abs_value_le
  linarith

/-- Nothing is near the negative infinity. -/
theorem Plane.not_sub_negInfinity_le (x : Float) : ¬x - -(1.0 / 0.0) ≤ epsilon := by
  by_cases finite : x.isFinite = true
  · have shape : parts (x - -(1.0 / 0.0)) = .infinity .positive := by
      change (parts x).isFinite = true at finite
      have bottom : parts (-(1.0 / 0.0)) = .infinity .negative := rfl
      rw [parts_sub, bottom]
      generalize parts x = a at finite
      cases a with
      | zero | finite => exact parts_pack_infinity .positive
      | infinity | notANumber => cases finite
    rw [le_iff_parts, shape]
    exact Bool.false_ne_true
  · rcases eq_of_not_isFinite (Bool.not_eq_true _ ▸ finite) with rfl | rfl | rfl <;> decide

namespace Linear

/-- One of two directions is none, or the two are not found parallel. -/
def Transversal (d d' : Point) : Prop :=
  d.length ≤ Plane.epsilon ∨ d'.length ≤ Plane.epsilon ∨ d.isParallel d' = false

/-- The line through two central points carries a linear figure. The figure is the whole of it or
begins or ends at one of the points. -/
structure Carried (linear : Linear) (first second : Point) : Prop where
  origin : linear.origin = first
  direction : linear.direction = second - first
  left : first.Central
  right : second.Central
  lower : linear.lower = 0 ∨ linear.lower = -(1.0 / 0.0)
  upper : linear.upper = 1 ∨ linear.upper = 1.0 / 0.0

variable {l m : Linear}

/-- Two stretches that meet in a point meet somewhere finite. -/
theorem isFinite_of_touching {x y : Float} (lower : l.lower = 0 ∨ l.lower = -(1.0 / 0.0))
    (upper : l.upper = 1 ∨ l.upper = 1.0 / 0.0)
    (inside : ¬maximum (minimum x y) l.lower > minimum (maximum x y) l.upper + Plane.epsilon)
    (short : minimum (maximum x y) l.upper - maximum (minimum x y) l.lower ≤ Plane.epsilon) :
    (maximum (minimum x y) l.lower).isFinite = true := by
  by_contra special
  rcases eq_of_not_isFinite (Bool.not_eq_true _ ▸ special) with nan | top | bottom
  · rw [nan] at short
    exact not_le_of_isNaN (.inl (isNaN_sub (.inr rfl))) short
  · -- The second stretch begins at infinity, so that the first one says where the two end.
    have start : minimum x y = 1.0 / 0.0 := by
      rcases maximum_cases (minimum x y) l.lower with same | same
      · exact same.symm.trans top
      · rcases lower with lower | lower <;> rw [same, lower] at top <;>
          exact absurd (congrArg (0 < ·) top) (by decide)
    rw [top, maximum_of_minimum start] at inside short
    rcases upper with upper | upper <;> rw [upper] at inside short
    · exact inside (by decide)
    · exact absurd short (by decide)
  · rw [bottom] at short
    exact Plane.not_sub_negInfinity_le _ short

/-- Two lines do not touch: taken to the parameter of the other one, neither has an end. -/
theorem overlap_line (first second first' second' : Point) :
    (line first second).overlap (line first' second') = .points [] ∨
      (line first second).overlap (line first' second') = .coincident := by
  have upper : (1.0 / 0.0 : Float).isFinite = false := by decide
  have lower := (isFinite_neg _).trans upper
  have endless {x y : Float} (left : x.isFinite = false) (right : y.isFinite = false) :
      (maximum (minimum x y) (-(1.0 / 0.0))).isFinite = false := by
    rcases maximum_cases (minimum x y) (-(1.0 / 0.0)) with same | same <;> rw [same]
    · rcases minimum_cases x y with own | own <;> rw [own]
      · exact left
      · exact right
    · exact lower
  unfold overlap
  dsimp only
  split
  · exact .inl rfl
  · next inside =>
    split
    · next short =>
      have finite := isFinite_of_touching (l := line first second) (.inr rfl) (.inr rfl) inside short
      cases finite.symm.trans
        (endless (not_isFinite_fusedMulAdd lower) (not_isFinite_fusedMulAdd upper))
    · exact .inr rfl

namespace Carried

/-- The carrier holds a point that the figure holds as an operand. -/
theorem onLine_of_holds (carried : l.Carried first second) (central : q.Central)
    (held : l.holds q = true) : onLine q first second = true := by
  unfold holds isDegenerate at held
  rw [carried.direction, carried.origin] at held
  split at held
  · next short =>
    exact onLine_of_near carried.left carried.right central (of_decide_eq_true short) held
  · exact (Bool.and_eq_true_iff.mp held).1

theorem onLine_origin (carried : l.Carried first second) : onLine l.origin first second = true := by
  rw [carried.origin]
  exact onLine_first carried.left carried.right

theorem onLine_pointAt (carried : l.Carried first second) {t : Float} (finite : t.isFinite = true)
    (small : |value t| ≤ 2 ^ 60) : onLine (l.pointAt t) first second = true := by
  rw [pointAt, carried.origin, carried.direction]
  exact Linear.onLine_pointAt carried.left carried.right finite small

/-- A bound, taken to the parameter of another figure, stays small if it stays finite. -/
theorem bound_small (carried : l.Carried first second) {bound scale shift : Float}
    (own : bound = l.lower ∨ bound = l.upper)
    (scaled : scale.isFinite = true ∧ |value scale| ≤ 2 ^ 50)
    (shifted : shift.isFinite = true ∧ |value shift| ≤ 2 ^ 50)
    (finite : (fusedMulAdd scale bound shift).isFinite = true) :
    |value (fusedMulAdd scale bound shift)| ≤ 2 ^ 60 := by
  have ordinary : bound.isFinite = true := by
    by_contra special
    rw [not_isFinite_fusedMulAdd (Bool.not_eq_true _ ▸ special)] at finite
    cases finite
  have unit : |value bound| ≤ 1 := by
    have none : value 0 = 0 := value_of_isZero isZero_zero
    rcases own with rfl | rfl
    · rcases carried.lower with lower | lower <;> rw [lower] at ordinary ⊢
      · rw [none, abs_zero]
        exact zero_le_one
      · exact absurd ordinary (by decide)
    · rcases carried.upper with upper | upper <;> rw [upper] at ordinary ⊢
      · rw [value_one, abs_one]
      · exact absurd ordinary (by decide)
  have product : |value scale * value bound| ≤ 2 ^ 50 := by
    rw [abs_mul]
    calc |value scale| * |value bound| ≤ 2 ^ 50 * 1 :=
          mul_le_mul scaled.2 unit (abs_nonneg _) (by positivity)
      _ = 2 ^ 50 := mul_one _
  have sum : |value scale * value bound + value shift| ≤ 2 ^ 51 := by
    have := abs_add_le (value scale * value bound) (value shift)
    have := shifted.2
    linarith
  have close := fusedMulAdd_close scaled.1 ordinary shifted.1
    (far_of_le (sum.trans (by norm_num)))
  have := close.abs_value_le
  linarith

/-- Where two parallel figures touch, the first one says where. -/
theorem onLine_of_mem_overlap (carried : l.Carried first second)
    (carried' : m.Carried first' second') (long : ¬l.direction.length ≤ Plane.epsilon)
    (member : q ∈ (l.overlap m).members) : onLine q first second = true := by
  obtain ⟨direction, -, -, -⟩ := carried.left.sub carried.right
  obtain ⟨direction', -, near', -⟩ := carried'.left.sub carried'.right
  obtain ⟨offset, -, near, -⟩ := carried.left.sub carried'.left
  rw [carried.direction] at long
  have shifted := Point.projection_small offset direction near long
  have scaled := Point.projection_small direction' direction near' long
  unfold overlap at member
  dsimp only at member
  rw [carried.origin, carried.direction, carried'.origin, carried'.direction] at member
  generalize (first' - first).dot (second - first) / (second - first).dot (second - first) =
    shift at *
  generalize (second' - first').dot (second - first) / (second - first).dot (second - first) =
    scale at *
  split at member
  · cases member
  · next inside =>
    split at member
    · next short =>
      obtain rfl := List.mem_singleton.mp member
      have finite := isFinite_of_touching carried.lower carried.upper inside short
      refine carried.onLine_pointAt finite ?_
      rcases maximum_cases (minimum (fusedMulAdd scale m.lower shift)
        (fusedMulAdd scale m.upper shift)) l.lower with same | same <;> rw [same] at finite ⊢
      · rcases minimum_cases (fusedMulAdd scale m.lower shift)
          (fusedMulAdd scale m.upper shift) with own | own <;> rw [own] at finite ⊢
        · exact carried'.bound_small (.inl rfl) scaled shifted finite
        · exact carried'.bound_small (.inr rfl) scaled shifted finite
      · rcases carried.lower with lower | lower <;> rw [lower] at finite ⊢
        · rw [value_of_isZero isZero_zero, abs_zero]
          positivity
        · exact absurd finite (by decide)
    · cases member

/-- Two linear figures share points of the first carrier alone, and where they cross or one of them
has no direction, of the second as well. -/
theorem onLine_of_mem_intersect (carried : l.Carried first second)
    (carried' : m.Carried first' second') (member : q ∈ (l.intersect m).members) :
    onLine q first second = true ∧
      (Transversal (second - first) (second' - first') → onLine q first' second' = true) := by
  unfold intersect isDegenerate at member
  split at member
  · obtain ⟨rfl, held⟩ := mem_ite_members member
    exact ⟨carried.onLine_origin, fun _ =>
      carried'.onLine_of_holds (carried.origin ▸ carried.left) held⟩
  · next long =>
    rw [decide_eq_true_iff] at long
    split at member
    · obtain ⟨rfl, held⟩ := mem_ite_members member
      exact ⟨carried.onLine_of_holds (carried'.origin ▸ carried'.left) held, fun _ =>
        carried'.onLine_origin⟩
    · next long' =>
      rw [decide_eq_true_iff] at long'
      split at member
      · next apart =>
        obtain ⟨rfl, -⟩ := mem_ite_members member
        rw [carried.direction, carried'.direction, Bool.not_eq_true'] at apart
        have crossed := onLine_crossing carried.left carried.right carried'.left carried'.right apart
        rw [pointAt, carried.origin, carried.direction, carried'.origin, carried'.direction]
        exact ⟨crossed.1, fun _ => crossed.2⟩
      · next parallel =>
        rw [Bool.not_eq_true', Bool.not_eq_false] at parallel
        split at member
        · cases member
        · refine ⟨carried.onLine_of_mem_overlap carried' long member, fun across => ?_⟩
          rw [carried.direction] at long parallel
          rw [carried'.direction] at long' parallel
          rcases across with short | short | apart
          · exact absurd short long
          · exact absurd short long'
          · rw [parallel] at apart
            cases apart

end Carried

/-- Both lines hold a point that they share: two parallel ones never share just one. -/
theorem onLine_of_mem_intersect (left : first.Central) (right : second.Central)
    (left' : first'.Central) (right' : second'.Central)
    (member : q ∈ ((line first second).intersect (line first' second')).members) :
    onLine q first second = true ∧ onLine q first' second' = true := by
  have carried : (line first second).Carried first second := ⟨rfl, rfl, left, right, .inr rfl, .inr rfl⟩
  have carried' : (line first' second').Carried first' second' :=
    ⟨rfl, rfl, left', right', .inr rfl, .inr rfl⟩
  have shared := carried.onLine_of_mem_intersect carried' member
  refine ⟨shared.1, shared.2 ?_⟩
  by_contra parallel
  rw [Transversal, not_or, not_or, Bool.not_eq_false] at parallel
  obtain ⟨long, long', same⟩ := parallel
  have one : (line first second).isDegenerate = false := decide_eq_false long
  have other : (line first' second').isDegenerate = false := decide_eq_false long'
  have both : (!(line first second).direction.isParallel (line first' second').direction) = false :=
    congrArg not same
  rw [intersect, one, other, both] at member
  simp only [Bool.false_eq_true, if_false] at member
  split at member
  · cases member
  · rcases overlap_line first second first' second' with none | overlap
    · rw [none] at member
      cases member
    · rw [overlap] at member
      cases member

end Linear

end GSharp
