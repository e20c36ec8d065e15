import GSharp.Proofs.Figure.Degenerate
import GSharp.Proofs.Number.Nonneg

namespace GSharp

theorem Plane.parts_epsilon :
    Number.parts epsilon = .finite .positive 4835703278458517 (-82) (by decide) := rfl

theorem Plane.approximately_comm (a b : Float) : approximately a b = approximately b a := by
  unfold approximately
  rw [Number.abs_sub_comm a b, Number.maximum_abs_comm a b]

/-- Nearness has no direction. -/
theorem Point.near_comm (p q : Point) : p.near q = q.near p := by
  unfold Point.near
  rw [Plane.approximately_comm p.x, Plane.approximately_comm p.y]

/-- The ways of being intersected. -/
inductive Shape where
  | point | linear | circle | arc
  deriving DecidableEq

def Locus.shape : Locus → Shape
  | .point _ => .point
  | .linear _ => .linear
  | .circle _ => .circle
  | .arc _ => .arc

/-- The shape of a figure with a place on the plane. -/
def Figure.shape? (figure : Figure) : Option Shape := figure.locus?.map Locus.shape

namespace Intersection

/-- The same kind of answer, with as many points and each near its counterpart. -/
def Alike : Option Intersection → Option Intersection → Prop
  | none, none => True
  | some .coincident, some .coincident => True
  | some (.points shared), some (.points others) =>
    List.Forall₂ (fun p q => p.near q = true) shared others
  | _, _ => False

/-- The points shared one by one. An overlap shares none this way. -/
def members : Intersection → List Point
  | points shared => shared
  | coincident => []

variable {p q : Point} {found : Intersection}

theorem mem_of_mem_mergeNear_go {kept : Point} {shared : List Point}
    (member : q ∈ mergeNear.go kept shared) : q = kept ∨ q ∈ shared := by
  induction shared generalizing kept with
  | nil => exact .inl (List.mem_singleton.mp member)
  | cons first rest ih =>
    unfold mergeNear.go at member
    split at member
    · exact (ih member).imp_right (List.mem_cons_of_mem first)
    · rcases List.mem_cons.mp member with same | later
      · exact .inl same
      · exact .inr (List.mem_cons.mpr (ih later))

theorem mem_of_mem_mergeNear {shared : List Point} (member : q ∈ mergeNear shared) :
    q ∈ shared := by
  cases shared with
  | nil => cases member
  | cons first rest => exact List.mem_cons.mpr (mem_of_mem_mergeNear_go member)

/-- Putting points in order makes up none. -/
theorem mem_of_mem_normalized (member : q ∈ found.normalized.members) : q ∈ found.members := by
  cases found with
  | coincident => cases member
  | points shared => exact List.mem_mergeSort.mp (mem_of_mem_mergeNear member)

theorem mem_filter_members {keep : Point → Bool} (member : q ∈ (found.filter keep).members) :
    q ∈ found.members ∧ keep q = true := by
  cases found with
  | coincident => cases member
  | points shared => exact List.mem_filter.mp member

theorem mem_ite_members {condition : Prop} [Decidable condition]
    (member : q ∈ (points (if condition then [p] else [])).members) : q = p ∧ condition := by
  by_cases holds : condition
  · rw [if_pos holds] at member
    exact ⟨List.mem_singleton.mp member, holds⟩
  · rw [if_neg holds] at member
    cases member

end Intersection

/-- A figure without a direction is asked for in the same way from both sides. -/
theorem Linear.intersect_comm_of_isDegenerate {l m : Linear} (short : l.isDegenerate = true)
    (long : m.isDegenerate = false) : l.intersect m = m.intersect l := by
  rw [intersect, if_pos short, intersect, long, if_neg Bool.false_ne_true, if_pos short]

namespace Figure

/-- Only a measure has no answer, and it has none on either side. -/
theorem intersect?_eq_none_iff (a b : Figure) :
    a.intersect? b = none ↔ a.shape? = none ∨ b.shape? = none := by
  unfold intersect? shape?
  rcases a.locus? with _ | l <;> rcases b.locus? with _ | m <;> simp
  cases l <;> cases m <;> simp

/-- Figures of different shapes share exactly the same in either order. -/
theorem intersect?_comm {a b : Figure} (different : a.shape? ≠ b.shape?) :
    a.intersect? b = b.intersect? a := by
  unfold intersect?
  unfold shape? at different
  cases left : a.locus? <;> cases right : b.locus? <;> try rfl
  rename_i l m
  rw [left, right] at different
  have apart : l.shape ≠ m.shape := fun same => different (congrArg some same)
  cases l <;> cases m <;> first | rfl | exact absurd rfl apart

theorem pointShared_point (p q : Point) :
    ((point p).pointShared q).normalized = .points (if p.near q then [q] else []) := by
  have held : (point p).pointShared q = .points (if p.near q then [q] else []) := by
    cases near : p.near q <;> simp [pointShared, holds?, near]
  rw [held, Intersection.normalized_ite]

/-- Two points share one of them if they are near, and which one it is hardly matters. -/
theorem points_alike (p q : Point) :
    Intersection.Alike ((point p).intersect? (point q)) ((point q).intersect? (point p)) := by
  have forward : (point p).intersect? (point q) = some (.points (if q.near p then [p] else [])) :=
    congrArg some (pointShared_point q p)
  have backward : (point q).intersect? (point p) = some (.points (if p.near q then [q] else [])) :=
    congrArg some (pointShared_point p q)
  rw [forward, backward, Point.near_comm q p]
  cases near : p.near q with
  | true => exact .cons near .nil
  | false => exact .nil

theorem intersect?_of_linear {a b : Figure} {l m : Linear} (left : a.locus? = some (.linear l))
    (right : b.locus? = some (.linear m)) :
    a.intersect? b = some (l.intersect m).normalized := by
  rw [intersect?, left, right]
  rfl

/-- What order cannot change for a linear figure without a direction: it is taken for its origin,
whichever figure comes first. -/
theorem intersect?_order_of_linear {a b : Figure} {l m : Linear}
    (left : a.locus? = some (.linear l)) (right : b.locus? = some (.linear m)) :
    (l.isDegenerate ≠ m.isDegenerate → a.intersect? b = b.intersect? a) ∧
      (l.isDegenerate = true → m.isDegenerate = true →
        Intersection.Alike (a.intersect? b) (b.intersect? a)) := by
  rw [intersect?_of_linear left right, intersect?_of_linear right left]
  constructor
  · intro different
    rcases Bool.eq_false_or_eq_true l.isDegenerate with short | long <;>
      rcases Bool.eq_false_or_eq_true m.isDegenerate with short' | long'
    · exact absurd (short.trans short'.symm) different
    · rw [Linear.intersect_comm_of_isDegenerate short long']
    · rw [Linear.intersect_comm_of_isDegenerate short' long]
    · exact absurd (long.trans long'.symm) different
  · intro short short'
    have forward : l.intersect m = .points (if l.origin.near m.origin then [l.origin] else []) := by
      rw [Linear.intersect, if_pos short, Linear.holds_of_isDegenerate short']
    have backward :
        m.intersect l = .points (if m.origin.near l.origin then [m.origin] else []) := by
      rw [Linear.intersect, if_pos short', Linear.holds_of_isDegenerate short]
    rw [forward, backward, Intersection.normalized_ite, Intersection.normalized_ite,
      Point.near_comm m.origin]
    cases near : l.origin.near m.origin with
    | true => exact .cons near .nil
    | false => exact .nil

/-- Circles around one center coincide or share nothing. -/
theorem circle_intersect?_comm {center : Point} {r s : Measure} (finite : center.IsFinite)
    (left : 0 ≤ r.value) (right : 0 ≤ s.value) :
    (circle ⟨center, r⟩).intersect? (circle ⟨center, s⟩) =
      (circle ⟨center, s⟩).intersect? (circle ⟨center, r⟩) := by
  have one : (0 : Float) ≤ 1 := by decide
  have none : center.distance center = 0 := by
    rw [Point.distance, Point.sub_self finite, Point.length_zero]
  have concentric {r s : Measure} (left : 0 ≤ r.value) (right : 0 ≤ s.value) :
      (circle ⟨center, r⟩).intersect? (circle ⟨center, s⟩) = some (Intersection.normalized
        (if Plane.approximately r.value s.value then .coincident else .points [])) := by
    have slack := Number.nonneg_mul Plane.parts_epsilon
      (Number.nonneg_add (Number.nonneg_add one left) right)
    change some (Circle.intersect _ _).normalized = _
    unfold Circle.intersect
    rw [none, if_pos slack]
  rw [concentric left right, concentric right left, Plane.approximately_comm]

/-- What the order of two figures cannot change: whether there is an answer, all of it for figures
of different shapes, and for two points all but which of the near ones is given. Of figures of one
shape, a linear one without a direction is met in one way by a linear one that has a direction, and
as a point by another without, and circles around one center are compared by their radii alone. -/
theorem intersect?_order (a b : Figure) :
    (a.intersect? b = none ↔ b.intersect? a = none) ∧
      (a.shape? ≠ b.shape? → a.intersect? b = b.intersect? a) ∧
      (a.shape? = some .point → b.shape? = some .point →
        Intersection.Alike (a.intersect? b) (b.intersect? a)) ∧
      (∀ l m, a.locus? = some (.linear l) → b.locus? = some (.linear m) →
        (l.isDegenerate ≠ m.isDegenerate → a.intersect? b = b.intersect? a) ∧
          (l.isDegenerate = true → m.isDegenerate = true →
            Intersection.Alike (a.intersect? b) (b.intersect? a))) ∧
      (∀ center r s, a = circle ⟨center, r⟩ → b = circle ⟨center, s⟩ → center.IsFinite →
        0 ≤ r.value → 0 ≤ s.value → a.intersect? b = b.intersect? a) := by
  refine ⟨?_, intersect?_comm, fun left right => ?_,
    fun _ _ left right => intersect?_order_of_linear left right, ?_⟩
  · rw [intersect?_eq_none_iff, intersect?_eq_none_iff, or_comm]
  · cases a <;> cases left
    cases b <;> cases right
    exact points_alike ..
  · rintro center r s rfl rfl finite left right
    exact circle_intersect?_comm finite left right

/-- A segment of length two on one that is two thousand million times as long. Measured by its own
length their overlap is one; measured by the long one's it is as good as a touching point. -/
theorem intersect?_order_matters :
    let long : Figure := segment ⟨0, 0⟩ ⟨4000000000, 0⟩
    let short : Figure := segment ⟨1, 0⟩ ⟨3, 0⟩
    long.intersect? short = some (.points [⟨1, 0⟩]) ∧ short.intersect? long = some .coincident ∧
      ¬Intersection.Alike (long.intersect? short) (short.intersect? long) := by
  have touching : (segment ⟨0, 0⟩ ⟨4000000000, 0⟩).intersect? (segment ⟨1, 0⟩ ⟨3, 0⟩) =
      some (.points [⟨1, 0⟩]) := by decide +kernel
  have overlapping : (segment ⟨1, 0⟩ ⟨3, 0⟩).intersect? (segment ⟨0, 0⟩ ⟨4000000000, 0⟩) =
      some .coincident := by decide +kernel
  refine ⟨touching, overlapping, ?_⟩
  rw [touching, overlapping]
  exact id

end Figure

end GSharp
