import GSharp.Builtin
import GSharp.Proofs.Figure.OperandOrder

namespace GSharp

namespace Intersection

/-- An overlap, or no more than so many points. -/
def AtMost (n : Nat) : Intersection → Prop
  | points shared => shared.length ≤ n
  | coincident => True

variable {n : Nat} {found : Intersection}

theorem AtMost.mono {more : Nat} (few : found.AtMost n) (le : n ≤ more) : found.AtMost more := by
  cases found with
  | points shared => exact Nat.le_trans few le
  | coincident => trivial

theorem AtMost.filter (few : found.AtMost n) (keep : Point → Bool) :
    (found.filter keep).AtMost n := by
  cases found with
  | points shared => exact Nat.le_trans (List.length_filter_le keep shared) few
  | coincident => trivial

/-- The given point, where a condition holds. -/
theorem atMost_ite (condition : Prop) [Decidable condition] (p : Point) :
    (points (if condition then [p] else [])).AtMost 1 := by
  split
  · exact Nat.le_refl 1
  · exact Nat.zero_le 1

end Intersection

open Intersection

theorem Linear.overlap_atMost (a b : Linear) : (a.overlap b).AtMost 1 := by
  unfold Linear.overlap
  dsimp only
  split
  · exact Nat.zero_le 1
  · split
    · exact Nat.le_refl 1
    · trivial

theorem Linear.intersect_atMost (a b : Linear) : (a.intersect b).AtMost 1 := by
  unfold Linear.intersect
  split
  · exact atMost_ite _ _
  · split
    · exact atMost_ite _ _
    · split
      · exact atMost_ite _ _
      · split
        · exact Nat.zero_le 1
        · exact a.overlap_atMost b

theorem Linear.length_circleParameters_le (linear : Linear) (circle : Circle) :
    (linear.circleParameters circle).length ≤ 2 := by
  unfold Linear.circleParameters
  dsimp only
  split
  · exact Nat.zero_le 2
  · split
    · exact Nat.le_succ 1
    · exact Nat.le_refl 2

theorem Linear.intersectCircle_atMost (linear : Linear) (circle : Circle) :
    (linear.intersectCircle circle).AtMost 2 := by
  unfold Linear.intersectCircle
  split
  · exact (atMost_ite _ _).mono (by decide)
  · change (List.map _ _).length ≤ 2
    rw [List.length_map]
    exact (List.length_filter_le _ _).trans (linear.length_circleParameters_le circle)

theorem Circle.intersect_atMost (a b : Circle) : (a.intersect b).AtMost 2 := by
  unfold Circle.intersect
  dsimp only
  split
  · split
    · trivial
    · exact Nat.zero_le 2
  · split
    · exact Nat.zero_le 2
    · split
      · exact Nat.le_succ 1
      · exact Nat.le_refl 2

/-- Each span of angles gives at most one angle. -/
theorem Arc.length_overlapAngles_le {sweep : Float} {spans : List (Float × Float)}
    {angles : List Float} (found : overlapAngles sweep spans = some angles) :
    angles.length ≤ spans.length := by
  induction spans generalizing angles with
  | nil =>
    cases found
    exact Nat.le_refl 0
  | cons span rest ih =>
    unfold overlapAngles at found
    dsimp only at found
    split at found
    · cases found
    · split at found
      · obtain ⟨others, later, rfl⟩ := Option.map_eq_some_iff.mp found
        exact Nat.succ_le_succ (ih later)
      · exact Nat.le_succ_of_le (ih found)

theorem Arc.overlap_atMost (a b : Arc) : (a.overlap b).AtMost 2 := by
  unfold Arc.overlap
  dsimp only
  split
  · trivial
  · next found =>
    change (List.map _ _).length ≤ 2
    rw [List.length_map]
    exact length_overlapAngles_le found

theorem Arc.intersect_atMost (a b : Arc) : (a.intersect b).AtMost 2 := by
  unfold Arc.intersect
  split
  · exact a.overlap_atMost b
  · exact (a.circle.intersect_atMost b.circle).filter _

theorem Locus.meet_atMost (l m : Locus) : (l.meet m).AtMost 2 := by
  cases l <;> cases m
  case circle.circle c d => exact c.intersect_atMost d
  case circle.arc c a => exact (c.intersect_atMost a.circle).filter _
  case arc.circle a c => exact (c.intersect_atMost a.circle).filter _
  case arc.arc a b => exact a.intersect_atMost b
  case circle.linear c l => exact l.intersectCircle_atMost c
  case linear.circle l c => exact l.intersectCircle_atMost c
  case arc.linear a l => exact (l.intersectCircle_atMost a.circle).filter _
  case linear.arc l a => exact (l.intersectCircle_atMost a.circle).filter _
  case linear.linear l m => exact (l.intersect_atMost m).mono (by decide)
  all_goals exact Nat.zero_le 2

namespace Intersection

/-- Of two points the later one is not smaller and not near. There are no more than two. -/
def IsOrdered : Intersection → Prop
  | points shared =>
    shared.length ≤ 2 ∧ shared.Pairwise fun p q => precedes p q = true ∧ q.near p = false
  | coincident => True

theorem ascending_swap (a b : Float) : ascending b a = (ascending a b).swap := by
  unfold ascending
  by_cases less : a < b
  · simp only [less, Number.not_lt_of_lt less, if_true, if_false, Ordering.swap]
  · by_cases greater : b < a
    · simp only [less, greater, if_true, if_false, Ordering.swap]
    · simp only [less, greater, if_false]
      cases a.isNaN <;> cases b.isNaN <;> rfl

theorem precedes_total {p q : Point} (later : ¬precedes p q = true) : precedes q p = true := by
  unfold precedes at later ⊢
  rw [ascending_swap p.x, ascending_swap p.y]
  cases horizontal : ascending p.x q.x <;> cases vertical : ascending p.y q.y <;>
    simp_all [Ordering.then, Ordering.isLE, Ordering.swap]

/-- Two points in order are left as they are, unless they are near. -/
theorem mergeNear_ordered {p q : Point} (ordered : precedes p q = true) :
    (points (mergeNear [p, q])).IsOrdered := by
  simp only [mergeNear, mergeNear.go]
  cases near : q.near p with
  | true => exact ⟨Nat.le_succ 1, List.pairwise_singleton _ _⟩
  | false => exact ⟨Nat.le_refl 2, List.pairwise_pair.mpr ⟨ordered, near⟩⟩

theorem AtMost.normalized {found : Intersection} (few : found.AtMost 2) :
    found.normalized.IsOrdered := by
  cases found with
  | coincident => trivial
  | points shared =>
    match shared, few with
    | [], _ => simp [Intersection.normalized, mergeNear, IsOrdered]
    | [p], _ => simp [Intersection.normalized, mergeNear, mergeNear.go, IsOrdered]
    | [p, q], _ =>
      have sorted : [p, q].mergeSort precedes =
          if precedes p q = true then [p, q] else [q, p] := by
        simp [List.mergeSort, List.merge]
      rw [Intersection.normalized, sorted]
      split
      · next ordered => exact mergeNear_ordered ordered
      · next later => exact mergeNear_ordered (precedes_total later)

end Intersection

namespace Figure

theorem intersect?_isOrdered {a b : Figure} {found : Intersection}
    (shared : a.intersect? b = some found) : found.IsOrdered := by
  unfold intersect? at shared
  split at shared
  · cases shared
  · cases shared
  · cases shared
    exact ((atMost_ite _ _).mono (by decide)).normalized
  · cases shared
    exact ((atMost_ite _ _).mono (by decide)).normalized
  · cases shared
    exact (Locus.meet_atMost _ _).normalized

theorem shape?_eq_none_iff (figure : Figure) : figure.shape? = none ↔ figure.kind = .measure := by
  cases figure <;> simp [shape?, locus?, kind]

/-- Points have all one kind, so that they make a sequence. -/
theorem ofList_points (shared : List Point) (line : Nat) :
    ∃ s : Sequence, Sequence.ofList (shared.map .point) line = .ok s ∧
      s.count = .finite shared.length ∧ ∀ n, s.take n = (shared.map Value.point).take n := by
  cases shared with
  | nil => exact ⟨.empty, rfl, rfl, fun n => rfl⟩
  | cons first rest =>
    have alike : ((first :: rest).map Value.point).find?
        (fun v => v.kind ≠ (Value.point first).kind) = none := by
      simp [List.find?_eq_none, Value.point, Value.kind, Figure.kind]
    refine ⟨.single (.finite ((first :: rest).map .point)) (some (Value.point first).kind), ?_, ?_,
      fun n => rfl⟩
    · simp only [Sequence.ofList, List.map_cons] at alike ⊢
      rw [alike]
    · simp [Sequence.count, Segment.count]

/-- Two figures have no intersection only if one of them is a measure. Otherwise they overlap or
share at most two points, in order and told apart, and the built-in function gives these as a
sequence. -/
theorem intersect?_few (a b : Figure) :
    (a.intersect? b = none ↔ a.kind = .measure ∨ b.kind = .measure) ∧
      (∀ found, a.intersect? b = some found → found.IsOrdered) ∧
      (a.isPositional = true → b.isPositional = true → ∀ line library,
        ∃ value, (Builtin.apply .intersect [.figure a, .figure b] line).run library =
            (.ok value, library) ∧
          (value = .undefined ∨ ∃ (s : Sequence) (shared : List Point),
            value = .sequence s ∧ shared.length ≤ 2 ∧ s.count = .finite shared.length ∧
            ∀ n, s.take n = (shared.map Value.point).take n)) := by
  refine ⟨?_, fun found => intersect?_isOrdered, fun left right line library => ?_⟩
  · rw [intersect?_eq_none_iff, shape?_eq_none_iff, shape?_eq_none_iff]
  · have applied : Builtin.apply .intersect [.figure a, .figure b] line =
        Builtin.lift (Builtin.sharedPoints a b line) := by
      simp [Builtin.apply, Builtin.pure?, Builtin.figureOf, left, right]
      rfl
    have positional {figure : Figure} (placed : figure.isPositional = true) :
        figure.kind ≠ .measure := by
      cases figure <;> simp_all [Figure.isPositional, Figure.kind]
    rw [applied, Builtin.sharedPoints]
    cases meeting : a.intersect? b with
    | none =>
      rw [intersect?_eq_none_iff, shape?_eq_none_iff, shape?_eq_none_iff] at meeting
      exact (meeting.elim (positional left) (positional right)).elim
    | some found =>
      have ordered := intersect?_isOrdered meeting
      cases found with
      | coincident => exact ⟨.undefined, rfl, .inl rfl⟩
      | points shared =>
        obtain ⟨s, made, count, elements⟩ := ofList_points shared line
        refine ⟨.sequence s, ?_, .inr ⟨s, shared, rfl, ordered.1, count, elements⟩⟩
        simp only [made]
        rfl

end Figure

end GSharp
