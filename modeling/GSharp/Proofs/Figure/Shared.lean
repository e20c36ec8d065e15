import GSharp.Proofs.Figure.Carriers

namespace GSharp

open Plane

open Intersection

theorem Plane.approximately_self {x : Float} (finite : x.isFinite = true) :
    approximately x x = true := by
  have size : 0 ≤ Number.maximum x.abs x.abs :=
    Number.nonneg_maximum (Number.nonneg_abs finite) (Number.nonneg_abs finite)
  have one : (0 : Float) ≤ 1 := by decide
  unfold approximately
  rw [Number.sub_self_of_isFinite finite, Number.isZero_zero.abs]
  exact decide_eq_true (Number.nonneg_mul parts_epsilon (Number.nonneg_add one size))

theorem Point.near_self {p : Point} (finite : p.IsFinite) : p.near p = true := by
  rw [near, Plane.approximately_self finite.1, Plane.approximately_self finite.2, Bool.and_self]

variable {q : Point} {found : Intersection}

namespace Linear

/-- The place a linear figure has for a point: its origin if it has no direction, and otherwise a
parameter within its bounds. -/
def Passes (linear : Linear) (q : Point) : Prop :=
  if linear.isDegenerate then q = linear.origin
  else ∃ t, linear.admits t = true ∧ q = linear.pointAt t

theorem passes_of_mem_intersectCircle {linear : Linear} {circle : Circle}
    (member : q ∈ (linear.intersectCircle circle).members) : linear.Passes q := by
  unfold intersectCircle at member
  unfold Passes
  split at member
  · next degenerate =>
    rw [if_pos degenerate]
    exact (mem_ite_members member).1
  · next directed =>
    rw [if_neg directed]
    obtain ⟨t, kept, rfl⟩ := List.mem_map.mp member
    exact ⟨t, (List.mem_filter.mp kept).2, rfl⟩

/-- Without a direction the circle is asked whether it holds the origin. -/
theorem holds_of_mem_intersectCircle {linear : Linear} {circle : Circle}
    (degenerate : linear.isDegenerate = true)
    (member : q ∈ (linear.intersectCircle circle).members) : circle.holds q = true := by
  rw [intersectCircle, if_pos degenerate] at member
  obtain ⟨rfl, near⟩ := mem_ite_members member
  exact near

end Linear

/-- The circle that a circle or an arc runs on. -/
def Locus.circle? : Locus → Option Circle
  | .circle c => some c
  | .arc a => some a.circle
  | _ => none

/-- A linear figure meets an arc where it meets the circle of that arc, if anywhere. -/
theorem Locus.mem_intersectCircle {linear : Linear} {l m : Locus} {circle : Circle}
    (pair : l = .linear linear ∧ m.circle? = some circle ∨
      m = .linear linear ∧ l.circle? = some circle)
    (member : q ∈ (l.meet m).members) : q ∈ (linear.intersectCircle circle).members := by
  rcases pair with ⟨rfl, round⟩ | ⟨rfl, round⟩
  · cases m <;> cases round
    · exact member
    · exact (mem_filter_members member).1
  · cases l <;> cases round
    · exact member
    · exact (mem_filter_members member).1

/-- Arcs that are compared by their angles alone. -/
def Arc.onOneCircle (a b : Arc) : Bool :=
  a.center.near b.center && approximately a.radius.value b.radius.value

/-- An arc keeps the points it faces, but of arcs on one circle only angles are compared. -/
theorem Locus.faces_of_mem_meet {arc : Arc} {l m : Locus} (own : l = .arc arc ∨ m = .arc arc)
    (apart : ∀ a b, l = .arc a → m = .arc b → a.onOneCircle b = false)
    (member : q ∈ (l.meet m).members) : arc.faces q = true := by
  by_cases both : ∃ a b, l = .arc a ∧ m = .arc b
  · obtain ⟨a, b, rfl, rfl⟩ := both
    have different := apart a b rfl rfl
    rw [meet, Arc.intersect, if_neg (by rw [← Arc.onOneCircle, different]; exact nofun)] at member
    have faced := Bool.and_eq_true_iff.mp (mem_filter_members member).2
    rcases own with own | own <;> cases own
    · exact faced.1
    · exact faced.2
  · rcases own with rfl | rfl
    · cases m with
      | point => cases member
      | arc b => exact absurd ⟨arc, b, rfl, rfl⟩ both
      | _ => exact (mem_filter_members member).2
    · cases l with
      | point => cases member
      | arc a => exact absurd ⟨a, arc, rfl, rfl⟩ both
      | _ => exact (mem_filter_members member).2

namespace Figure

variable {a b : Figure} {first second first' second' : Point}

/-- All coordinates are finite. -/
def IsFinite : Figure → Prop
  | .point p => p.IsFinite
  | .line p q | .segment p q | .ray p q => p.IsFinite ∧ q.IsFinite
  | .circle c => c.center.IsFinite ∧ c.radius.value.isFinite = true
  | .arc a => a.center.IsFinite ∧ a.start.IsFinite ∧ a.finish.IsFinite ∧
      a.radius.value.isFinite = true
  | .measure m => m.value.isFinite = true

/-- Loci that are no points are met. -/
theorem exists_mem_meet (left : a.shape? ≠ some .point) (right : b.shape? ≠ some .point)
    (shared : a.intersect? b = some found) (member : q ∈ found.members) :
    ∃ l m, a.locus? = some l ∧ b.locus? = some m ∧ q ∈ (l.meet m).members := by
  unfold shape? at left right
  unfold intersect? at shared
  split at shared
  · cases shared
  · cases shared
  · next point _ => exact absurd (by rw [point]; rfl) left
  · next point => exact absurd (by rw [point]; rfl) right
  · next l m _ _ first second =>
    cases shared
    exact ⟨l, m, first, second, mem_of_mem_normalized member⟩

theorem point_intersect? (p : Point) (b : Figure) :
    (point p).intersect? b = b.locus?.map fun _ => (b.pointShared p).normalized := by
  cases b <;> rfl

/-- What a point shares with a figure is that point, and it lies on the figure. -/
theorem holds?_of_point (finite : a.IsFinite) (point : a.shape? = some .point)
    (shared : a.intersect? b = some found) (member : q ∈ found.members) :
    a.holds? q = some true ∧ b.holds? q = some true := by
  cases a <;> cases point
  rw [point_intersect?] at shared
  obtain ⟨_, -, rfl⟩ := Option.map_eq_some_iff.mp shared
  obtain ⟨rfl, held⟩ := mem_ite_members (mem_of_mem_normalized member)
  exact ⟨congrArg some (Point.near_self finite), held⟩

/-- The circle that a circle or an arc runs on. -/
def circle? (figure : Figure) : Option Circle := figure.locus?.bind Locus.circle?

theorem shape?_of_circle? {figure : Figure} {circle : Circle}
    (round : figure.circle? = some circle) : figure.shape? ≠ some .point := by
  intro point
  cases figure <;> cases point
  cases round

theorem shape?_of_locus?_linear {figure : Figure} {linear : Linear}
    (straight : figure.locus? = some (.linear linear)) : figure.shape? ≠ some .point := by
  rw [shape?, straight]
  exact nofun

/-- Whichever comes first, a linear figure is intersected with the circle that the other runs on. -/
theorem mem_intersectCircle {linear : Linear} {circle : Circle}
    (pair : a.locus? = some (.linear linear) ∧ b.circle? = some circle ∨
      b.locus? = some (.linear linear) ∧ a.circle? = some circle)
    (shared : a.intersect? b = some found) (member : q ∈ found.members) :
    q ∈ (linear.intersectCircle circle).members := by
  have apart : a.shape? ≠ some .point ∧ b.shape? ≠ some .point := by
    rcases pair with ⟨straight, round⟩ | ⟨straight, round⟩
    · exact ⟨shape?_of_locus?_linear straight, shape?_of_circle? round⟩
    · exact ⟨shape?_of_circle? round, shape?_of_locus?_linear straight⟩
  obtain ⟨l, m, first, second, met⟩ := exists_mem_meet apart.1 apart.2 shared member
  rw [circle?, circle?, first, second] at pair
  simp only [Option.some.injEq, Option.bind_some] at pair
  exact Locus.mem_intersectCircle pair met

theorem eq_arc_of_locus? {figure : Figure} {arc : Arc} (curved : figure.locus? = some (.arc arc)) :
    figure = .arc arc := by
  cases figure <;> cases curved
  rfl

theorem faces_of_holds? {arc : Arc} (held : (Figure.arc arc).holds? q = some true) :
    arc.faces q = true := (Bool.and_eq_true_iff.mp (Option.some.inj held)).2

/-- Lines across the part of the plane where coordinates are at most 256. -/
def IsCentralLine : Figure → Prop
  | line first second => first.Central ∧ second.Central
  | _ => False

/-- Both lines hold what they share. -/
theorem holds?_of_lines (left : a.IsCentralLine) (right : b.IsCentralLine)
    (shared : a.intersect? b = some found) (member : q ∈ found.members) :
    a.holds? q = some true ∧ b.holds? q = some true := by
  cases a with
  | line first second =>
    cases b with
    | line first' second' =>
      cases shared
      have held := Linear.onLine_of_mem_intersect left.1 left.2 right.1 right.2
        (mem_of_mem_normalized member)
      exact ⟨congrArg some held.1, congrArg some held.2⟩
    | _ => exact right.elim
  | _ => exact left.elim

/-- A line, a segment or a ray through two points whose coordinates are at most 256. -/
structure RunsThrough (figure : Figure) (first second : Point) : Prop where
  own : figure ∈ through first second
  left : first.Central
  right : second.Central

theorem RunsThrough.carried (runs : a.RunsThrough first second) : ∃ linear : Linear,
    a.locus? = some (.linear linear) ∧ linear.Carried first second := by
  obtain ⟨own, left, right⟩ := runs
  simp only [through, List.mem_cons, List.not_mem_nil, or_false] at own
  rcases own with rfl | rfl | rfl
  · exact ⟨_, rfl, rfl, rfl, left, right, .inr rfl, .inr rfl⟩
  · exact ⟨_, rfl, rfl, rfl, left, right, .inl rfl, .inl rfl⟩
  · exact ⟨_, rfl, rfl, rfl, left, right, .inl rfl, .inr rfl⟩

/-- Linear figures share points of the line that the first is a part of, and where they cross, of
both lines. -/
theorem onLine_of_runsThrough (runs : a.RunsThrough first second)
    (runs' : b.RunsThrough first' second') (shared : a.intersect? b = some found)
    (member : q ∈ found.members) :
    onLine q first second = true ∧ (Linear.Transversal (second - first) (second' - first') →
      onLine q first' second' = true) := by
  obtain ⟨l, straight, carried⟩ := runs.carried
  obtain ⟨m, straight', carried'⟩ := runs'.carried
  obtain ⟨l', m', same, same', met⟩ := exists_mem_meet (shape?_of_locus?_linear straight)
    (shape?_of_locus?_linear straight') shared member
  cases straight.symm.trans same
  cases straight'.symm.trans same'
  exact carried.onLine_of_mem_intersect carried' met

/-- What is certain of a shared point. With a point as one operand it lies on both figures, and so
it does with two lines through points whose coordinates are at most 256. With two other linear
figures through such points it lies on the line that the first is a part of, and on that of the
second as well if one of the two has no direction or they are not found parallel. From a linear
figure and a circle or an arc it comes at a parameter within the bounds of the linear one, whose
origin lies on the circle if it has no direction. And it is faced by every arc, unless two arcs run
on one circle.

More is not certain. A segment or a ray can fail to hold the point that it shares: a short segment
holds only its start, and of two parallel figures that touch the second may be somewhere else. So
can a circle or an arc, with any figure but a point. -/
theorem intersect?_sound (left : a.IsFinite) (right : b.IsFinite)
    (shared : a.intersect? b = some found) (member : q ∈ found.members) :
    (a.shape? = some .point ∨ b.shape? = some .point ∨ a.IsCentralLine ∧ b.IsCentralLine →
        a.holds? q = some true ∧ b.holds? q = some true) ∧
      (∀ first second first' second', a.RunsThrough first second → b.RunsThrough first' second' →
        onLine q first second = true ∧
          (Linear.Transversal (second - first) (second' - first') →
            onLine q first' second' = true)) ∧
      (∀ linear circle,
        a.locus? = some (.linear linear) ∧ b.circle? = some circle ∨
          b.locus? = some (.linear linear) ∧ a.circle? = some circle →
        linear.Passes q ∧ (linear.isDegenerate = true → circle.holds q = true)) ∧
      ((∀ c d, a = .arc c → b = .arc d → c.onOneCircle d = false) →
        ∀ arc, a = .arc arc ∨ b = .arc arc → arc.faces q = true) := by
  have onBoth (point : a.shape? = some .point ∨ b.shape? = some .point) :
      a.holds? q = some true ∧ b.holds? q = some true := by
    by_cases first : a.shape? = some .point
    · exact holds?_of_point left first shared member
    · have second := point.resolve_left first
      rw [intersect?_comm (by rwa [second])] at shared
      exact (holds?_of_point right second shared member).symm
  refine ⟨fun some => ?_, fun _ _ _ _ runs runs' => ?_, fun linear circle pair => ?_,
    fun apart arc own => ?_⟩
  · rcases some with first | second | ⟨first, second⟩
    · exact onBoth (.inl first)
    · exact onBoth (.inr second)
    · exact holds?_of_lines first second shared member
  · exact onLine_of_runsThrough runs runs' shared member
  · have met := mem_intersectCircle pair shared member
    exact ⟨Linear.passes_of_mem_intersectCircle met,
      fun degenerate => Linear.holds_of_mem_intersectCircle degenerate met⟩
  · by_cases point : a.shape? = some .point ∨ b.shape? = some .point
    · have held := onBoth point
      rcases own with rfl | rfl
      · exact faces_of_holds? held.1
      · exact faces_of_holds? held.2
    · rw [not_or] at point
      obtain ⟨l, m, first, second, met⟩ := exists_mem_meet point.1 point.2 shared member
      refine Locus.faces_of_mem_meet ?_ (fun c d outer inner => ?_) met
      · rcases own with rfl | rfl
        · exact .inl (Option.some.inj first.symm)
        · exact .inr (Option.some.inj second.symm)
      · subst outer inner
        exact apart c d (eq_arc_of_locus? first) (eq_arc_of_locus? second)

/-- Half a chord of a circle of radius five, and what it shares with the line through the center and
the end of the chord: taken as a line and as the segment that it is. -/
theorem intersect?_sound_chord :
    let round : Figure := circle ⟨⟨0, 0⟩, ⟨5⟩⟩
    let chord : Figure := segment ⟨0, 3⟩ ⟨8, 3⟩
    let carrier : Figure := line ⟨0, 3⟩ ⟨8, 3⟩
    let spoke : Figure := line ⟨0, 0⟩ ⟨4, 3⟩
    let tip : Point := ⟨4, 3⟩
    (round.intersect? chord = some (.points [tip]) ∧
        (Linear.segment ⟨0, 3⟩ ⟨8, 3⟩).Passes tip) ∧
      (carrier.intersect? spoke = some (.points [tip]) ∧
        carrier.holds? tip = some true ∧ spoke.holds? tip = some true) ∧
      (chord.intersect? spoke = some (.points [tip]) ∧
        onLine tip ⟨0, 3⟩ ⟨8, 3⟩ = true ∧ onLine tip ⟨0, 0⟩ ⟨4, 3⟩ = true) := by
  intro round chord carrier spoke tip
  have curved : round.IsFinite := ⟨⟨rfl, rfl⟩, rfl⟩
  have bounded : chord.IsFinite := ⟨⟨rfl, rfl⟩, rfl, rfl⟩
  have straight : carrier.IsFinite := bounded
  have radial : spoke.IsFinite := ⟨⟨rfl, rfl⟩, rfl, rfl⟩
  have member : tip ∈ (Intersection.points [tip]).members := .head _
  have origin : Point.Central ⟨0, 0⟩ := ⟨by decide, by decide⟩
  have start : Point.Central ⟨0, 3⟩ := ⟨by decide, by decide⟩
  have finish : Point.Central ⟨8, 3⟩ := ⟨by decide, by decide⟩
  have rim : Point.Central ⟨4, 3⟩ := ⟨by decide, by decide⟩
  have onRound : round.intersect? chord = some (.points [tip]) := by decide +kernel
  have onCarrier : carrier.intersect? spoke = some (.points [tip]) := by decide +kernel
  have onChord : chord.intersect? spoke = some (.points [tip]) := by decide +kernel
  have across : Linear.Transversal (Point.mk 8 3 - ⟨0, 3⟩) (Point.mk 4 3 - ⟨0, 0⟩) :=
    .inr (.inr (by decide +kernel))
  refine ⟨⟨onRound, ?_⟩, ⟨onCarrier, ?_⟩, onChord, ?_⟩
  · exact ((intersect?_sound curved bounded onRound member).2.2.1 _ _ (.inr ⟨rfl, rfl⟩)).1
  · exact (intersect?_sound straight radial onCarrier member).1
      (.inr (.inr ⟨⟨start, finish⟩, origin, rim⟩))
  · have carriers := (intersect?_sound bounded radial onChord member).2.1 _ _ _ _
      ⟨.tail _ (.head _), start, finish⟩ ⟨.head _, origin, rim⟩
    exact ⟨carriers.1, carriers.2 across⟩

/-- A formula alone may miss both figures. Of two nested circles, one a hair wider than the other
reaches, the foot of the radical line is taken for a point of contact; a line through the center of
a tiny circle is taken to touch it there; and a tiny segment, to which much is parallel, touches one
that starts well above it. -/
theorem shared_off_figures :
    let inner : Figure := circle ⟨⟨0, 0⟩, ⟨1000⟩⟩
    let outer : Figure := circle ⟨⟨0.000003, 0⟩, ⟨1000.000004⟩⟩
    let foot : Point := ⟨-1333.3333369556074, 0⟩
    let axis : Figure := line ⟨0, 0⟩ ⟨1, 0⟩
    let tiny : Figure := circle ⟨⟨0, 0⟩, ⟨0.00002⟩⟩
    let stub : Figure := segment ⟨0, 0⟩ ⟨0.00000001, 0⟩
    let above : Figure := segment ⟨0.00000001, 0.05⟩ ⟨50, 0.1⟩
    (inner.intersect? outer = some (.points [foot]) ∧
        inner.holds? foot = some false ∧ outer.holds? foot = some false) ∧
      (axis.intersect? tiny = some (.points [⟨0, 0⟩]) ∧ tiny.holds? ⟨0, 0⟩ = some false) ∧
      stub.intersect? above = some (.points [⟨0.00000001, 0⟩]) ∧
        above.holds? ⟨0.00000001, 0⟩ = some false := by
  decide +kernel

end Figure

end GSharp
