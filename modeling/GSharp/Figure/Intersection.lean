import GSharp.Figure.Containment

namespace GSharp

open Plane

/-- Finitely many shared points, or an overlap along a continuum. -/
inductive Intersection where
  | points (shared : List Point)
  | coincident
  deriving BEq, DecidableEq

namespace Intersection

def filter (keep : Point → Bool) : Intersection → Intersection
  | points shared => points (shared.filter keep)
  | coincident => coincident

/-- Numbers in ascending order with not-a-number last; both zeros are equal. -/
def ascending (a b : Float) : Ordering :=
  if a < b then .lt
  else if b < a then .gt
  else match a.isNaN, b.isNaN with
    | false, true => .lt
    | true, false => .gt
    | _, _ => .eq

def precedes (p q : Point) : Bool := ((ascending p.x q.x).then (ascending p.y q.y)).isLE

/-- Drops each point near the last one kept. -/
def mergeNear : List Point → List Point
  | [] => []
  | first :: rest => go first rest
where
  go (kept : Point) : List Point → List Point
    | [] => [kept]
    | p :: rest => if p.near kept then go kept rest else kept :: go p rest

/-- The ordered form, which does not show which figure came first. -/
def normalized : Intersection → Intersection
  | points shared => points (mergeNear (shared.mergeSort precedes))
  | coincident => coincident

end Intersection

/-- `origin + t * direction` for `t` from `lower` to `upper`. -/
structure Linear where
  origin : Point
  direction : Point
  lower : Float
  upper : Float

namespace Linear

def line (first second : Point) : Linear :=
  ⟨first, second - first, -(1.0 / 0.0), 1.0 / 0.0⟩

def segment (first second : Point) : Linear := ⟨first, second - first, 0, 1⟩

def ray (origin through : Point) : Linear := ⟨origin, through - origin, 0, 1.0 / 0.0⟩

/-- The point at parameter `t`. -/
def pointAt (linear : Linear) (t : Float) : Point := linear.origin + linear.direction.scale t

def admits (linear : Linear) (t : Float) : Bool :=
  t ≥ linear.lower - epsilon && t ≤ linear.upper + epsilon

def isDegenerate (linear : Linear) : Bool := linear.direction.length ≤ epsilon

def holds (linear : Linear) (p : Point) : Bool :=
  if linear.isDegenerate then p.near linear.origin
  else
    let v := p - linear.origin
    linear.direction.isParallel v &&
      linear.admits (v.dot linear.direction / linear.direction.dot linear.direction)

/-- Overlap of two collinear figures: the second one's bounds are mapped to the first one's
parameter, and an overlap without length is a touching point. -/
def overlap (a b : Linear) : Intersection :=
  let offset := b.origin - a.origin
  let squared := a.direction.dot a.direction
  let shift := offset.dot a.direction / squared
  let scale := b.direction.dot a.direction / squared
  let first := Number.fusedMulAdd scale b.lower shift
  let last := Number.fusedMulAdd scale b.upper shift
  let lower := Number.maximum (Number.minimum first last) a.lower
  let upper := Number.minimum (Number.maximum first last) a.upper
  if lower > upper + epsilon then .points []
  else if upper - lower ≤ epsilon then .points [a.pointAt lower]
  else .coincident

/-- The crossing of two figures whose directions differ, by Cramer's rule. -/
def crossing (a b : Linear) : Intersection :=
  let offset := b.origin - a.origin
  let denominator := a.direction.cross b.direction
  let t := offset.cross b.direction / denominator
  let u := offset.cross a.direction / denominator
  .points (if a.admits t && b.admits u then [a.pointAt t] else [])

def intersect (a b : Linear) : Intersection :=
  if a.isDegenerate then .points (if b.holds a.origin then [a.origin] else [])
  else if b.isDegenerate then .points (if a.holds b.origin then [b.origin] else [])
  else if !a.direction.isParallel b.direction then a.crossing b
  else if !a.direction.isParallel (b.origin - a.origin) then .points []
  else a.overlap b

/-- The parameters where the supporting line meets the circle, lower first: the foot of the center,
and half a chord to each side of it. -/
def circleParameters (linear : Linear) (circle : Circle) : List Float :=
  let r := circle.radius.value
  let squared := linear.direction.dot linear.direction
  let foot := (circle.center - linear.origin).dot linear.direction / squared
  let distance := (linear.pointAt foot).distance circle.center
  let halfChordSquared := Number.fusedMulAdd r r (-(distance * distance))
  let tolerance := epsilon * Number.fusedMulAdd r r 1
  if halfChordSquared < -tolerance then []
  else if halfChordSquared ≤ tolerance then [foot]
  else
    let offset := halfChordSquared.sqrt / squared.sqrt
    [foot - offset, foot + offset]

def intersectCircle (linear : Linear) (circle : Circle) : Intersection :=
  if linear.isDegenerate then
    .points (if approximately (linear.origin.distance circle.center) circle.radius.value
      then [linear.origin] else [])
  else .points (((linear.circleParameters circle).filter linear.admits).map linear.pointAt)

end Linear

/-- Equal circles coincide; tangent ones share a point, crossing ones two on the radical line. -/
def Circle.intersect (a b : Circle) : Intersection :=
  let r := a.radius.value
  let s := b.radius.value
  let d := a.center.distance b.center
  let tolerance := epsilon * (1 + r + s)
  if d ≤ tolerance then
    if approximately r s then .coincident else .points []
  else if d > r + s + tolerance || d < (r - s).abs - tolerance then .points []
  else
    let along := (Number.fusedMulAdd r r (-(s * s)) + d * d) / (2 * d)
    let heightSquared := Number.fusedMulAdd r r (-(along * along))
    let unit := (b.center - a.center).scale (1 / d)
    let base := a.center + unit.scale along
    if heightSquared ≤ epsilon * Number.fusedMulAdd r r 1 then .points [base]
    else
      let normal := (Point.mk (-unit.y) unit.x).scale heightSquared.sqrt
      .points [base + normal, base - normal]

/-- The point of a circle at an angle. -/
def Circle.pointAt (circle : Circle) (angle : Float) : Point :=
  circle.center + (Point.mk angle.cos angle.sin).scale circle.radius.value

namespace Arc

/-- The part of the second span, moved back by full turns, that lies in the first: a shared stretch
or a touching angle, relative to the first one's start. -/
def overlapAngles (sweep : Float) : List (Float × Float) → Option (List Float)
  | [] => some []
  | (first, last) :: rest =>
    let lower := Number.maximum first 0
    let upper := Number.minimum last sweep
    if upper - lower > epsilon then none
    else if upper - lower ≥ -epsilon then (overlapAngles sweep rest).map (lower :: ·)
    else overlapAngles sweep rest

/-- Arcs of one circle are compared by angle. -/
def overlap (a b : Arc) : Intersection :=
  let (startA, sweepA) := a.span
  let (startB, sweepB) := b.span
  let delta := Number.euclideanRemainder (startB - startA) fullTurn
  match overlapAngles sweepA
      [(delta, delta + sweepB), (delta - fullTurn, delta + sweepB - fullTurn)] with
  | none => .coincident
  | some angles => .points (angles.map fun angle => a.circle.pointAt (startA + angle))

def intersect (a b : Arc) : Intersection :=
  if a.center.near b.center && approximately a.radius.value b.radius.value then a.overlap b
  else (a.circle.intersect b.circle).filter fun p => a.faces p && b.faces p

end Arc

/-- A figure with a place on the plane, by the way it is intersected. -/
inductive Locus where
  | point (location : Point)
  | linear (linear : Linear)
  | circle (circle : Circle)
  | arc (arc : Arc)

def Figure.locus? : Figure → Option Locus
  | .point p => some (.point p)
  | .line first second => some (.linear (.line first second))
  | .segment first second => some (.linear (.segment first second))
  | .ray origin through => some (.linear (.ray origin through))
  | .circle c => some (.circle c)
  | .arc a => some (.arc a)
  | .measure _ => none

/-- The point itself, if it lies on the figure. -/
def Figure.pointShared (figure : Figure) (p : Point) : Intersection :=
  .points (if figure.holds? p = some true then [p] else [])

/-- What two loci share, for loci that are not points. -/
def Locus.meet : Locus → Locus → Intersection
  | .circle c, .circle d => c.intersect d
  | .circle c, .arc a | .arc a, .circle c => (c.intersect a.circle).filter a.faces
  | .arc a, .arc b => a.intersect b
  | .circle c, .linear l | .linear l, .circle c => l.intersectCircle c
  | .arc a, .linear l | .linear l, .arc a => (l.intersectCircle a.circle).filter a.faces
  | .linear l, .linear m => l.intersect m
  | .point _, _ | _, .point _ => .points []

/-- What two figures share. A measure has no place and gives no answer. -/
def Figure.intersect? (a b : Figure) : Option Intersection :=
  match a.locus?, b.locus? with
  | none, _ | _, none => none
  | some (.point p), some _ => some (b.pointShared p).normalized
  | some _, some (.point q) => some (a.pointShared q).normalized
  | some l, some m => some (l.meet m).normalized

end GSharp
