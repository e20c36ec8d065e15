import GSharp.Figure.Vector

namespace GSharp

open Plane

/-- The points collinear with `first` and `second`. -/
def onLine (p first second : Point) : Bool := (second - first).isParallel (p - first)

/-- Inside the bounding box, collinear, and projecting to a parameter in `[0, 1]`. A very short
segment holds the points near its first end. -/
def onSegment (p first second : Point) : Bool :=
  let slack := epsilon * (1 + Number.maximum first.length second.length)
  let inBox :=
    p.x ≥ Number.minimum first.x second.x - slack &&
    p.x ≤ Number.maximum first.x second.x + slack &&
    p.y ≥ Number.minimum first.y second.y - slack &&
    p.y ≤ Number.maximum first.y second.y + slack
  let direction := second - first
  let squared := direction.dot direction
  if !inBox then false
  else if squared ≤ epsilon then p.near first
  else
    let t := (p - first).dot direction / squared
    direction.isParallel (p - first) && -epsilon ≤ t && t ≤ 1 + epsilon

/-- Collinear and not behind the origin. -/
def onRay (p origin through : Point) : Bool :=
  let direction := through - origin
  let v := p - origin
  direction.isParallel v &&
    v.dot direction ≥ -epsilon * Number.fusedMulAdd direction.length v.length 1

def Circle.holds (circle : Circle) (p : Point) : Bool :=
  approximately (p.distance circle.center) circle.radius.value

/-- The start angle and the counterclockwise sweep of an arc. The sweep is above zero and at most a
full turn. -/
def Arc.span (arc : Arc) : Float × Float :=
  let start := arc.start.angleFrom arc.center
  let finish := arc.finish.angleFrom arc.center
  let sweep := Number.euclideanRemainder (finish - start) fullTurn
  (start, if sweep ≤ epsilon then fullTurn else sweep)

/-- The direction from the center to the point falls within the sweep. -/
def Arc.faces (arc : Arc) (p : Point) : Bool :=
  let (start, sweep) := arc.span
  let offset := Number.euclideanRemainder (p.angleFrom arc.center - start) fullTurn
  offset ≤ sweep + epsilon || offset ≥ fullTurn - epsilon

def Arc.holds (arc : Arc) (p : Point) : Bool := arc.circle.holds p && arc.faces p

/-- Whether the point lies on the figure. A measure lies nowhere and gives no answer. -/
def Figure.holds? (figure : Figure) (p : Point) : Option Bool :=
  match figure with
  | .point q => some (q.near p)
  | .line first second => some (onLine p first second)
  | .segment first second => some (onSegment p first second)
  | .ray origin through => some (onRay p origin through)
  | .circle c => some (c.holds p)
  | .arc a => some (a.holds p)
  | .measure _ => none

end GSharp
