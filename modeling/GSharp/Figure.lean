import GSharp.Number.Text

namespace GSharp

inductive FigureKind where
  | point | line | segment | ray | circle | arc | measure
  deriving DecidableEq, Repr

def FigureKind.text : FigureKind → String
  | .point => "point"
  | .line => "line"
  | .segment => "segment"
  | .ray => "ray"
  | .circle => "circle"
  | .arc => "arc"
  | .measure => "measure"

/-- A location on the plane, also used as a vector. -/
structure Point where
  x : Float
  y : Float
  deriving BEq, DecidableEq, Inhabited

/-- A length. `Measure.of` folds a negative one to its magnitude. -/
structure Measure where
  value : Float
  deriving BEq, DecidableEq, Inhabited

def Measure.of (x : Float) : Measure := ⟨x.abs⟩

structure Circle where
  center : Point
  radius : Measure
  deriving BEq, DecidableEq, Inhabited

/-- The part of a circle met counterclockwise from the ray through `start` to the ray through
`finish`; the whole circle when both rays point the same way. -/
structure Arc where
  center : Point
  start : Point
  finish : Point
  radius : Measure
  deriving BEq, DecidableEq, Inhabited

/-- The circle that an arc is a part of. -/
def Arc.circle (arc : Arc) : Circle := ⟨arc.center, arc.radius⟩

/-- A line passes through both points, a segment ends at them, and a ray leaves the first one
toward the second. -/
inductive Figure where
  | point (location : Point)
  | line (first second : Point)
  | segment (first second : Point)
  | ray (origin through : Point)
  | circle (circle : Circle)
  | arc (arc : Arc)
  | measure (length : Measure)
  deriving BEq, DecidableEq, Inhabited

def Figure.kind : Figure → FigureKind
  | .point _ => .point
  | .line _ _ => .line
  | .segment _ _ => .segment
  | .ray _ _ => .ray
  | .circle _ => .circle
  | .arc _ => .arc
  | .measure _ => .measure

/-- A figure with a place on the plane. A measure has none. -/
def Figure.isPositional : Figure → Bool
  | .measure _ => false
  | _ => true

/-- A name followed by its parts in parentheses. -/
def callText (name : String) (parts : List String) : String :=
  name ++ "(" ++ ", ".intercalate parts ++ ")"

def Point.text (p : Point) : String := callText "point" [Number.text p.x, Number.text p.y]

def Measure.text (m : Measure) : String := callText "measure" [Number.text m.value]

def Figure.text : Figure → String
  | .point p => p.text
  | .line p q => callText "line" [p.text, q.text]
  | .segment p q => callText "segment" [p.text, q.text]
  | .ray p q => callText "ray" [p.text, q.text]
  | .circle c => callText "circle" [c.center.text, c.radius.text]
  | .arc a => callText "arc" [a.center.text, a.start.text, a.finish.text, a.radius.text]
  | .measure m => m.text

end GSharp
