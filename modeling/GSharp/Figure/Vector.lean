import GSharp.Figure

namespace GSharp

namespace Plane

/-- The relative tolerance of every geometric comparison. -/
def epsilon : Float := 1e-9

/-- A full turn in radians. -/
def fullTurn : Float := 6.283185307179586

/-- Coordinates that differ by at most `epsilon` relative to their magnitude. -/
def approximately (a b : Float) : Bool :=
  (a - b).abs ≤ epsilon * (1 + Number.maximum a.abs b.abs)

end Plane

namespace Point

instance : Add Point := ⟨fun p q => ⟨p.x + q.x, p.y + q.y⟩⟩
instance : Sub Point := ⟨fun p q => ⟨p.x - q.x, p.y - q.y⟩⟩

def scale (p : Point) (k : Float) : Point := ⟨p.x * k, p.y * k⟩

def dot (p q : Point) : Float := Number.fusedMulAdd p.x q.x (p.y * q.y)

/-- The third component of the vector product. -/
def cross (p q : Point) : Float := Number.fusedMulAdd p.x q.y (-(p.y * q.x))

def length (p : Point) : Float := Number.hypot p.x p.y

def distance (p q : Point) : Float := (q - p).length

/-- The angle of the vector from `center` to the point. -/
def angleFrom (p center : Point) : Float :=
  let v := p - center
  Float.atan2 v.y v.x

def near (p q : Point) : Bool :=
  Plane.approximately p.x q.x && Plane.approximately p.y q.y

/-- Vectors with a small vector product relative to their lengths. -/
def isParallel (p q : Point) : Bool :=
  (p.cross q).abs ≤ Plane.epsilon * Number.fusedMulAdd p.length q.length 1

end Point

end GSharp
