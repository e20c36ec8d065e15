import GSharp.Fault.Stop
import GSharp.Figure.Containment
import GSharp.Random.Generator
import GSharp.Value.Sequence

namespace GSharp

/-- The generator, the canvas, and the sequence of numbers that was drawn when the library was
created. -/
structure Library where
  generator : Generator
  width : Nat
  height : Nat
  randoms : Sequence

/-- Draws from a library; a draw may fail or crash, and what was drawn stays drawn. -/
abbrev Draw := ExceptT Stop (StateM Library)

namespace Library

/-- The number of figures or numbers in a random sequence, from 2 to 19. -/
def amount (generator : Generator) : Nat × Generator :=
  let drawn := (Generator.below64 18).always (Generator.below_ne_error (Nat.succ_pos 17)) generator
  (drawn.1 + 2, drawn.2)

def fractions (generator : Generator) : Nat → List Float × Generator
  | 0 => ([], generator)
  | n + 1 =>
    let (first, generator) := generator.fraction
    let (rest, generator) := fractions generator n
    (first :: rest, generator)

/-- A library begins by drawing its sequence of numbers. -/
def create (width height : Nat) (seed : UInt64) : Library :=
  let (n, generator) := amount (.ofSeed seed)
  let (numbers, generator) := fractions generator n
  { generator, width, height,
    randoms := .single (.finite (numbers.map .number)) (some .number) }

/-- Runs a step of the generator. -/
def step {α : Type} (draw : Generator → α × Generator) : StateM Library α := do
  let library ← get
  let (value, generator) := draw library.generator
  set { library with generator }
  return value

/-- One of the integers from zero up to a number, of which there must be one. -/
def integer (n : Nat) (positive : 0 < n) : StateM Library Nat :=
  step ((Generator.below32 n).always (Generator.below_ne_error positive))

/-- Draws what the generator may be stopped at. What stops it crashes the run. -/
def draw {α : Type} (draw : Generator.Sampling α) : Draw α := fun library =>
  match draw library.generator with
  | .ok (value, generator) => (.ok value, { library with generator })
  | .error text => (.error (.crashed (some text)), library)

theorem zero_lt_max_one (n : Nat) : 0 < max n 1 := Nat.le_max_right n 1

/-- A whole number along a side of the canvas. A side without any length is drawn on as if it had
one. -/
def coordinate (side : Nat) : StateM Library Nat := integer (max side 1) (zero_lt_max_one side)

def point : StateM Library Point := do
  let library ← get
  let x ← coordinate library.width
  let y ← coordinate library.height
  return ⟨Number.ofNat x, Number.ofNat y⟩

/-- A length below half of the shorter side of the canvas. -/
def measure : StateM Library Measure := do
  let library ← get
  let length ← coordinate (min library.width library.height / 2)
  return .of (Number.ofNat length)

/-- A figure, its parts drawn in order. -/
def figure (kind : FigureKind) : StateM Library Figure :=
  match kind with
  | .point => return .point (← point)
  | .line => return .line (← point) (← point)
  | .segment => return .segment (← point) (← point)
  | .ray => return .ray (← point) (← point)
  | .circle => return .circle ⟨← point, ← measure⟩
  | .arc => return .arc ⟨← point, ← point, ← point, ← measure⟩
  | .measure => return .measure (← measure)

def figures (kind : FigureKind) : Nat → StateM Library (List Figure)
  | 0 => return []
  | n + 1 => do
    let first ← figure kind
    let rest ← figures kind n
    return first :: rest

/-- A sequence of figures of one kind. -/
def sequence (kind : FigureKind) : StateM Library Sequence := do
  let n ← step amount
  let figures ← figures kind n
  return .single (.finite (figures.map .figure)) (some (.figure kind))

/-- The length of the canvas diagonal. -/
def extent (library : Library) : Float :=
  Number.maximum (Number.hypot (Number.ofNat library.width) (Number.ofNat library.height)) 1

/-- A number between two bounds. Bounds that hold no finite stretch are refused; a stretch longer
than any double crashes the generator. -/
def sample (lower upper : Float) (line : Nat) : Draw Float :=
  if !lower.isFinite || !upper.isFinite || lower > upper then
    throw (.failed ⟨.invalidArgument "points" .unboundedFigure, line⟩)
  else draw (Generator.within lower upper)

/-- A point between two parameters of the line through two points; the first one if they are
equal. -/
def along (first second : Point) (lower upper : Float) (line : Nat) : Draw Point := do
  let direction := second - first
  if direction.length == 0 then return first
  let t ← sample lower upper line
  return first + direction.scale t

def onCircle (circle : Circle) (angle : Float) : Point :=
  circle.center + (Point.mk angle.cos angle.sin).scale circle.radius.value

/-- A point on a figure. Unbounded figures are sampled as far as the canvas diagonal reaches, and a
measure has no points. -/
def pointOn (figure : Figure) (line : Nat) : Draw (Option Point) := do
  match figure with
  | .point p => return some p
  | .segment first second => return some (← along first second 0 1 line)
  | .ray origin through =>
    let reach := (← get).extent / origin.distance through
    return some (← along origin through 0 reach line)
  | .line first second =>
    let reach := (← get).extent / first.distance second
    return some (← along first second (-reach) reach line)
  | .circle c =>
    let angle ← draw (Generator.between 0 Plane.fullTurn)
    return some (onCircle c angle)
  | .arc a =>
    let (start, sweep) := a.span
    let angle ← sample 0 sweep line
    return some (onCircle a.circle (start + angle))
  | .measure _ => return none

end Library

end GSharp
