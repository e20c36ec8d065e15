import GSharp.Figure.Intersection
import GSharp.Random.Library

namespace GSharp

/-- The built-in functions. Their names cannot be declared by a program. -/
inductive Builtin where
  | sqrt | sin | cos | exp | log | count | measure
  | point | line | segment | ray | circle | arc | intersect
  | randoms | samples | points
  deriving DecidableEq, Repr

namespace Builtin

def all : List Builtin :=
  [sqrt, sin, cos, exp, log, count, measure, point, line, segment, ray, circle, arc, intersect,
    randoms, samples, points]

def name : Builtin → String
  | sqrt => "sqrt"
  | sin => "sin"
  | cos => "cos"
  | exp => "exp"
  | log => "log"
  | count => "count"
  | measure => "measure"
  | point => "point"
  | line => "line"
  | segment => "segment"
  | ray => "ray"
  | circle => "circle"
  | arc => "arc"
  | intersect => "intersect"
  | randoms => "randoms"
  | samples => "samples"
  | points => "points"

def arity : Builtin → Nat
  | sqrt | sin | cos | exp | count | points => 1
  | log | measure | point | line | segment | ray | circle | intersect => 2
  | arc => 4
  | randoms | samples => 0

def ofName? (name : String) : Option Builtin := all.find? (·.name = name)

/-- The function that makes figures of a kind from their parts. -/
def ofFigureKind : FigureKind → Builtin
  | .point => point
  | .line => line
  | .segment => segment
  | .ray => ray
  | .circle => circle
  | .arc => arc
  | .measure => measure

/-- Refuses a name that a built-in function has. -/
def checkName (name : String) (line : Nat) : Except EvalError Unit :=
  if (ofName? name).isSome then .error ⟨.builtinRedefinition name, line⟩ else .ok ()

section Arguments

variable (builtin : Builtin) (line : Nat)

def refuse (fault : ArgumentFault) : EvalError := ⟨.invalidArgument builtin.name fault, line⟩

def numberOf : Value → Except EvalError Float
  | .number n => .ok n
  | other => .error (builtin.refuse line (.wrongKind .number other.kind))

def pointOf : Value → Except EvalError Point
  | .figure (.point p) => .ok p
  | other => .error (builtin.refuse line (.wrongKind .point other.kind))

def measureOf : Value → Except EvalError Measure
  | .figure (.measure m) => .ok m
  | other => .error (builtin.refuse line (.wrongKind .measure other.kind))

/-- A figure other than a measure. -/
def figureOf : Value → Except EvalError Figure
  | .figure f =>
    if f.isPositional then .ok f
    else .error (builtin.refuse line (.wrongKind .figure (.figure f.kind)))
  | other => .error (builtin.refuse line (.wrongKind .figure other.kind))

def sequenceOf : Value → Except EvalError Sequence
  | .sequence s => .ok s
  | other => .error (builtin.refuse line (.wrongKind .sequence other.kind))

end Arguments

/-- The logarithm of a number to a base; both must be positive, and the base not one. -/
def logarithm (value base : Float) (line : Nat) : Except EvalError Value :=
  if value ≤ 0 || base ≤ 0 || base == 1 then
    .error (log.refuse line (.undefinedLogarithm value base))
  else .ok (.number (value.log / base.log))

/-- The number of elements as a number; undefined for a sequence without end. -/
def countOf (s : Sequence) (line : Nat) : Except EvalError Value :=
  match s.count with
  | .infinite => .ok .undefined
  | .finite n =>
    match Number.ofCount? n with
    | some x => .ok (.number x)
    | none => .error (count.refuse line .tooLong)

/-- The shared points as a sequence; undefined for figures that overlap. -/
def sharedPoints (a b : Figure) (line : Nat) : Except EvalError Value :=
  match a.intersect? b with
  | some (.points shared) => (Sequence.ofList (shared.map .point) line).map .sequence
  | some .coincident | none => .ok .undefined

def twoPoints (builtin : Builtin) (p q : Value) (line : Nat) : Except EvalError (Point × Point) :=
  return (← builtin.pointOf line p, ← builtin.pointOf line q)

/-- The functions that do not depend on chance. -/
def pure? (builtin : Builtin) (arguments : List Value) (line : Nat) :
    Option (Except EvalError Value) :=
  match builtin, arguments with
  | .sqrt, [x] => some <| (builtin.numberOf line x).map (.number ·.sqrt)
  | .sin, [x] => some <| (builtin.numberOf line x).map (.number ·.sin)
  | .cos, [x] => some <| (builtin.numberOf line x).map (.number ·.cos)
  | .exp, [x] => some <| (builtin.numberOf line x).map (.number ·.exp)
  | .log, [x, y] => some do
    let value ← builtin.numberOf line x
    let base ← builtin.numberOf line y
    logarithm value base line
  | .count, [s] => some do countOf (← builtin.sequenceOf line s) line
  | .measure, [p, q] => some do
    let (first, second) ← builtin.twoPoints p q line
    return .measure (.of (first.distance second))
  | .point, [x, y] => some do
    return .point ⟨← builtin.numberOf line x, ← builtin.numberOf line y⟩
  | .line, [p, q] => some do
    let (first, second) ← builtin.twoPoints p q line
    return .figure (.line first second)
  | .segment, [p, q] => some do
    let (first, second) ← builtin.twoPoints p q line
    return .figure (.segment first second)
  | .ray, [p, q] => some do
    let (origin, through) ← builtin.twoPoints p q line
    return .figure (.ray origin through)
  | .circle, [c, r] => some do
    return .figure (.circle ⟨← builtin.pointOf line c, ← builtin.measureOf line r⟩)
  | .arc, [c, s, e, r] => some do
    let center ← builtin.pointOf line c
    let start ← builtin.pointOf line s
    let finish ← builtin.pointOf line e
    return .figure (.arc ⟨center, start, finish, ← builtin.measureOf line r⟩)
  | .intersect, [f, g] => some do
    let first ← builtin.figureOf line f
    let second ← builtin.figureOf line g
    sharedPoints first second line
  | _, _ => none

/-- Lets an error stop a draw. -/
def lift {α : Type} (result : Except EvalError α) : Draw α :=
  match result with
  | .ok value => return value
  | .error error => throw (.failed error)

/-- Applies a function to its arguments. Any other number of them than its arity is an error. -/
def apply (builtin : Builtin) (arguments : List Value) (line : Nat) : Draw Value := do
  match builtin, arguments with
  | .randoms, [] => return .sequence (← get).randoms
  | .samples, [] => return .sequence (← Library.sequence .point)
  | .points, [f] =>
    let figure ← lift (builtin.figureOf line f)
    return (← Library.pointOn figure line).elim .undefined .point
  | _, _ =>
    match builtin.pure? arguments line with
    | some result => lift result
    | none => throw (.failed ⟨.argumentCount builtin.name builtin.arity arguments.length, line⟩)

end Builtin

end GSharp
