import GSharp.Number.Count
import GSharp.Value

namespace GSharp

/-- How many elements there are. Finite counts stop at `Count.limit`. -/
inductive Count where
  | finite (n : Nat)
  | infinite
  deriving DecidableEq, Repr

namespace Count

/-- The greatest finite count. -/
def limit : Nat := 2 ^ 64 - 1

/-- The sum of two counts; nothing exceeds the limit but the infinite. -/
def plus : Count → Count → Count
  | finite a, finite b => finite (min (a + b) limit)
  | _, _ => infinite

/-- Finite counts by size, the infinite one last. -/
def order : Count → Count → Ordering
  | finite a, finite b => compare a b
  | finite _, infinite => .lt
  | infinite, finite _ => .gt
  | infinite, infinite => .eq

end Count

/-- The number of elements in a segment. A range too long for a safe count has the limit. -/
def Segment.count : Segment → Count
  | .finite elements => .finite elements.length
  | .infinite _ => .infinite
  | .range start finish =>
    if finish < start then .finite 0
    else .finite ((Number.toCount? (finish - start + 1)).getD Count.limit)

/-- The first `n` elements of a segment. -/
def Segment.take (n : Nat) : Segment → List Value
  | .finite elements => elements.take n
  | .infinite start => (Number.ascending start n).map .number
  | .range start finish => (Number.upTo start finish n).map .number

namespace Sequence

def empty : Sequence := .single (.finite []) none

def infinite (start : Float) : Sequence := .single (.infinite start) (some .number)

def range (start finish : Float) : Sequence := .single (.range start finish) (some .number)

/-- Exactly the given elements, which must all have the kind of the first one. -/
def ofList (elements : List Value) (line : Nat) : Except EvalError Sequence :=
  match elements with
  | [] => .ok empty
  | first :: _ =>
    match elements.find? fun v => v.kind ≠ first.kind with
    | some odd => .error ⟨.mixedSequence first.kind odd.kind, line⟩
    | none => .ok (.single (.finite elements) (some first.kind))

def head : Sequence → Segment
  | .single head _ | .joined head _ _ => head

/-- The kind that every element has, if any is known. -/
def elementKind : Sequence → Option ValueKind
  | .single _ kind | .joined _ kind _ => kind

/-- The number of elements in all segments. -/
def count : Sequence → Count
  | .single head _ => head.count
  | .joined head _ tail => head.count.plus tail.count

def isInfinite (s : Sequence) : Bool := s.count = .infinite

def isEmpty (s : Sequence) : Bool := s.count = .finite 0

/-- Puts a sequence after every element of another. One without elements takes on the kind of what
is put after it; otherwise two known kinds must agree. -/
def append (receiver appended : Sequence) (line : Nat) : Except EvalError Sequence :=
  if receiver.isEmpty then .ok (.joined receiver.head appended.elementKind appended)
  else
    let joined (head : Segment) (kind : Option ValueKind) (tail : Sequence) : Sequence :=
      .joined head (kind.or appended.elementKind) tail
    let attach : Except EvalError Sequence :=
      match receiver with
      | .single head kind => .ok (joined head kind appended)
      | .joined head kind tail => do return joined head kind (← append tail appended line)
    match receiver.elementKind, appended.elementKind with
    | some expected, some found =>
      if expected = found then attach
      else .error ⟨.concatenationMismatch found expected, line⟩
    | _, _ => attach

/-- The first `n` elements. -/
def take (n : Nat) : Sequence → List Value
  | .single head _ => head.take n
  | .joined head _ tail =>
    let taken := head.take n
    taken ++ tail.take (n - taken.length)

/-- The segments with their kinds, from the head on. -/
def segments : Sequence → List (Segment × Option ValueKind)
  | .single head kind => [(head, kind)]
  | .joined head kind tail => (head, kind) :: tail.segments

end Sequence

end GSharp
