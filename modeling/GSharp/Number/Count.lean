import GSharp.Number.Exact

namespace GSharp.Number

/-- The largest number up to which every integer is a double of its own. -/
def maxSafe : Nat := 2 ^ 53 - 1

/-- A whole number from zero to `maxSafe`. -/
def isSafeCount (x : Float) : Bool :=
  0 ≤ x && x ≤ ofNat maxSafe && isWhole x

/-- The natural number that a safe count stands for. -/
def toCount? (x : Float) : Option Nat :=
  if isSafeCount x then (truncate? x).map Int.toNat else none

/-- The double of a count that is at most `maxSafe`. -/
def ofCount? (n : Nat) : Option Float :=
  if ofNat maxSafe < ofNat n then none else some (ofNat n)

end GSharp.Number
