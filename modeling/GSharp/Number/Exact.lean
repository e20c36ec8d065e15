/-!
Exact values of doubles. A finite double is an integer times a power of two; sums and products of
such values are computed without error as dyadic numbers, and one rounding brings a result back.
-/

-- The powers written here are the built-in ones, also where another library gives monoids theirs.
attribute [instance (high + 1), default_instance (high + 1)] instPowNat

namespace GSharp.Number

/-- The integer and the exponent of two that a finite double stands for. -/
def decode? (x : Float) : Option (Int × Int) :=
  let bits := x.toBits.toNat
  let fraction : Nat := bits % 2 ^ 52
  let field : Nat := bits / 2 ^ 52 % 2 ^ 11
  let signed (m : Nat) : Int := if bits / 2 ^ 63 = 1 then -(m : Int) else m
  if field = 2047 then none
  else if field = 0 then some (signed fraction, -1074)
  else some (signed (2 ^ 52 + fraction), (field : Int) - 1075)

/-- The exact value of a finite double. -/
def toDyadic? (x : Float) : Option Dyadic :=
  (decode? x).map fun (mantissa, exponent) => .ofIntWithPrec mantissa (-exponent)

/-- `n / 2 ^ shift` to the nearest integer, a half going to the even neighbour. -/
def halveToEven (n shift : Nat) : Nat :=
  let quotient := n >>> shift
  let twice := 2 * (n - quotient <<< shift)
  let unit := 1 <<< shift
  if twice < unit ∨ (twice = unit ∧ quotient % 2 = 0) then quotient else quotient + 1

/-- The double nearest to `m * 2 ^ e` with the given sign, ties to the even mantissa. A carry out of
the mantissa lands in the exponent field, which is what the next double's bits are. -/
def roundScaled (negative : Bool) (m : Nat) (e : Int) : Float :=
  let target := max ((m.log2 : Int) + 1 + e - 53) (-1074)
  let mantissa := if e < target then halveToEven m (target - e).toNat else m <<< (e - target).toNat
  let magnitude :=
    if m = 0 then 0 else min ((target + 1074).toNat * 2 ^ 52 + mantissa) (2047 * 2 ^ 52)
  Float.ofBits (UInt64.ofNat (if negative then 2 ^ 63 + magnitude else magnitude))

/-- The double nearest to a dyadic number. -/
def round : Dyadic → Float
  | .zero => 0
  | .ofOdd n precision _ => roundScaled (n < 0) n.natAbs (-precision)

/-- The double nearest to a natural number. -/
def ofNat (n : Nat) : Float := roundScaled false n 0

/-- `a * b + c` with a single rounding. -/
def fusedMulAdd (a b c : Float) : Float :=
  match toDyadic? a, toDyadic? b, toDyadic? c with
  | some x, some y, some z =>
    if x * y = 0 ∧ z = 0 then a * b + c else round (x * y + z)
  | some _, some _, none => c
  | _, _, _ => a * b + c

/-- The double nearest to the length of the vector `(x, y)`; an infinite side makes it infinite.
That it is the nearest one is an assumption: the precision of a length is left open, and libraries
differ in the last place, as on the vector `(27, 17)`. -/
def hypot (x y : Float) : Float :=
  if x.isInf || y.isInf then (1.0 / 0.0 : Float)
  else match toDyadic? x, toDyadic? y with
    | some a, some b =>
      match a * a + b * b with
      | .zero => 0
      | .ofOdd n precision _ =>
        let lift := 128 + (precision.natAbs % 2)
        let square := n.natAbs <<< lift
        let root := Nat.sqrt square
        let sticky := if root * root = square then 0 else 1
        roundScaled false (2 * root + sticky) (-(precision + lift) / 2 - 1)
    | _, _ => x + y

/-- The remainder of the division toward zero. It has the sign of the dividend. -/
def remainder (x y : Float) : Float :=
  match decode? x, decode? y with
  | some (m, e), some (n, f) =>
    if n = 0 then (0.0 / 0.0 : Float)
    else
      let unit := min e f
      roundScaled (x.toBits.toNat / 2 ^ 63 = 1)
        ((m.natAbs <<< (e - unit).toNat) % (n.natAbs <<< (f - unit).toNat)) unit
  | some _, none => if y.isNaN then y else x
  | none, _ => (0.0 / 0.0 : Float)

/-- The remainder moved into `[0, |y|)` where it is negative. -/
def euclideanRemainder (x y : Float) : Float :=
  let r := remainder x y
  if r < 0 then r + y.abs else r

/-- The whole part of a finite double, toward zero. -/
def truncate? (x : Float) : Option Int :=
  (decode? x).map fun (m, e) => if 0 ≤ e then m * 2 ^ e.toNat else Int.tdiv m (2 ^ (-e).toNat)

/-- A finite double without a fractional part. -/
def isWhole (x : Float) : Bool :=
  match decode? x with
  | some (m, e) => 0 ≤ e || m.natAbs % 2 ^ (-e).toNat = 0
  | none => false

/-- Rounds toward zero, keeping the sign of zero. -/
def truncate (x : Float) : Float :=
  match truncate? x with
  | some n => roundScaled (x.toBits.toNat / 2 ^ 63 = 1) n.natAbs 0
  | none => x

/-- The smaller operand; the other one if an operand is not a number. -/
def minimum (a b : Float) : Float := if a.isNaN then b else if b < a then b else a

/-- The larger operand; the other one if an operand is not a number. -/
def maximum (a b : Float) : Float := if a.isNaN then b else if a < b then b else a

end GSharp.Number
