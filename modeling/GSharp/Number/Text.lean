import GSharp.Number.Exact

/-!
The text of a number: the fewest decimal digits that read back as the same double, always written
out in full. The digits are found by exact integer arithmetic on the interval that rounds to it.
-/
namespace GSharp.Number

/-- A positive rational interval around `value`, all three over one denominator. -/
structure Interval where
  low : Nat
  value : Nat
  high : Nat
  denominator : Nat
  closed : Bool

/-- The numbers that round to `m * 2 ^ e`. The gap below a power of two is half as wide, and the
ends belong to the interval iff the mantissa is even. -/
def Interval.ofDouble (m : Nat) (e : Int) : Interval :=
  let low := if m = 2 ^ 52 ∧ -1074 < e then 4 * m - 1 else 4 * m - 2
  let scale := (e - 2).toNat
  ⟨low <<< scale, (4 * m) <<< scale, (4 * m + 2) <<< scale, 1 <<< (2 - e).toNat, m % 2 = 0⟩

/-- The interval in units of `10 ^ k`. -/
def Interval.inUnits (interval : Interval) (k : Int) : Interval :=
  let up := 10 ^ (-k).toNat
  { interval with
    low := interval.low * up
    value := interval.value * up
    high := interval.high * up
    denominator := interval.denominator * 10 ^ k.toNat }

def Interval.contains (interval : Interval) (n : Nat) : Bool :=
  let scaled := n * interval.denominator
  if interval.closed then interval.low ≤ scaled && scaled ≤ interval.high
  else interval.low < scaled && scaled < interval.high

/-- The integer of the interval next to its value; of two equally near ones the upper. -/
def Interval.nearest? (interval : Interval) : Option Nat :=
  let lower := interval.value / interval.denominator
  let below := interval.value - lower * interval.denominator
  match interval.contains lower, interval.contains (lower + 1) with
  | true, true => some (if 2 * below < interval.denominator then lower else lower + 1)
  | true, false => some lower
  | false, true => some (lower + 1)
  | false, false => none

/-- The first hit on the grids `10 ^ k`, `10 ^ (k - 1)`, and so on. -/
def Interval.shortestFrom (interval : Interval) : Nat → Int → Nat × Int
  | 0, k => (0, k)
  | grids + 1, k =>
    match (interval.inUnits k).nearest? with
    | some digits => (digits, k)
    | none => interval.shortestFrom grids (k - 1)

/-- Decimal digits and a power of ten for `m * 2 ^ e`. The search starts on a grid wider than the
value and ends within the seventeen digits that always read back. -/
def shortest (m : Nat) (e : Int) : Nat × Int :=
  let magnitude := (m.log2 : Int) + 1 + e
  (Interval.ofDouble m e).shortestFrom 20 (magnitude * 30103 / 100000 + 1)

/-- Writes `digits * 10 ^ k` without an exponent. -/
def positional (digits : Nat) (k : Int) : String :=
  let text := (Nat.toDigits 10 digits)
  let point := (text.length : Int) + k
  .ofList <|
    if 0 ≤ k then text ++ List.replicate k.toNat '0'
    else if 0 < point then text.take point.toNat ++ '.' :: text.drop point.toNat
    else '0' :: '.' :: (List.replicate (-point).toNat '0' ++ text)

/-- The text of a number. Negative zero keeps its sign. -/
def text (x : Float) : String :=
  match decode? x with
  | some (mantissa, exponent) =>
    let sign := if x.toBits.toNat / 2 ^ 63 = 1 then "-" else ""
    if mantissa = 0 then sign ++ "0"
    else
      let (digits, k) := shortest mantissa.natAbs exponent
      sign ++ positional digits k
  | none => if x.isNaN then "NaN" else if 0 < x then "inf" else "-inf"

end GSharp.Number
