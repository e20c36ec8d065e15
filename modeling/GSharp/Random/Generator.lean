import GSharp.Number.Exact

/-!
The random generator: a stream of 32-bit words made of ChaCha blocks of twelve rounds under a key
spread out from a 64-bit seed, and the drawing of bounded integers and numbers from it.
-/
namespace GSharp

namespace ChaCha

abbrev State := Vector UInt32 16

def rotateLeft (x : UInt32) (n : UInt32) : UInt32 := (x <<< n) ||| (x >>> (32 - n))

def quarterRound (state : State) (i j k l : Fin 16) : State :=
  let a := state[i] + state[j]
  let d := rotateLeft (state[l] ^^^ a) 16
  let c := state[k] + d
  let b := rotateLeft (state[j] ^^^ c) 12
  let a := a + b
  let d := rotateLeft (d ^^^ a) 8
  let c := c + d
  let b := rotateLeft (b ^^^ c) 7
  (((state.set i a).set j b).set k c).set l d

/-- A round over the columns and one over the diagonals. -/
def doubleRound (state : State) : State :=
  let state := quarterRound state 0 4 8 12
  let state := quarterRound state 1 5 9 13
  let state := quarterRound state 2 6 10 14
  let state := quarterRound state 3 7 11 15
  let state := quarterRound state 0 5 10 15
  let state := quarterRound state 1 6 11 12
  let state := quarterRound state 2 7 8 13
  quarterRound state 3 4 9 14

/-- The block of a key with a number. -/
def block (key : Vector UInt32 8) (number : UInt64) : State :=
  let start : State := #v[0x61707865, 0x3320646e, 0x79622d32, 0x6b206574,
    key[0], key[1], key[2], key[3], key[4], key[5], key[6], key[7],
    number.toUInt32, (number >>> 32).toUInt32, 0, 0]
  let mixed := Nat.repeat doubleRound 6 start
  mixed.zipWith (· + ·) start

end ChaCha

/-- A key and the number of words already drawn. -/
structure Generator where
  key : Vector UInt32 8
  drawn : Nat := 0

namespace Generator

/-- The next state of the seed and the key word that it gives. -/
def keyWord (seed : UInt64) : UInt64 × UInt32 :=
  let next := seed * 6364136223846793005 + 11634580027462260723
  let word := (((next >>> 18) ^^^ next) >>> 27).toUInt32
  let turn : UInt32 := (next >>> 59).toUInt32
  (next, (word >>> turn) ||| (word <<< (32 - turn)))

/-- The key spread out from a seed. -/
def ofSeed (seed : UInt64) : Generator :=
  let (s, a) := keyWord seed
  let (s, b) := keyWord s
  let (s, c) := keyWord s
  let (s, d) := keyWord s
  let (s, e) := keyWord s
  let (s, f) := keyWord s
  let (s, g) := keyWord s
  let (_, h) := keyWord s
  { key := #v[a, b, c, d, e, f, g, h] }

def word32 (generator : Generator) : Nat × Generator :=
  let index : Fin 16 := Fin.ofNat 16 generator.drawn
  let word := (ChaCha.block generator.key (UInt64.ofNat (generator.drawn / 16)))[index]
  (word.toNat, { generator with drawn := generator.drawn + 1 })

/-- Two words, the lower half first. -/
def word64 (generator : Generator) : Nat × Generator :=
  let (low, generator) := generator.word32
  let (high, generator) := generator.word32
  (low + high * 2 ^ 32, generator)

/-- What is drawn from the generator. Where there is nothing to draw from, the program is stopped
with a text. -/
abbrev Sampling := StateT Generator (Except String)

/-- What is drawn where nothing stops the draw. -/
def Sampling.always {α : Type} (draw : Sampling α)
    (never : ∀ generator text, draw generator ≠ .error text) (generator : Generator) :
    α × Generator :=
  match draw generator, never generator with
  | .ok drawn, _ => drawn
  | .error text, never => absurd rfl (never text)

/-- How often an attempt at a draw is repeated. That a generator accepts before that, so that a loop
without a limit would end the same, is assumed of it, as `Settles`. -/
def attempts : Nat := 1000

/-- Repeats an attempt until it gives a value. One value is kept for when every attempt is refused.
-/
def retry {α : Type} (attempt : Generator → Option α × Generator) (kept : α) :
    Nat → Generator → α × Generator
  | 0, generator => (kept, generator)
  | left + 1, generator =>
    match attempt generator with
    | (some value, generator) => (value, generator)
    | (none, generator) => retry attempt kept left generator

/-- An attempt at an integer below `n` from a word of a width: the upper part of a product whose
lower part is in the zone where all integers are equally likely. -/
def attemptBelow (width : Nat) (draw : Generator → Nat × Generator) (n : Nat)
    (generator : Generator) : Option Nat × Generator :=
  let zone := n * 2 ^ (width - (n.log2 + 1)) - 1
  let (word, generator) := draw generator
  let product := word * n
  (if product % 2 ^ width ≤ zone then some (product / 2 ^ width) else none, generator)

/-- An integer below `n`, of which there must be one. -/
def below (width : Nat) (draw : Generator → Nat × Generator) (n : Nat) : Sampling Nat :=
  fun generator =>
    if n = 0 then .error "cannot sample empty range"
    else .ok (retry (attemptBelow width draw n) 0 attempts generator)

theorem below_ne_error {width n : Nat} {draw : Generator → Nat × Generator} (positive : 0 < n)
    (generator : Generator) (text : String) : below width draw n generator ≠ .error text := by
  unfold below
  rw [if_neg (Nat.ne_of_gt positive)]
  exact nofun

/-- An integer below `n`, drawn from one word. -/
def below32 (n : Nat) : Sampling Nat := below 32 word32 n

/-- An integer below `n`, drawn from two words. -/
def below64 (n : Nat) : Sampling Nat := below 64 word64 n

/-- A number from zero up to one, on a grid of `2 ^ -53`. -/
def fraction (generator : Generator) : Float × Generator :=
  let (word, generator) := generator.word64
  (Number.roundScaled false (word / 2 ^ 11) (-53), generator)

/-- A number from zero up to one, on a grid of `2 ^ -52`. -/
def coarseFraction (generator : Generator) : Float × Generator :=
  let (word, generator) := generator.word64
  (Number.roundScaled false (word / 2 ^ 12) (-52), generator)

/-- An attempt at a number from `low` up to but not including `high`. -/
def attemptBetween (low high : Float) (generator : Generator) : Option Float × Generator :=
  let (f, generator) := generator.coarseFraction
  let drawn := f * (high - low) + low
  (if drawn < high then some drawn else none, generator)

/-- A number from `low` up to but not including `high`, which must be a finite way above it. -/
def between (low high : Float) : Sampling Float := fun generator =>
  if ¬low < high then .error "cannot sample empty range"
  else if ¬(high - low).isFinite then .error "UniformSampler::sample_single: range overflow"
  else .ok (retry (attemptBetween low high) low attempts generator)

/-- The greatest coarse fraction. -/
def greatestFraction : Float := Number.roundScaled false (2 ^ 52 - 1) (-52)

/-- The greatest scale, from the double with these bits down, that does not lead past `high`. -/
def fittingScale (low high : Float) : Nat → Float
  | 0 => 0
  | bits + 1 =>
    let scale := Float.ofBits (UInt64.ofNat (bits + 1))
    if scale * greatestFraction + low > high then fittingScale low high bits else scale

/-- A number from `low` to `high`, both included, whose distance must be finite. -/
def within (low high : Float) : Sampling Float := fun generator =>
  let scale := (high - low) / greatestFraction
  if ¬low ≤ high then .error "cannot sample empty range"
  else if ¬scale.isFinite then .error "Uniform::new_inclusive: range overflow"
  else
    let scale := fittingScale low high scale.toBits.toNat
    let (f, generator) := generator.coarseFraction
    .ok (f * scale + low, generator)

end Generator

end GSharp
