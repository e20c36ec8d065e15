import GSharp.Random.Library

namespace GSharp.Generator

variable {α : Type} {attempt : Generator → Option α × Generator} {generator after : Generator}

/-- How repeating an attempt ends where only a value ends it, after a number of refusals. -/
inductive Ends (attempt : Generator → Option α × Generator) : Nat → Generator → α × Generator → Prop
  | accepted {generator after : Generator} {value : α}
      (given : attempt generator = (some value, after)) :
      Ends attempt 0 generator (value, after)
  | refused {refusals : Nat} {generator next : Generator} {drawn : α × Generator}
      (given : attempt generator = (none, next)) (later : Ends attempt refusals next drawn) :
      Ends attempt (refusals + 1) generator drawn

/-- What is assumed of a generator: it accepts before it has refused as often as an attempt is
repeated. An attempt at an integer is refused less than every second time on average. -/
def Settles (attempt : Generator → Option α × Generator) (generator : Generator) : Prop :=
  ∃ refusals < attempts, ∃ drawn, Ends attempt refusals generator drawn

theorem Ends.retry_eq {refusals limit : Nat} {drawn : α × Generator}
    (ends : Ends attempt refusals generator drawn) (allowed : refusals < limit) (kept : α) :
    retry attempt kept limit generator = drawn := by
  induction ends generalizing limit with
  | accepted given =>
    obtain ⟨left, rfl⟩ := Nat.exists_eq_add_one.mpr allowed
    rw [retry, given]
  | refused given later ih =>
    obtain ⟨left, rfl⟩ := Nat.exists_eq_add_one.mpr (Nat.zero_lt_of_lt allowed)
    rw [retry, given]
    exact ih (Nat.lt_of_succ_lt_succ allowed)

theorem Ends.unique {refusals refusals' : Nat} {drawn drawn' : α × Generator}
    (ends : Ends attempt refusals generator drawn)
    (ends' : Ends attempt refusals' generator drawn') :
    drawn = drawn' := by
  have first := ends.retry_eq (Nat.lt_succ_of_le (Nat.le_max_left refusals refusals')) drawn.1
  have second := ends'.retry_eq (Nat.lt_succ_of_le (Nat.le_max_right refusals refusals')) drawn.1
  exact first.symm.trans second

/-- From a generator that settles, the limit on the attempts makes no difference. -/
theorem retry_eq_iff (settles : Settles attempt generator) (kept : α) {drawn : α × Generator} :
    retry attempt kept attempts generator = drawn ↔
      ∃ refusals, Ends attempt refusals generator drawn := by
  obtain ⟨refusals, allowed, settled, ends⟩ := settles
  rw [ends.retry_eq allowed kept]
  constructor
  · rintro rfl
    exact ⟨refusals, ends⟩
  · rintro ⟨_, ends'⟩
    exact ends.unique ends'

theorem retry_holds {P : α → Prop} {kept : α} (holds : P kept)
    (accepted : ∀ generator value, (attempt generator).1 = some value → P value) (limit : Nat)
    (generator : Generator) : P (retry attempt kept limit generator).1 := by
  induction limit generalizing generator with
  | zero => exact holds
  | succ left ih =>
    rw [retry]
    split
    · rename_i value after given
      exact accepted generator value (congrArg Prod.fst given)
    · exact ih _

/-- An integer is drawn from the range, whether the generator settles or not. -/
theorem below_lt {width n value : Nat} {draw : Generator → Nat × Generator}
    (words : ∀ generator, (draw generator).1 < 2 ^ width)
    (drawn : below width draw n generator = .ok (value, after)) : value < n := by
  have inRange (positive : 0 < n) (generator : Generator) (value : Nat)
      (given : (attemptBelow width draw n generator).1 = some value) : value < n := by
    simp only [attemptBelow] at given
    split at given
    · rw [← Option.some.inj given, Nat.div_lt_iff_lt_mul (Nat.two_pow_pos width), Nat.mul_comm n]
      exact Nat.mul_lt_mul_of_pos_right (words generator) positive
    · exact nomatch given
  unfold below at drawn
  split at drawn
  · exact nomatch drawn
  · rename_i full
    have positive := Nat.pos_of_ne_zero full
    have holds := retry_holds (P := (· < n)) positive (inRange positive) attempts generator
    rw [Except.ok.inj drawn] at holds
    exact holds

theorem Sampling.always_holds {draw : Sampling α} {P : α → Prop}
    (holds : ∀ generator value after, draw generator = .ok (value, after) → P value)
    (never : ∀ generator text, draw generator ≠ .error text) (generator : Generator) :
    P (draw.always never generator).1 := by
  unfold always
  split
  · rename_i drawn _ same _
    exact holds generator drawn.1 drawn.2 same
  · rename_i text _ same _
    exact absurd same (never generator text)

theorem below_eq_error_iff (width : Nat) (draw : Generator → Nat × Generator) (n : Nat)
    (generator : Generator) : (∃ text, below width draw n generator = .error text) ↔ n = 0 := by
  unfold below
  split
  · rename_i empty
    exact iff_of_true ⟨_, rfl⟩ empty
  · rename_i full
    exact iff_of_false nofun full

theorem word32_lt (generator : Generator) : generator.word32.1 < 2 ^ 32 := UInt32.toNat_lt _

theorem word64_lt (generator : Generator) : generator.word64.1 < 2 ^ 64 := by
  have low := word32_lt generator
  have high := word32_lt generator.word32.2
  simp only [word64]
  omega

end GSharp.Generator
