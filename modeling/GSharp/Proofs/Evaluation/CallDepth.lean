import GSharp.Proofs.Evaluation.Lockstep

/-!
How deep calls may nest makes no difference to a run that does not nest them as deep. To tell such a
run there is one that goes the same way but raises an alarm where a call would be refused.
-/
namespace GSharp

open Evaluation

namespace Beyond

/-- The ways out where a number of calls may still nest, and one more raises an alarm. -/
def alarmedCalls (reason : Option String) (program : Nat → Program → Evaluation (List EvalError)) :
    Nat → Beyond
  | 0 => ⟨some fun _ => throw (.crashed reason), program 0⟩
  | calls + 1 =>
    ⟨some fun body => body.eval (alarmedCalls reason program calls), program (calls + 1)⟩

def alarmed (reason : Option String) : Nat → Nat → Beyond
  | 0, calls => alarmedCalls reason (fun _ _ => return []) calls
  | files + 1, calls =>
    alarmedCalls reason
      (fun calls program => do return (← program.eval (alarmed reason files calls)).2) calls

end Beyond

namespace Context

/-- A run that crashes, for a reason of its own, where a call would be refused. -/
def runAlarmed (context : Context) (reason : Option String) (program : Program) :
    Except Stop (Option Value × List EvalError) × Context :=
  program.eval
    (.alarmed reason context.files.texts.length
      (context.settings.maxCallDepth - context.callDepth)) context

/-- No call is refused: there is a reason to crash for that the run does not crash for. -/
def NeverRefuses (context : Context) (program : Program) : Prop :=
  ∃ reason, (context.runAlarmed reason program).1 ≠ .error (.crashed reason)

/-- The state with another limit to the depth of calls. -/
def allowing (context : Context) (limit : Nat) : Context :=
  { context with settings := { context.settings with maxCallDepth := limit } }

end Context

/-- The same libraries, programs that do as they like, and an alarm. -/
def Terms.alarmed (files : Files) (reason : Option String) (strict : Prop) : Terms where
  files
  alike := Eq
  allowed _ := True
  alarm := (· = reason)
  strict

namespace Terms

variable {files : Files} {reason : Option String} {strict : Prop}

theorem alarmed_blind {α : Type} (draw : Draw α) : (alarmed files reason strict).Blind draw := by
  rintro library _ rfl
  exact ⟨rfl, rfl⟩

theorem alarmed_allows (acts : List Act) : (alarmed files reason strict).Allows acts :=
  fun _ _ => trivial

theorem alarmed_sound : (alarmed files reason strict).Sound where
  calls _ _ _ _ := alarmed_blind _
  figures _ _ _ := alarmed_blind _
  random _ _ := alarmed_blind _
  imports _ _ _ _ _ _ _ _ := alarmed_allows _

variable {calls limit : Nat}

/-- The second run has as many calls left, or more where it need not tell. -/
structure Spares (strict : Prop) (calls limit : Nat) : Prop where
  enough : calls ≤ limit
  same : strict → calls = limit

theorem alarmedCalls_matches {program program' : Nat → Program → Evaluation (List EvalError)}
    (follow : ∀ calls limit, Spares strict calls limit → ∀ p,
      (alarmed files reason strict).Follow Tell (program calls p) (program' limit p))
    (spares : Spares strict calls limit) :
    (alarmed files reason strict).Matches (.alarmedCalls reason program calls)
      (.ofCalls program' limit) := by
  induction calls generalizing limit with
  | zero =>
    cases limit with
    | zero => exact ⟨.alarmed rfl, fun p _ => follow 0 0 spares p⟩
    | succ limit =>
      -- The one run is stopped by its alarm while the other still has a call left.
      refine ⟨.both fun body _ one two _ => .inr ⟨⟨reason, rfl, rfl⟩, fun told => ?_⟩,
        fun p _ => follow 0 (limit + 1) spares p⟩
      exact absurd (spares.same told) (Nat.succ_ne_zero limit).symm
  | succ calls ih =>
    obtain ⟨enough, same⟩ := spares
    obtain ⟨limit, rfl⟩ := Nat.exists_eq_succ_of_ne_zero (Nat.ne_zero_of_lt enough)
    have inner := ih ⟨Nat.le_of_succ_le_succ enough, fun told => Nat.succ_inj.mp (same told)⟩
    exact ⟨.both fun body _ => body.eval_agree alarmed_sound inner (alarmed_allows _),
      fun p _ => follow (calls + 1) (limit + 1) ⟨enough, same⟩ p⟩

theorem alarmed_matches (texts : Nat) (spares : Spares strict calls limit) :
    (alarmed files reason strict).Matches (.alarmed reason texts calls)
      (.ofBounds texts limit) := by
  induction texts generalizing calls limit with
  | zero => exact alarmedCalls_matches (fun _ _ _ _ => .done _) spares
  | succ texts ih =>
    refine alarmedCalls_matches (fun calls limit spares p => ?_) spares
    have inside := p.eval_follow alarmed_sound (ih spares) (alarmed_allows _)
    exact inside.andThenTold (fun _ => .done _) fun _ tells _ => tells

end Terms

namespace Context

variable (context : Context) (program : Program) {limit : Nat}

theorem inStep_allowing (reason : Option String) (strict : Prop) (limit : Nat) :
    (Terms.alarmed context.files reason strict).InStep context (context.allowing limit) where
  scope := rfl
  library := rfl
  refusal := rfl
  log := rfl
  callDepth := rfl
  imported := rfl
  filesOne := rfl
  filesTwo := rfl
  covered _ _ _ _ := Terms.alarmed_allows _

theorem runAlarmed_meet (reason : Option String) {strict : Prop}
    (spares : Terms.Spares strict context.settings.maxCallDepth limit) :
    (Terms.alarmed context.files reason strict).Meet Program.Tells
      (context.runAlarmed reason program) ((context.allowing limit).run program) := by
  have left : Terms.Spares strict (context.settings.maxCallDepth - context.callDepth)
      (limit - context.callDepth) :=
    ⟨Nat.sub_le_sub_right spares.enough _, fun told => by rw [spares.same told]⟩
  have matched : (Terms.alarmed context.files reason strict).Matches _ _ :=
    Terms.alarmed_matches context.files.texts.length left
  exact program.eval_follow Terms.alarmed_sound matched (Terms.alarmed_allows _) _ _
    (context.inStep_allowing reason strict limit)

/-- A run that raises no alarm goes the same way as one without any. -/
theorem runAlarmed_inStep (deeper : context.settings.maxCallDepth ≤ limit) {reason : Option String}
    (silent : (context.runAlarmed reason program).1 ≠ .error (.crashed reason)) :
    (context.runAlarmed reason program).1 = ((context.allowing limit).run program).1 ∧
      (Terms.alarmed context.files reason False).InStep (context.runAlarmed reason program).2
        ((context.allowing limit).run program).2 := by
  rcases context.runAlarmed_meet program reason ⟨deeper, False.elim⟩ with
    same | ⟨⟨_, rfl, crashed⟩, -⟩
  · exact same
  · exact absurd crashed silent

/-- If both are in step with a third run, two states differ in their limits alone. -/
theorem eq_allowing_of_inStep {before between one two : Context} {reason : Option String}
    {strict : Prop} (first : (Terms.alarmed before.files reason strict).InStep between one)
    (second : (Terms.alarmed before.files reason strict).InStep between two)
    (settings : one.settings = before.settings)
    (otherSettings : two.settings = (before.allowing limit).settings)
    (host : two.host = one.host) : two = one.allowing limit := by
  have library : two.library = one.library := second.library.symm.trans first.library
  have files : two.files = one.files := second.filesTwo.trans first.filesTwo.symm
  have limits : two.settings = (one.allowing limit).settings := by
    rw [otherSettings, allowing, allowing, settings]
  have scope := second.scope.trans first.scope.symm
  have log := second.log.trans first.log.symm
  have callDepth := second.callDepth.trans first.callDepth.symm
  have imported := second.imported.trans first.imported.symm
  cases one
  cases two
  simp_all [allowing]

/-- A run that refuses no call goes the same way where calls may nest deeper: it ends the same, and
in the same state but for the limit. A run that ends, and has no error that tells of a refused call,
has refused none. -/
theorem run_allowing (deeper : context.settings.maxCallDepth ≤ limit) :
    (context.NeverRefuses program →
      ((context.allowing limit).run program).1 = (context.run program).1 ∧
        ((context.allowing limit).run program).2 = (context.run program).2.allowing limit) ∧
    ∀ value errors, (context.run program).1 = .ok (value, errors) →
      (∀ error ∈ errors, ¬error.fault.Tells) → context.NeverRefuses program := by
  constructor
  · rintro ⟨reason, silent⟩
    obtain ⟨same, inStep⟩ := context.runAlarmed_inStep program (Nat.le_refl _) silent
    obtain ⟨same', inStep'⟩ := context.runAlarmed_inStep program deeper silent
    have kept := context.run_extends program
    have kept' := (context.allowing limit).run_extends program
    exact ⟨same'.symm.trans same, eq_allowing_of_inStep inStep inStep' kept.settings
      kept'.settings (kept'.host.trans kept.host.symm)⟩
  · rintro value errors ended untold
    refine ⟨none, fun crashed => ?_⟩
    -- Without more calls to spare than the alarm leaves, a refused call must be told of.
    have spares : Terms.Spares True context.settings.maxCallDepth context.settings.maxCallDepth :=
      ⟨Nat.le_refl _, fun _ => rfl⟩
    rcases context.runAlarmed_meet program none spares with ⟨same, -⟩ | ⟨-, told⟩
    · have contrary := crashed.symm.trans (same.trans ended)
      cases contrary
    · have tells : Told Program.Tells (context.run program).1 := told trivial
      rw [ended] at tells
      obtain ⟨error, present, tells⟩ := tells
      exact untold error present tells

/-- A function that counts down from two calls itself to the depth of three. -/
def countdown : Program :=
  let counts := Expr.binary .greater (.constant "n" 1) (.literal (.number 0) 1) 1
  let less := Expr.binary .subtract (.constant "n" 1) (.literal (.number 1) 1) 1
  [.function "f" ["n"] (.conditional counts (.call "f" [less] 1) (.constant "n" 1) 1) 1,
    .expression (.call "f" [.literal (.number 2) 2] 2) 2]

theorem run_allowing_countdown :
    let context := create {} { maxCallDepth := 3 } .none
    context.settings.maxCallDepth ≤ 256 ∧ context.NeverRefuses countdown ∧
      ((context.allowing 256).run countdown).1 = (context.run countdown).1 ∧
      ((context.allowing 256).run countdown).2 = (context.run countdown).2.allowing 256 := by
  intro context
  have deeper : context.settings.maxCallDepth ≤ 256 := by decide
  have ends : (context.runAlarmed none countdown).1.isOk = true := by decide +kernel
  have silent : context.NeverRefuses countdown := by
    refine ⟨none, fun crashed => ?_⟩
    rw [crashed] at ends
    cases ends
  exact ⟨deeper, silent, (context.run_allowing countdown deeper).1 silent⟩

end Context

end GSharp
