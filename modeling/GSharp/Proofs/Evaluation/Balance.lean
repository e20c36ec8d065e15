import GSharp.Evaluation.Eval
import GSharp.Proofs.Random.Steady
import GSharp.Proofs.Scope.Changes

namespace GSharp

namespace Context

/-- What every instruction keeps. The frames outside the active one, the call depth, the settings
and the canvas stay; what was shown or imported is only added to, the latest first. -/
structure Extends (before after : Context) : Prop where
  outer : after.scope.outer = before.scope.outer
  callDepth : after.callDepth = before.callDepth
  settings : after.settings = before.settings
  host : after.host = before.host
  files : after.files = before.files
  library : before.library.Steady after.library
  log : before.log <:+ after.log
  imported : before.imported <:+ after.imported

/-- What every expression keeps: the active frame as well. -/
structure Balanced (before after : Context) : Prop extends Extends before after where
  active : after.scope.active = before.scope.active

instance : IsPreorder Context Extends where
  refl _ := ⟨rfl, rfl, rfl, rfl, rfl, refl_of Library.Steady _, List.suffix_rfl, List.suffix_rfl⟩
  trans _ _ _ first second :=
    { outer := second.outer.trans first.outer
      callDepth := second.callDepth.trans first.callDepth
      settings := second.settings.trans first.settings
      host := second.host.trans first.host
      files := second.files.trans first.files
      library := trans_of Library.Steady first.library second.library
      log := first.log.trans second.log
      imported := first.imported.trans second.imported }

instance : IsPreorder Context Balanced where
  refl context := ⟨refl_of Extends context, rfl⟩
  trans _ _ _ first second :=
    ⟨trans_of Extends first.toExtends second.toExtends, second.active.trans first.active⟩

end Context

/-- The ways out of a tree keep what expressions and programs have to keep. -/
structure Beyond.Balanced (beyond : Beyond) : Prop where
  body : ∀ evalBody, beyond.body? = some evalBody →
    ∀ body, Preserves Context.Balanced (evalBody body).run
  program : ∀ program, Preserves Context.Extends (beyond.program program).run

open Context

namespace Evaluation

section Anything

variable {α : Type} {R : Context → Context → Prop}

theorem attempt_preserves {body : Evaluation α} (preserved : Preserves R body.run) :
    Preserves R (attempt body).run := by
  intro context
  have related : R context (body context).2 := preserved context
  simp only [attempt, ExceptT.run]
  split <;> rename_i ended <;> rw [ended] at related <;> exact related

variable [IsPreorder Context R]

theorem ofExcept_preserves (result : Except EvalError α) : Preserves R (ofExcept result).run := by
  cases result with
  | ok value => exact .done value
  | error error => exact .throw _

theorem fail_preserves (fault : EvalFault) (line : Nat) :
    Preserves R (fail fault line : Evaluation α).run := .throw _

end Anything

variable {α : Type}

theorem extends_of_balanced {body : Evaluation α} (balanced : Preserves Balanced body.run) :
    Preserves Extends body.run := balanced.weaken fun _ _ related => related.toExtends

theorem draw_balanced {draw : Draw α} (steady : Preserves Library.Steady draw.run) :
    Preserves Balanced (Evaluation.draw draw).run := fun context =>
  { refl_of Balanced context with library := steady context.library }

theorem emit_balanced (event : Event) : Preserves Balanced (emit event).run := fun context =>
  { refl_of Balanced context with log := List.suffix_cons event context.log }

theorem setScope_extends (context : Context) {scope : Scope}
    (outer : scope.outer = context.scope.outer) :
    Extends context ((setScope scope).run context).2 :=
  { refl_of Extends context with outer }

theorem setScope_balanced (context : Context) {scope : Scope}
    (active : scope.active = context.scope.active) (outer : scope.outer = context.scope.outer) :
    Balanced context ((setScope scope).run context).2 := ⟨setScope_extends context outer, active⟩

theorem updateScope_extends {update : Scope → Except EvalError Scope}
    (kept : ∀ scope after, update scope = .ok after → after.outer = scope.outer) :
    Preserves Extends (updateScope update).run := by
  refine .getThen fun context => ?_
  cases updated : update context.scope with
  | error error => exact refl_of Extends context
  | ok after => exact setScope_extends context (kept _ _ updated)

theorem setConstant_extends (name : String) (value : Value) (line : Nat) :
    Preserves Extends (updateScope fun scope => scope.setConstant name value line).run :=
  updateScope_extends fun _ _ => Scope.setConstant_outer

/-- Leaving the frame gives back the frames that were there, whatever the computation did to its
own frame. -/
theorem inFrame_balanced {body : Evaluation α} (extended : Preserves Extends body.run) :
    Preserves Balanced (inFrame body).run := by
  intro context
  let inside : Context := { context with scope := context.scope.enter }
  have kept : Extends inside (body inside).2 := extended inside
  have back : (body inside).2.scope.exit =
      { (body inside).2.scope with
        active := context.scope.active, outer := context.scope.outer } := by
    rw [Scope.exit, kept.outer]
    rfl
  change Balanced context { (body inside).2 with scope := (body inside).2.scope.exit }
  rw [back]
  exact { kept with outer := rfl, active := rfl }

/-- The depth counted up before a call is counted down after it. -/
theorem inCall_balanced {body : Evaluation α} (balanced : Preserves Balanced body.run) :
    Preserves Balanced (inCall body).run := by
  intro context
  let inside : Context := { context with callDepth := context.callDepth + 1 }
  have kept : Balanced inside (body inside).2 := balanced inside
  have back : (body inside).2.callDepth - 1 = context.callDepth := by
    rw [kept.callDepth]
    exact Nat.add_sub_cancel ..
  change Balanced context { (body inside).2 with callDepth := (body inside).2.callDepth - 1 }
  exact { kept with callDepth := back }

theorem bindArguments_extends (names : List String) (values : List Value) :
    Preserves Extends (bindArguments names values).run := by
  induction names generalizing values with
  | nil => exact .done _
  | cons name names ih =>
    cases values with
    | nil => exact .done _
    | cons value values =>
      have bound : Preserves Extends
          (do setScope ((← get).scope.setArgument name value) : Evaluation Unit).run :=
        .getThen fun context => setScope_extends context (Scope.setArgument_outer name value)
      rw [bindArguments, ← bind_assoc]
      exact .andThen bound fun _ => ih values

theorem assignEach_extends (line : Nat) (names : List String) (values : List Value) :
    Preserves Extends (assignEach line names values).run := by
  induction names generalizing values with
  | nil => exact .done _
  | cons name names ih =>
    exact .andThen (setConstant_extends name _ line) fun _ => ih _

theorem drawFigures_balanced (label : Option String) (figures : List Figure) :
    Preserves Balanced (drawFigures label figures).run := by
  induction figures with
  | nil => exact .done _
  | cons first rest ih =>
    exact .andThen (.lift .get) fun _ => .andThen (emit_balanced _) fun _ => ih

theorem drawValue_balanced (value : Value) (label : Option String) (line : Nat) :
    Preserves Balanced (drawValue value label line).run := by
  refine .andThen (drawFigures_balanced _ _) fun _ => ?_
  split
  · exact fail_preserves _ _
  · exact .done _

theorem print_balanced (text : String) : Preserves Balanced (print text).run := by
  refine .andThen (.lift .get) fun context => ?_
  split
  · exact .throw _
  · exact emit_balanced _

theorem randomValue_balanced (kind : FigureKind) (isSequence : Bool) :
    Preserves Balanced (randomValue kind isSequence).run := by
  refine draw_balanced ?_
  cases isSequence with
  | true => exact .lift (.map _ (Library.sequence_steady kind))
  | false => exact .lift (.map _ (Library.figure_steady kind))

section Beyond

variable {beyond : Beyond} (kept : beyond.Balanced)

include kept

theorem callDeclared_balanced (name : String) (arguments : List Value) (line : Nat) :
    Preserves Balanced (callDeclared beyond name arguments line).run := by
  refine .andThen (.lift .get) fun context => ?_
  split
  · exact fail_preserves _ _
  · rename_i function _
    split
    · exact fail_preserves _ _
    · split
      · exact fail_preserves _ _
      · rename_i evalBody entered
        have body := extends_of_balanced (kept.body evalBody entered function.body)
        have bound := bindArguments_extends function.parameters arguments
        exact inCall_balanced (inFrame_balanced (.andThen bound fun _ => body))

theorem call_balanced (name : String) (arguments : List Value) (line : Nat) :
    Preserves Balanced (call beyond name arguments line).run := by
  unfold call
  split
  · exact draw_balanced (Builtin.apply_steady _ _ _)
  · exact callDeclared_balanced kept name arguments line

/-- An imported program runs in the frame of the import. -/
theorem importFile_extends (path : String) (line : Nat) :
    Preserves Extends (importFile beyond path line).run := by
  have counted (key : String) : Preserves Extends (modify fun context =>
      { context with imported := key :: context.imported } : Evaluation Unit).run :=
    .lift <| .modify fun context =>
      { refl_of Extends context with imported := List.suffix_cons key context.imported }
  simp only [importFile]
  refine .andThen (.lift .get) fun context => ?_
  split
  · exact fail_preserves _ _
  · split
    · exact .done _
    · split
      · exact fail_preserves _ _
      · refine .andThen (counted _) fun _ => ?_
        split
        · exact fail_preserves _ _
        · split
          · exact fail_preserves _ _
          · refine .andThen (kept.program _) fun errors => ?_
            split
            · exact fail_preserves _ _
            · exact .done _

end Beyond

end Evaluation

open Evaluation

-- The induction is on the tree. Function bodies and imported files are no part of it, and what they
-- keep is the hypothesis on the ways out.
mutual

theorem Expr.eval_balanced {beyond : Beyond} (kept : beyond.Balanced) (e : Expr) :
    Preserves Balanced (e.eval beyond).run := by
  cases e with
  | literal | undefined | infinite | range => exact .done _
  | constant => exact .andThen (.lift .get) fun _ => ofExcept_preserves _
  | group inner => exact Expr.eval_balanced kept inner
  | unary op operand =>
    exact .andThen (Expr.eval_balanced kept operand) fun _ => ofExcept_preserves _
  | binary op left right =>
    have first := Expr.eval_balanced kept left
    have second := Expr.eval_balanced kept right
    exact .andThen first fun _ => .andThen second fun _ => ofExcept_preserves _
  | conditional condition positive negative =>
    refine .andThen (Expr.eval_balanced kept condition) fun value => ?_
    refine .andThen (ofExcept_preserves _) fun chosen => ?_
    cases chosen with
    | true => exact Expr.eval_balanced kept positive
    | false => exact Expr.eval_balanced kept negative
  | block instructions body =>
    -- Inside the frame the instructions may change it, and so it is left with no more than `Extends`.
    have before := Statement.evalAll_extends kept instructions
    have last := extends_of_balanced (Expr.eval_balanced kept body)
    exact inFrame_balanced (.andThen before fun _ => last)
  | call name arguments line =>
    exact .andThen (Expr.evalAll_balanced kept arguments) fun values =>
      call_balanced kept name values line
  | figure kind arguments =>
    exact .andThen (Expr.evalAll_balanced kept arguments) fun _ =>
      draw_balanced (Builtin.apply_steady _ _ _)
  | sequence elements =>
    exact .andThen (Expr.evalAll_balanced kept elements) fun _ => ofExcept_preserves _
termination_by structural e

theorem Expr.evalAll_balanced {beyond : Beyond} (kept : beyond.Balanced) (es : List Expr) :
    Preserves Balanced (Expr.evalAll beyond es).run := by
  cases es with
  | nil => exact .done _
  | cons first rest =>
    have later := Expr.evalAll_balanced kept rest
    exact .andThen (Expr.eval_balanced kept first) fun _ => .andThen later fun _ => .done _
termination_by structural es

theorem Statement.eval_extends {beyond : Beyond} (kept : beyond.Balanced) (statement : Statement) :
    Preserves Extends (statement.eval beyond).run := by
  cases statement with
  | expression value =>
    exact .andThen (extends_of_balanced (Expr.eval_balanced kept value)) fun _ => .done _
  | assign name value line =>
    refine .andThen (extends_of_balanced (Expr.eval_balanced kept value)) fun _ => ?_
    exact .andThen (setConstant_extends name _ line) fun _ => .done _
  | assignMany names value line =>
    refine .andThen (extends_of_balanced (Expr.eval_balanced kept value)) fun _ => ?_
    refine .andThen (ofExcept_preserves _) fun _ => ?_
    exact .andThen (assignEach_extends line names _) fun _ => .done _
  | function =>
    refine .andThen (ofExcept_preserves _) fun _ => ?_
    exact .andThen (updateScope_extends fun _ _ => Scope.declare_outer) fun _ => .done _
  | importFile path line => exact .andThen (importFile_extends kept path line) fun _ => .done _
  | draw value label line =>
    refine .andThen (extends_of_balanced (Expr.eval_balanced kept value)) fun _ => ?_
    exact .andThen (extends_of_balanced (drawValue_balanced _ label line)) fun _ => .done _
  | print value =>
    refine .andThen (extends_of_balanced (Expr.eval_balanced kept value)) fun _ => ?_
    exact .andThen (extends_of_balanced (print_balanced _)) fun _ => .done _
  | color => exact .getThen fun context => setScope_extends context rfl
  | restore => exact .getThen fun context => setScope_extends context Scope.restoreColor_outer
  | random kind isSequence name line =>
    refine .andThen (extends_of_balanced (randomValue_balanced kind isSequence)) fun _ => ?_
    exact .andThen (setConstant_extends name _ line) fun _ => .done _
termination_by structural statement

theorem Statement.evalAll_extends {beyond : Beyond} (kept : beyond.Balanced)
    (instructions : List Statement) :
    Preserves Extends (Statement.evalAll beyond instructions).run := by
  cases instructions with
  | nil => exact .done _
  | cons first rest =>
    have later := Statement.evalAll_extends kept rest
    exact .andThen (Statement.eval_extends kept first) fun _ => later
termination_by structural instructions

end

theorem Program.eval_extends {beyond : Beyond} (kept : beyond.Balanced) (program : Program) :
    Preserves Extends (program.eval beyond).run := by
  induction program with
  | nil => exact .done _
  | cons first rest ih =>
    refine .andThen (attempt_preserves (Statement.eval_extends kept first)) fun outcome => ?_
    refine .andThen ih fun later => ?_
    cases outcome <;> exact .done _

namespace Beyond

theorem ofCalls_balanced {program : Nat → Program → Evaluation (List EvalError)}
    (kept : ∀ calls p, Preserves Extends (program calls p).run) (calls : Nat) :
    (ofCalls program calls).Balanced := by
  induction calls with
  | zero => exact ⟨fun _ absent => (nomatch absent), kept 0⟩
  | succ calls ih =>
    refine ⟨fun evalBody entered body => ?_, kept (calls + 1)⟩
    cases entered
    exact Expr.eval_balanced ih body

/-- However many files and calls are left, what they run keeps frames and call depth. -/
theorem ofBounds_balanced (files calls : Nat) : (ofBounds files calls).Balanced := by
  induction files generalizing calls with
  | zero => exact ofCalls_balanced (fun _ _ => .done _) calls
  | succ files ih =>
    refine ofCalls_balanced (fun calls program => ?_) calls
    exact .andThen (Program.eval_extends (ih calls) program) fun _ => .done _

end Beyond

theorem Context.run_extends (context : Context) (program : Program) :
    Extends context (context.run program).2 :=
  Program.eval_extends (Beyond.ofBounds_balanced _ _) program context

/-- In every state, and whether it ends in a value or in an error, an expression leaves all frames
and the call depth as they were, and an instruction all but the active frame. -/
theorem Context.frames_balanced (context : Context) :
    (∀ e : Expr, context.Balanced (e.eval context.beyond context).2) ∧
    ∀ statement : Statement, context.Extends (statement.eval context.beyond context).2 := by
  have kept : context.beyond.Balanced := Beyond.ofBounds_balanced _ _
  constructor
  · intro e
    exact Expr.eval_balanced kept e context
  · intro statement
    exact Statement.eval_extends kept statement context

end GSharp
