import GSharp.Proofs.Evaluation.Balance
import GSharp.Proofs.Evaluation.Trace

namespace GSharp

open Context Evaluation Traced

/-- What it takes for every run to keep up an invariant, which may know how many frames are open.
All that a step without notes does to the state is what `R` says, and the steps that are not
balanced are the ones that bind a name. -/
structure Ways.Upholds (ways : Ways) (R : Nat → Context → Context → Prop)
    (I : Nat → Watched → Prop) : Prop where
  preorder : ∀ depth, IsPreorder Context (R depth)
  balanced : ∀ depth before after, Context.Balanced before after → R depth before after
  constant : ∀ depth name value line, Preserves (R depth)
    (updateScope fun scope => scope.setConstant name value line).run
  function : ∀ depth function line, Preserves (R depth) (do
      ofExcept (Builtin.checkName function.name line)
      updateScope fun scope => scope.declare function
      return none : Evaluation (Option Value)).run
  lift : ∀ {depth : Nat} {α : Type} {body : Evaluation α},
    Preserves (R depth) body.run → Keeps (I depth) (Traced.lift body)
  gave : ∀ depth value context notes, I depth (context, notes) →
    I depth (context, .gave value :: notes)
  inFrame : ∀ {depth : Nat} {body : Traced Value},
    Keeps (I (depth + 1)) body → Keeps (I depth) (Traced.inFrame body)
  call : ∀ depth name arguments line, Keeps (I depth) (Traced.call ways name arguments line)
  importFile : ∀ depth path line, Keeps (I depth) (Traced.importFile ways path line)

namespace Ways.Upholds

variable {ways : Ways} {R : Nat → Context → Context → Prop} {I : Nat → Watched → Prop}
  (upholds : ways.Upholds R I) (depth : Nat)

include upholds

theorem giving {body : Traced Value} (kept : Keeps (I depth) body) :
    Keeps (I depth) (Traced.giving body) :=
  giving_ensures (fun value context notes _ => upholds.gave depth value context notes) kept

theorem lift_balanced {α : Type} {body : Evaluation α} (balanced : Preserves Balanced body.run) :
    Keeps (I depth) (Traced.lift body) :=
  upholds.lift (balanced.weaken (upholds.balanced depth))

theorem assignEach (line : Nat) (names : List String) (values : List Value) :
    Preserves (R depth) (assignEach line names values).run := by
  have := upholds.preorder depth
  induction names generalizing values with
  | nil => exact .done _
  | cons name names ih => exact .andThen (upholds.constant depth name _ line) fun _ => ih _

end Ways.Upholds

-- The induction is on the tree, at every depth at once, since a block goes one deeper.
mutual

theorem Expr.trace_keeps {ways : Ways} {R : Nat → Context → Context → Prop}
    {I : Nat → Watched → Prop} (upholds : ways.Upholds R I) (depth : Nat) (e : Expr) :
    Keeps (I depth) (e.trace ways) := by
  cases e with
  | literal | undefined | infinite | range => exact upholds.giving depth (.done trivial)
  | constant =>
    refine upholds.giving depth (upholds.lift_balanced depth ?_)
    exact .andThen (.lift .get) fun _ => ofExcept_preserves _
  | group inner => exact upholds.giving depth (Expr.trace_keeps upholds depth inner)
  | unary op operand =>
    have operandKept := Expr.trace_keeps upholds depth operand
    refine upholds.giving depth (.andThen operandKept fun value _ => ?_)
    exact upholds.lift_balanced depth (ofExcept_preserves _)
  | binary op left right =>
    have leftKept := Expr.trace_keeps upholds depth left
    have rightKept := Expr.trace_keeps upholds depth right
    refine upholds.giving depth (.andThen leftKept fun _ _ => .andThen rightKept fun _ _ => ?_)
    exact upholds.lift_balanced depth (ofExcept_preserves _)
  | conditional condition positive negative =>
    have conditionKept := Expr.trace_keeps upholds depth condition
    refine upholds.giving depth (.andThen conditionKept fun value _ => ?_)
    refine .andThen (upholds.lift_balanced depth (ofExcept_preserves _)) fun chosen _ => ?_
    cases chosen with
    | true => exact Expr.trace_keeps upholds depth positive
    | false => exact Expr.trace_keeps upholds depth negative
  | block instructions body =>
    have before := Statement.traceAll_keeps upholds (depth + 1) instructions
    have last := Expr.trace_keeps upholds (depth + 1) body
    exact upholds.giving depth (upholds.inFrame (.andThen before fun _ _ => last))
  | call name arguments line =>
    have argumentsKept := Expr.traceAll_keeps upholds depth arguments
    exact upholds.giving depth <| .andThen argumentsKept fun values _ =>
      upholds.call depth name values line
  | figure kind arguments =>
    have argumentsKept := Expr.traceAll_keeps upholds depth arguments
    refine upholds.giving depth (.andThen argumentsKept fun values _ => ?_)
    exact upholds.lift_balanced depth (draw_balanced (Builtin.apply_steady _ _ _))
  | sequence elements =>
    have elementsKept := Expr.traceAll_keeps upholds depth elements
    refine upholds.giving depth (.andThen elementsKept fun values _ => ?_)
    exact upholds.lift_balanced depth (ofExcept_preserves _)
termination_by structural e

theorem Expr.traceAll_keeps {ways : Ways} {R : Nat → Context → Context → Prop}
    {I : Nat → Watched → Prop} (upholds : ways.Upholds R I) (depth : Nat) (es : List Expr) :
    Keeps (I depth) (Expr.traceAll ways es) := by
  cases es with
  | nil => exact .done trivial
  | cons first rest =>
    have firstKept := Expr.trace_keeps upholds depth first
    have restKept := Expr.traceAll_keeps upholds depth rest
    exact .andThen firstKept fun _ _ => .andThen restKept fun _ _ => .done trivial
termination_by structural es

theorem Statement.trace_keeps {ways : Ways} {R : Nat → Context → Context → Prop}
    {I : Nat → Watched → Prop} (upholds : ways.Upholds R I) (depth : Nat) (statement : Statement) :
    Keeps (I depth) (statement.trace ways) := by
  cases statement with
  | expression value =>
    exact .andThen (Expr.trace_keeps upholds depth value) fun _ _ => .done trivial
  | assign name value line =>
    refine .andThen (Expr.trace_keeps upholds depth value) fun value _ => ?_
    have bound := upholds.lift (upholds.constant depth name value line)
    exact .andThen bound fun _ _ => .done trivial
  | assignMany names value line =>
    refine .andThen (Expr.trace_keeps upholds depth value) fun value _ => ?_
    refine .andThen (upholds.lift_balanced depth (ofExcept_preserves _)) fun s _ => ?_
    have bound := upholds.lift (upholds.assignEach depth line names (s.take names.length))
    exact .andThen bound fun _ _ => .done trivial
  | function name parameters body line =>
    exact upholds.lift (upholds.function depth ⟨name, parameters, body, line⟩ line)
  | importFile path line =>
    exact .andThen (upholds.importFile depth path line) fun _ _ => .done trivial
  | draw value label line =>
    refine .andThen (Expr.trace_keeps upholds depth value) fun value _ => ?_
    have drawn := upholds.lift_balanced depth (drawValue_balanced value label line)
    exact .andThen drawn fun _ _ => .done trivial
  | print value =>
    refine .andThen (Expr.trace_keeps upholds depth value) fun value _ => ?_
    exact .andThen (upholds.lift_balanced depth (print_balanced _)) fun _ _ => .done trivial
  | color =>
    exact upholds.lift_balanced depth <| .getThen fun context => setScope_balanced context rfl rfl
  | restore =>
    refine upholds.lift_balanced depth (.getThen fun context => ?_)
    exact setScope_balanced context Scope.restoreColor_active Scope.restoreColor_outer
  | random kind isSequence name line =>
    have drawn := upholds.lift_balanced depth (randomValue_balanced kind isSequence)
    refine .andThen drawn fun value _ => ?_
    have bound := upholds.lift (upholds.constant depth name value line)
    exact .andThen bound fun _ _ => .done trivial
termination_by structural statement

theorem Statement.traceAll_keeps {ways : Ways} {R : Nat → Context → Context → Prop}
    {I : Nat → Watched → Prop} (upholds : ways.Upholds R I) (depth : Nat)
    (instructions : List Statement) : Keeps (I depth) (Statement.traceAll ways instructions) := by
  cases instructions with
  | nil => exact .done trivial
  | cons first rest =>
    have firstKept := Statement.trace_keeps upholds depth first
    exact .andThen firstKept fun _ _ => Statement.traceAll_keeps upholds depth rest
termination_by structural instructions

end

theorem Program.trace_keeps {ways : Ways} {R : Nat → Context → Context → Prop}
    {I : Nat → Watched → Prop} (upholds : ways.Upholds R I) (depth : Nat) (program : Program) :
    Keeps (I depth) (program.trace ways) := by
  induction program with
  | nil => exact .done trivial
  | cons first rest ih =>
    refine .andThen (attempt_ensures (first.trace_keeps upholds depth)) fun outcome _ => ?_
    refine .andThen ih fun later _ => ?_
    cases outcome <;> exact .done trivial

end GSharp
