import GSharp.Evaluation.Eval
import GSharp.Proofs.Guarantee

/-!
Evaluation that takes notes. It goes the same way as evaluation, and puts down every value, every
state, every body that is entered and every file that is run. What it reaches outside a tree it
reaches by a clock alone: nothing but the checks of the program keeps it from running out of time.
-/
namespace GSharp

inductive Note where
  /-- An expression gave a value. -/
  | gave (value : Value)
  /-- A step of the evaluation led to a state. -/
  | reached (context : Context)
  /-- The body of a declared function was entered from a state, with arguments. -/
  | entered (caller : Context) (arguments : List Value)
  /-- The file of a key was read, to be scanned and run. -/
  | loaded (key : String)

/-- A state, and the notes taken so far, the latest first. -/
abbrev Watched := Context × List Note

/-- An evaluation that takes notes. -/
abbrev Traced := ExceptT Stop (StateM Watched)

namespace Traced

variable {α : Type}

def note (note : Note) : Traced Unit := modify fun (context, notes) => (context, note :: notes)

/-- A step in which there is nothing to note but the state it leads to. -/
def lift (body : Evaluation α) : Traced α := fun (context, notes) =>
  let (result, after) := body context
  (result, after, .reached after :: notes)

/-- Notes the value of an expression. -/
def giving (body : Traced Value) : Traced Value := do
  let value ← body
  note (.gave value)
  return value

/-- Runs a computation in a changed state, and changes the state that it leaves. -/
def between (enter leave : Context → Context) (body : Traced α) : Traced α :=
  fun (context, notes) =>
    let (result, after, notes) := body (enter context, notes)
    (result, leave after, notes)

def inFrame (body : Traced α) : Traced α :=
  between (fun context => { context with scope := context.scope.enter })
    (fun after => { after with scope := after.scope.exit }) body

def inCall (body : Traced α) : Traced α :=
  between (fun context => { context with callDepth := context.callDepth + 1 })
    (fun after => { after with callDepth := after.callDepth - 1 }) body

def attempt (body : Traced α) : Traced (Except EvalError α) := fun watched =>
  match body watched with
  | (.ok value, after) => (.ok (.ok value), after)
  | (.error (.failed error), after) => (.ok (.error error), after)
  | (.error (.crashed reason), after) => (.error (.crashed reason), after)

section Ensures

variable {I : Watched → Prop} {P : α → Prop}

theorem note_ensures {note : Note}
    (kept : ∀ context notes, I (context, notes) → I (context, note :: notes)) :
    Keeps I (Traced.note note) :=
  .modify fun (context, notes) => kept context notes

theorem giving_ensures {V : Value → Prop} {body : Traced Value}
    (kept : ∀ value context notes, V value → I (context, notes) → I (context, .gave value :: notes))
    (ensures : Ensures I V body) : Ensures I V (giving body) :=
  .andThen ensures fun value holds =>
    .andThen (note_ensures fun context notes => kept value context notes holds) fun _ _ =>
      .done holds

theorem between_ensures {enter leave : Context → Context} {body : Traced α}
    (entering : ∀ context notes, I (context, notes) → I (enter context, notes))
    (leaving : ∀ context notes, I (context, notes) → I (leave context, notes))
    (ensures : Ensures I P body) : Ensures I P (between enter leave body) :=
  fun (context, notes) before =>
    have inside := ensures (enter context, notes) (entering context notes before)
    ⟨leaving _ _ inside.1, inside.2⟩

theorem attempt_ensures {body : Traced α} (ensures : Ensures I P body) :
    Ensures I (Gives P) (attempt body) := by
  intro watched before
  obtain ⟨kept, gives⟩ := ensures watched before
  simp only [ExceptT.run] at kept gives
  simp only [attempt, ExceptT.run]
  split <;> rename_i ended <;> rw [ended] at kept gives
  · exact ⟨kept, .ok (.ok (gives _ rfl))⟩
  · exact ⟨kept, .ok (.error _)⟩
  · exact ⟨kept, .error _⟩

end Ensures

end Traced

/-- The ways out of a tree. Whether a body may be entered is up to the state. -/
structure Ways where
  body? : Context → Option (Expr → Traced Value)
  program : Program → Traced (List EvalError)

namespace Traced

variable (ways : Ways)

def callDeclared (name : String) (arguments : List Value) (line : Nat) : Traced Value := do
  let (context, _) ← get
  match context.scope.function? name with
  | none => lift (Evaluation.fail (.unknownFunction name) line)
  | some function =>
    if arguments.length ≠ function.parameters.length then
      lift (Evaluation.fail
        (.argumentCount name function.parameters.length arguments.length) line)
    else match ways.body? context with
      | none => lift (Evaluation.fail (.stackOverflow context.callDepth) line)
      | some evalBody => do
        note (.entered context arguments)
        inCall <| inFrame do
          lift (Evaluation.bindArguments function.parameters arguments)
          evalBody function.body

def call (name : String) (arguments : List Value) (line : Nat) : Traced Value :=
  match Builtin.ofName? name with
  | some builtin => lift (Evaluation.draw (builtin.apply arguments line))
  | none => callDeclared ways name arguments line

def importFile (path : String) (line : Nat) : Traced Unit := do
  let failed (details : String) : Traced Unit :=
    lift (Evaluation.fail (.importFailed path details) line)
  let (context, _) ← get
  match context.files.resolve path with
  | .error fault => failed fault.text
  | .ok key =>
    if key ∈ context.imported then return
    match context.files.read key with
    | .error fault => failed fault.text
    | .ok source =>
      note (.loaded key)
      lift (modify fun context => { context with imported := key :: context.imported })
      let scanned := scan source
      let parsed := parse scanned.tokens
      if !scanned.errors.isEmpty then
        failed (Evaluation.describe LexicalFault.message scanned.errors)
      else if !parsed.errors.isEmpty then
        failed (Evaluation.describe SyntaxFault.message parsed.errors)
      else
        let errors ← ways.program parsed.program
        if !errors.isEmpty then failed (Evaluation.describe EvalFault.message errors)

end Traced

open Traced

mutual

def Expr.trace (ways : Ways) (expr : Expr) : Traced Value :=
  giving <| match expr with
  | .literal value _ => return .ofLiteral value
  | .undefined _ => return .undefined
  | .constant name line =>
    lift do Evaluation.ofExcept ((← get).scope.get name line)
  | .group inner _ => inner.trace ways
  | .unary op operand line => do
    let value ← operand.trace ways
    lift (Evaluation.ofExcept (op.apply value line))
  | .binary op left right line => do
    let a ← left.trace ways
    let b ← right.trace ways
    lift (Evaluation.ofExcept (op.apply a b line))
  | .conditional condition positive negative line => do
    let value ← condition.trace ways
    if ← lift (Evaluation.ofExcept (value.asBoolean line)) then positive.trace ways
    else negative.trace ways
  | .block instructions body _ => inFrame do
    Statement.traceAll ways instructions
    body.trace ways
  | .call name arguments line => do
    let values ← Expr.traceAll ways arguments
    Traced.call ways name values line
  | .figure kind arguments line => do
    let values ← Expr.traceAll ways arguments
    lift (Evaluation.draw ((Builtin.ofFigureKind kind).apply values line))
  | .sequence elements line => do
    let values ← Expr.traceAll ways elements
    lift (Evaluation.ofExcept ((Sequence.ofList values line).map .sequence))
  | .infinite start _ => return .sequence (.infinite start)
  | .range start finish _ => return .sequence (.range start finish)

def Expr.traceAll (ways : Ways) : List Expr → Traced (List Value)
  | [] => return []
  | first :: rest => do
    let value ← first.trace ways
    let values ← Expr.traceAll ways rest
    return value :: values

def Statement.trace (ways : Ways) : Statement → Traced (Option Value)
  | .expression value _ => do return some (← value.trace ways)
  | .assign name value line => do
    let value ← value.trace ways
    lift (Evaluation.updateScope fun scope => scope.setConstant name value line)
    return none
  | .assignMany names value line => do
    let value ← value.trace ways
    let elements ← lift (Evaluation.ofExcept (value.asSequence line))
    lift (Evaluation.assignEach line names (elements.take names.length))
    return none
  | .function name parameters body line => lift do
    Evaluation.ofExcept (Builtin.checkName name line)
    Evaluation.updateScope fun scope => scope.declare ⟨name, parameters, body, line⟩
    return none
  | .importFile path line => do
    Traced.importFile ways path line
    return none
  | .draw value label line => do
    let value ← value.trace ways
    lift (Evaluation.drawValue value label line)
    return none
  | .print value label _ => do
    let value ← value.trace ways
    lift (Evaluation.print (match label with
      | some label => label ++ ": " ++ value.text
      | none => value.text))
    return none
  | .color color _ => lift do
    Evaluation.setScope ((← get).scope.pushColor color)
    return none
  | .restore _ => lift do
    Evaluation.setScope (← get).scope.restoreColor
    return none
  | .random kind isSequence name line => do
    let value ← lift (Evaluation.randomValue kind isSequence)
    lift (Evaluation.updateScope fun scope => scope.setConstant name value line)
    return none

def Statement.traceAll (ways : Ways) : List Statement → Traced Unit
  | [] => return
  | first :: rest => do
    let _ ← first.trace ways
    Statement.traceAll ways rest

end

def Program.trace (ways : Ways) : Program → Traced (Option Value × List EvalError)
  | [] => return (none, [])
  | first :: rest => do
    let outcome ← Traced.attempt (first.trace ways)
    let (later, errors) ← Program.trace ways rest
    match outcome with
    | .ok value => return (later.or value, errors)
    | .error error => return (later, error :: errors)

/-- The check that stands before every body: no call nests deeper than the settings say. -/
def Ways.checked (evalBody : Expr → Traced Value) (program : Program → Traced (List EvalError)) :
    Ways where
  body? := fun context =>
    if context.callDepth < context.settings.maxCallDepth then some evalBody else none
  program

/-- The ways out of a tree by a clock that runs down one tick for each body or file entered inside
another. To enter one when the time is over is to crash. -/
def Ways.clocked (expired : Option String) : Nat → Ways
  | 0 => checked (fun _ => throw (.crashed expired)) fun _ => throw (.crashed expired)
  | time + 1 =>
    checked (fun body => body.trace (clocked expired time)) fun program => do
      return (← program.trace (clocked expired time)).2

end GSharp
