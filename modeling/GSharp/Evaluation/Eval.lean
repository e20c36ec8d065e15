import GSharp.Evaluation.Context
import GSharp.Syntax.Parse
import GSharp.Token.Scan
import GSharp.Value.Drawing
import GSharp.Value.Operator

/-!
Evaluation of expressions, instructions and programs. A tree is evaluated by recursion on itself;
what it can reach outside itself, the body of a called function or the program of an imported file,
is handed in. Calls are bounded by the depth that is left, imports by the number of files.
-/
namespace GSharp

/-- The ways out of a tree. There is no way into a function body where no call may nest any more. -/
structure Beyond where
  body? : Option (Expr → Evaluation Value)
  program : Program → Evaluation (List EvalError)

namespace Evaluation

/-- Binds the parameters of a function in the active frame. -/
def bindArguments : List String → List Value → Evaluation Unit
  | name :: names, value :: values => do
    setScope ((← get).scope.setArgument name value)
    bindArguments names values
  | _, _ => return

/-- Calls a function that the program declared. -/
def callDeclared (beyond : Beyond) (name : String) (arguments : List Value) (line : Nat) :
    Evaluation Value := do
  let context ← get
  match context.scope.function? name with
  | none => fail (.unknownFunction name) line
  | some function =>
    if arguments.length ≠ function.parameters.length then
      fail (.argumentCount name function.parameters.length arguments.length) line
    else match beyond.body? with
      | none => fail (.stackOverflow context.callDepth) line
      | some evalBody => inCall <| inFrame do
        bindArguments function.parameters arguments
        evalBody function.body

/-- Calls a function by name. The built-in ones cannot be replaced. -/
def call (beyond : Beyond) (name : String) (arguments : List Value) (line : Nat) :
    Evaluation Value :=
  match Builtin.ofName? name with
  | some builtin => draw (builtin.apply arguments line)
  | none => callDeclared beyond name arguments line

/-- Binds names to the elements of a sequence in turn; names past its end are undefined. -/
def assignEach (line : Nat) : List String → List Value → Evaluation Unit
  | [], _ => return
  | name :: names, values => do
    updateScope fun scope => scope.setConstant name (values.head?.getD .undefined) line
    assignEach line names values.tail

/-- Shows figures to the host in the current color. -/
def drawFigures (label : Option String) : List Figure → Evaluation Unit
  | [] => return
  | first :: rest => do
    emit (.drawn first (← get).scope.color label)
    drawFigures label rest

def drawValue (value : Value) (label : Option String) (line : Nat) : Evaluation Unit := do
  let drawing := value.drawing
  drawFigures label drawing.figures
  match drawing.stopped with
  | some fault => fail fault line
  | none => return

/-- Prints a text, which the host may refuse. -/
def print (text : String) : Evaluation Unit := do
  match (← get).host.refusal text with
  | some reason => throw (.crashed reason)
  | none => emit (.printed text)

/-- A random figure, or a random sequence of figures of one kind. -/
def randomValue (kind : FigureKind) (isSequence : Bool) : Evaluation Value :=
  draw (α := Value) <|
    if isSequence then (Value.sequence <$> Library.sequence kind : StateM Library Value)
    else (Value.figure <$> Library.figure kind : StateM Library Value)

/-- The details of a failed import: the errors found in the file. -/
def describe {Fault : Type} (message : Fault → String) (errors : List (Located Fault)) : String :=
  "; ".intercalate
    (errors.map fun e => "line " ++ Nat.repr e.line ++ ": " ++ message e.fault)

/-- Runs the program of a file, unless the file was imported before. It counts as imported from the
moment it has been read. -/
def importFile (beyond : Beyond) (path : String) (line : Nat) : Evaluation Unit := do
  let failed (details : String) : Evaluation Unit := fail (.importFailed path details) line
  let context ← get
  match context.files.resolve path with
  | .error fault => failed fault.text
  | .ok key =>
    if key ∈ context.imported then return
    match context.files.read key with
    | .error fault => failed fault.text
    | .ok source =>
      modify fun context => { context with imported := key :: context.imported }
      let scanned := scan source
      let parsed := parse scanned.tokens
      if !scanned.errors.isEmpty then failed (describe LexicalFault.message scanned.errors)
      else if !parsed.errors.isEmpty then failed (describe SyntaxFault.message parsed.errors)
      else
        let errors ← beyond.program parsed.program
        if !errors.isEmpty then failed (describe EvalFault.message errors)

end Evaluation

open Evaluation

mutual

def Expr.eval (beyond : Beyond) : Expr → Evaluation Value
  | .literal value _ => return .ofLiteral value
  | .undefined _ => return .undefined
  | .constant name line => do ofExcept ((← get).scope.get name line)
  | .group inner _ => inner.eval beyond
  | .unary op operand line => do
    let value ← operand.eval beyond
    ofExcept (op.apply value line)
  | .binary op left right line => do
    let a ← left.eval beyond
    let b ← right.eval beyond
    ofExcept (op.apply a b line)
  | .conditional condition positive negative line => do
    let value ← condition.eval beyond
    if ← ofExcept (value.asBoolean line) then positive.eval beyond else negative.eval beyond
  | .block instructions body _ => inFrame do
    Statement.evalAll beyond instructions
    body.eval beyond
  | .call name arguments line => do
    let values ← Expr.evalAll beyond arguments
    call beyond name values line
  | .figure kind arguments line => do
    let values ← Expr.evalAll beyond arguments
    draw ((Builtin.ofFigureKind kind).apply values line)
  | .sequence elements line => do
    let values ← Expr.evalAll beyond elements
    ofExcept ((Sequence.ofList values line).map .sequence)
  | .infinite start _ => return .sequence (.infinite start)
  | .range start finish _ => return .sequence (.range start finish)

def Expr.evalAll (beyond : Beyond) : List Expr → Evaluation (List Value)
  | [] => return []
  | first :: rest => do
    let value ← first.eval beyond
    let values ← Expr.evalAll beyond rest
    return value :: values

/-- Only an expression gives a value; the other instructions work on the state. -/
def Statement.eval (beyond : Beyond) : Statement → Evaluation (Option Value)
  | .expression value _ => do return some (← value.eval beyond)
  | .assign name value line => do
    let value ← value.eval beyond
    updateScope fun scope => scope.setConstant name value line
    return none
  | .assignMany names value line => do
    let value ← value.eval beyond
    let elements ← ofExcept (value.asSequence line)
    assignEach line names (elements.take names.length)
    return none
  | .function name parameters body line => do
    ofExcept (Builtin.checkName name line)
    updateScope fun scope => scope.declare ⟨name, parameters, body, line⟩
    return none
  | .importFile path line => do
    importFile beyond path line
    return none
  | .draw value label line => do
    let value ← value.eval beyond
    drawValue value label line
    return none
  | .print value label _ => do
    let value ← value.eval beyond
    print (match label with
      | some label => label ++ ": " ++ value.text
      | none => value.text)
    return none
  | .color color _ => do
    setScope ((← get).scope.pushColor color)
    return none
  | .restore _ => do
    setScope (← get).scope.restoreColor
    return none
  | .random kind isSequence name line => do
    let value ← randomValue kind isSequence
    updateScope fun scope => scope.setConstant name value line
    return none

/-- The instructions of a block: an error in one of them ends the block. -/
def Statement.evalAll (beyond : Beyond) : List Statement → Evaluation Unit
  | [] => return
  | first :: rest => do
    let _ ← first.eval beyond
    Statement.evalAll beyond rest

end

/-- The last value that a program gives, and the errors of its instructions. An error in one of them
does not keep the others from running. -/
def Program.eval (beyond : Beyond) : Program → Evaluation (Option Value × List EvalError)
  | [] => return (none, [])
  | first :: rest => do
    let outcome ← attempt (first.eval beyond)
    let (later, errors) ← Program.eval beyond rest
    match outcome with
    | .ok value => return (later.or value, errors)
    | .error error => return (later, error :: errors)

namespace Beyond

/-- The ways out where a number of calls may still nest, given what runs an imported program. -/
def ofCalls (program : Nat → Program → Evaluation (List EvalError)) : Nat → Beyond
  | 0 => ⟨none, program 0⟩
  | calls + 1 => ⟨some fun body => body.eval (ofCalls program calls), program (calls + 1)⟩

/-- The ways out where a number of files may still be imported and of calls may still nest. Where no
file is left every import is a repeated one, and there is nothing to run. -/
def ofBounds : Nat → Nat → Beyond
  | 0, calls => ofCalls (fun _ _ => return []) calls
  | files + 1, calls =>
    ofCalls (fun calls program => do return (← program.eval (ofBounds files calls)).2) calls

end Beyond

/-- The ways out of a tree that is evaluated in a state. -/
def Context.beyond (context : Context) : Beyond :=
  .ofBounds context.files.texts.length (context.settings.maxCallDepth - context.callDepth)

/-- Evaluates a program from a state on: its value and errors, or the crash that ended it, and the
state that it leaves. -/
def Context.run (context : Context) (program : Program) :
    Except Stop (Option Value × List EvalError) × Context :=
  program.eval context.beyond context

end GSharp
