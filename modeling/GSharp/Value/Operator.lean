import GSharp.Value.Sequence

namespace GSharp

namespace BinaryOperator

def mismatch (op : BinaryOperator) (left right : Value) (line : Nat) : EvalError :=
  ⟨.invalidOperands (.binary op left.kind right.kind), line⟩

/-- Addition, concatenation, and joining of sequences. Undefined is neutral on either side. -/
def plus (left right : Value) (line : Nat) : Except EvalError Value :=
  match left, right with
  | .undefined, other | other, .undefined => .ok other
  | .number a, .number b => .ok (.number (a + b))
  | .string a, .string b => .ok (.string (a ++ b))
  | .sequence a, .sequence b => (a.append b line).map .sequence
  | .figure (.measure a), .figure (.measure b) => .ok (.measure (.of (a.value + b.value)))
  | left, right => .error (mismatch .add left right line)

def numeric (op : BinaryOperator) (a b : Float) (line : Nat) : Except EvalError Value :=
  match op with
  | .subtract => .ok (.number (a - b))
  | .multiply => .ok (.number (a * b))
  | .divide => if b == 0 then .error ⟨.divisionByZero, line⟩ else .ok (.number (a / b))
  | .remainder =>
    if b == 0 then .error ⟨.divisionByZero, line⟩ else .ok (.number (Number.remainder a b))
  | .power => .ok (.number (a.pow b))
  | _ => .error ⟨.invalidOperands (.notArithmetic op), line⟩

/-- Arithmetic on numbers, and on measures: their difference, their ratio, and a measure taken a
whole number of times. -/
def arithmetic (op : BinaryOperator) (left right : Value) (line : Nat) : Except EvalError Value :=
  match op, left, right with
  | op, .number a, .number b => numeric op a b line
  | .subtract, .figure (.measure a), .figure (.measure b) =>
    .ok (.measure (.of (a.value - b.value)))
  | .multiply, .figure (.measure m), .number n | .multiply, .number n, .figure (.measure m) =>
    .ok (.measure (.of (m.value * Number.truncate n)))
  | .divide, .figure (.measure a), .figure (.measure b) => numeric .divide a.value b.value line
  | op, left, right => .error (mismatch op left right line)

/-- Ordering of two numbers or two measures. -/
def comparison (op : BinaryOperator) (left right : Value) (line : Nat) : Except EvalError Value :=
  let compare (a b : Float) : Except EvalError Value :=
    match op with
    | .less => .ok (.boolean (a < b))
    | .greater => .ok (.boolean (a > b))
    | .lessEqual => .ok (.boolean (a ≤ b))
    | .greaterEqual => .ok (.boolean (a ≥ b))
    | op => .error (mismatch op left right line)
  match left, right with
  | .number a, .number b => compare a b
  | .figure (.measure a), .figure (.measure b) => compare a.value b.value
  | left, right => .error (mismatch op left right line)

/-- Equality of values of one kind; values of different kinds differ. Sequences have none. -/
def equality (left right : Value) (line : Nat) : Except EvalError Bool :=
  match left, right with
  | .sequence _, .sequence _ => .error ⟨.invalidOperands .sequenceEquality, line⟩
  | left, right => .ok (left.kind = right.kind && left.equals right)

/-- Both operands must be boolean, the left one being looked at first. -/
def logic (op : BinaryOperator) (left right : Value) (line : Nat) : Except EvalError Value := do
  let a ← left.asBoolean line
  let b ← right.asBoolean line
  match op with
  | .and => return .boolean (a && b)
  | .or => return .boolean (a || b)
  | op => throw (mismatch op left right line)

def apply (op : BinaryOperator) (left right : Value) (line : Nat) : Except EvalError Value :=
  match op with
  | .add => plus left right line
  | .subtract | .multiply | .divide | .remainder | .power => arithmetic op left right line
  | .less | .greater | .lessEqual | .greaterEqual => comparison op left right line
  | .equal => (equality left right line).map .boolean
  | .notEqual => (equality left right line).map fun same => .boolean !same
  | .and | .or => logic op left right line

end BinaryOperator

def UnaryOperator.apply (op : UnaryOperator) (value : Value) (line : Nat) :
    Except EvalError Value :=
  match op with
  | .negate =>
    match value with
    | .number n => .ok (.number (-n))
    | other => .error ⟨.invalidOperands (.unary op other.kind), line⟩
  | .not => (value.asBoolean line).map fun b => .boolean !b

end GSharp
