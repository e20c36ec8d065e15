import GSharp.Color
import GSharp.Token

namespace GSharp

inductive BinaryOperator where
  | add | subtract | multiply | divide | power | remainder
  | less | greater | lessEqual | greaterEqual | equal | notEqual | and | or
  deriving DecidableEq, Repr

inductive UnaryOperator where
  | negate | not
  deriving DecidableEq, Repr

def BinaryOperator.sign : BinaryOperator → Sign
  | add => .plus
  | subtract => .minus
  | multiply => .star
  | divide => .slash
  | power => .caret
  | remainder => .percent
  | less => .less
  | greater => .greater
  | lessEqual => .lessEqual
  | greaterEqual => .greaterEqual
  | equal => .equalEqual
  | notEqual => .bangEqual
  | and => .ampersand
  | or => .pipe

def BinaryOperator.all : List BinaryOperator :=
  [add, subtract, multiply, divide, power, remainder,
    less, greater, lessEqual, greaterEqual, equal, notEqual, and, or]

def BinaryOperator.text (op : BinaryOperator) : String := op.sign.text

def UnaryOperator.sign : UnaryOperator → Sign
  | negate => .minus
  | not => .bang

def UnaryOperator.text (op : UnaryOperator) : String := op.sign.text

inductive Literal where
  | number (value : Float)
  | string (value : String)
  | boolean (value : Bool)
  deriving DecidableEq

mutual

/-- Every node keeps the line that its first token, or its operator, stands on. -/
inductive Expr where
  | literal (value : Literal) (line : Nat)
  | undefined (line : Nat)
  | constant (name : String) (line : Nat)
  | group (inner : Expr) (line : Nat)
  | unary (op : UnaryOperator) (operand : Expr) (line : Nat)
  | binary (op : BinaryOperator) (left right : Expr) (line : Nat)
  | conditional (condition positive negative : Expr) (line : Nat)
  | block (instructions : List Statement) (body : Expr) (line : Nat)
  | call (name : String) (arguments : List Expr) (line : Nat)
  | figure (kind : FigureKind) (arguments : List Expr) (line : Nat)
  | sequence (elements : List Expr) (line : Nat)
  | infinite (start : Float) (line : Nat)
  | range (start finish : Float) (line : Nat)

inductive Statement where
  | expression (value : Expr) (line : Nat)
  | assign (name : String) (value : Expr) (line : Nat)
  | assignMany (names : List String) (value : Expr) (line : Nat)
  | function (name : String) (parameters : List String) (body : Expr) (line : Nat)
  | importFile (path : String) (line : Nat)
  | draw (value : Expr) (label : Option String) (line : Nat)
  | print (value : Expr) (label : Option String) (line : Nat)
  | color (color : Color) (line : Nat)
  | restore (line : Nat)
  | random (kind : FigureKind) (isSequence : Bool) (name : String) (line : Nat)

end

instance : Inhabited Expr := ⟨.undefined 0⟩
instance : Inhabited Statement := ⟨.restore 0⟩

abbrev Program := List Statement

def Expr.line : Expr → Nat
  | .literal _ line | .undefined line | .constant _ line | .group _ line | .unary _ _ line
  | .binary _ _ _ line | .conditional _ _ _ line | .block _ _ line | .call _ _ line
  | .figure _ _ line | .sequence _ line | .infinite _ line | .range _ _ line => line

def Statement.line : Statement → Nat
  | .expression _ line | .assign _ _ line | .assignMany _ _ line | .function _ _ _ line
  | .importFile _ line | .draw _ _ line | .print _ _ line | .color _ line | .restore line
  | .random _ _ _ line => line

mutual

/-- The first function declared anywhere inside an expression, in reading order, with its line. -/
def Expr.declaration? : Expr → Option (String × Nat)
  | .literal _ _ | .undefined _ | .constant _ _ | .infinite _ _ | .range _ _ _ => none
  | .group inner _ => inner.declaration?
  | .unary _ operand _ => operand.declaration?
  | .binary _ left right _ => left.declaration?.or right.declaration?
  | .conditional condition positive negative _ =>
    condition.declaration?.or (positive.declaration?.or negative.declaration?)
  | .block instructions body _ => (Statement.declarations? instructions).or body.declaration?
  | .call _ arguments _ | .figure _ arguments _ | .sequence arguments _ =>
    Expr.declarations? arguments

def Expr.declarations? : List Expr → Option (String × Nat)
  | [] => none
  | first :: rest => first.declaration?.or (Expr.declarations? rest)

def Statement.declaration? : Statement → Option (String × Nat)
  | .function name _ _ line => some (name, line)
  | .expression value _ | .assign _ value _ | .assignMany _ value _ | .draw value _ _
  | .print value _ _ => value.declaration?
  | .importFile _ _ | .color _ _ | .restore _ | .random _ _ _ _ => none

def Statement.declarations? : List Statement → Option (String × Nat)
  | [] => none
  | first :: rest => first.declaration?.or (Statement.declarations? rest)

end

end GSharp
