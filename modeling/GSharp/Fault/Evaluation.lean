import GSharp.Fault.Located
import GSharp.Syntax
import GSharp.Value.Kind

namespace GSharp

/-- The kinds of argument that built-in functions ask for. -/
inductive Demand where
  | number | point | measure | figure | sequence
  deriving DecidableEq, Repr

def Demand.text : Demand → String
  | number => "a number"
  | point => "a point"
  | measure => "a measure"
  | figure => "a point, line, segment, ray, circle or arc"
  | sequence => "a sequence"

/-- Why a built-in function refuses an argument. -/
inductive ArgumentFault where
  | wrongKind (demand : Demand) (found : ValueKind)
  | undefinedLogarithm (value base : Float)
  | tooLong
  | unboundedFigure
  deriving DecidableEq

def ArgumentFault.text : ArgumentFault → String
  | wrongKind demand found => "expected " ++ demand.text ++ " but found " ++ found.text
  | undefinedLogarithm value base =>
    callText "log" [Number.text value, Number.text base] ++ " is undefined"
  | tooLong => "the sequence is too long to count"
  | unboundedFigure => "the figure has no finite extent to sample"

/-- Why an operator refuses its operands. -/
inductive OperandFault where
  | binary (op : BinaryOperator) (left right : ValueKind)
  | unary (op : UnaryOperator) (operand : ValueKind)
  | notArithmetic (op : BinaryOperator)
  | sequenceEquality
  deriving DecidableEq

def OperandFault.text : OperandFault → String
  | binary op left right =>
    "operator '" ++ op.text ++ "' can't be applied to " ++ left.text ++ " and " ++ right.text
  | unary op operand => "operator '" ++ op.text ++ "' can't be applied to " ++ operand.text
  | notArithmetic op => "operator '" ++ op.text ++ "' is not arithmetic"
  | sequenceEquality => "sequences can't be compared for equality"

inductive EvalFault where
  | unknownConstant (name : String)
  | unknownFunction (name : String)
  | constantRedeclaration (name : String)
  | functionAlreadyDefined (name : String)
  | builtinRedefinition (name : String)
  | argumentCount (function : String) (expected found : Nat)
  | invalidArgument (function : String) (fault : ArgumentFault)
  | notDrawable (found : ValueKind)
  | expectedSequence (found : ValueKind)
  | mixedSequence (expected found : ValueKind)
  | concatenationMismatch (appended receiver : ValueKind)
  | infiniteDrawing
  | importFailed (path details : String)
  | invalidOperands (fault : OperandFault)
  | expectedBoolean (found : ValueKind)
  | divisionByZero
  | stackOverflow (depth : Nat)
  deriving DecidableEq

def EvalFault.message : EvalFault → String
  | unknownConstant name => "Constant '" ++ name ++ "' doesn't exist."
  | unknownFunction name => "Function '" ++ name ++ "' doesn't exist."
  | constantRedeclaration name =>
    "Another constant named '" ++ name ++ "' already exists and can't be altered."
  | functionAlreadyDefined name => "Function '" ++ name ++ "' is already defined."
  | builtinRedefinition name => "'" ++ name ++ "' is a built-in function and can't be redefined."
  | argumentCount function expected found =>
    "Function '" ++ function ++ "' expects " ++ Nat.repr expected ++ " argument(s) but received "
      ++ Nat.repr found ++ "."
  | invalidArgument function fault =>
    "Invalid argument for '" ++ function ++ "': " ++ fault.text ++ "."
  | notDrawable found => "Can't draw a value of type " ++ found.text ++ "."
  | expectedSequence found => "Expected a sequence but found " ++ found.text ++ "."
  | mixedSequence expected found =>
    "A sequence of type " ++ expected.text ++ " can't contain an element of type "
      ++ found.text ++ "."
  | concatenationMismatch appended receiver =>
    "Cannot concatenate a sequence of type " ++ appended.text ++ " to a sequence of type "
      ++ receiver.text ++ "."
  | infiniteDrawing => "Can't draw an infinite sequence."
  | importFailed path details => "Could not import '" ++ path ++ "': " ++ details ++ "."
  | invalidOperands fault => "Type error: " ++ fault.text ++ "."
  | expectedBoolean found => "Condition must be boolean but found " ++ found.text ++ "."
  | divisionByZero => "Division by zero."
  | stackOverflow depth =>
    "Stack overflow: more than " ++ Nat.repr depth ++ " nested function calls."

/-- Faults that depend on the values met; the others name what the program says wrongly. -/
def EvalFault.isRuntime : EvalFault → Bool
  | invalidOperands _ | expectedBoolean _ | divisionByZero | stackOverflow _ => true
  | _ => false

abbrev EvalError := Located EvalFault

end GSharp
