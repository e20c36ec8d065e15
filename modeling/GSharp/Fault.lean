import GSharp.Fault.Evaluation
import GSharp.Fault.Lexical
import GSharp.Fault.Syntax

namespace GSharp

inductive Category where
  | lexical | grammatical | semantic | runtime
  deriving DecidableEq, Repr

def Category.text : Category → String
  | lexical => "LEXICAL"
  | grammatical => "SYNTAX"
  | semantic => "SEMANTIC"
  | runtime => "RUNTIME"

/-- An error of one of the stages, or the reason why the host stopped the run. -/
inductive Error where
  | lexical (error : Located LexicalFault)
  | grammatical (error : SyntaxError)
  | evaluation (error : EvalError)
  | host (message : String)
  deriving DecidableEq

namespace Error

def category? : Error → Option Category
  | lexical _ => some .lexical
  | grammatical _ => some .grammatical
  | evaluation e => some (if e.fault.isRuntime then .runtime else .semantic)
  | host _ => none

def line? : Error → Option Nat
  | lexical e => some e.line
  | grammatical e => some e.line
  | evaluation e => some e.line
  | host _ => none

def message : Error → String
  | lexical e => e.fault.message
  | grammatical e => e.fault.message
  | evaluation e => e.fault.message
  | host message => message

/-- The message after its category and line; a host error is its message alone. -/
def report (error : Error) : String :=
  match error.category?, error.line? with
  | some category, some line =>
    "! " ++ category.text ++ " ERROR at line " ++ Nat.repr line ++ ": " ++ error.message
  | _, _ => error.message

end Error

end GSharp
