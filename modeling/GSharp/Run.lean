import GSharp.Evaluation.Eval
import GSharp.Fault

namespace GSharp

/-- How a run ends. -/
inductive Outcome where
  | value (value : Value)
  | errors (errors : List Error)
  | crashed (reason : Option String)

/-- What a run showed to its host, in order, and how it ended. -/
structure Run where
  events : List Event
  outcome : Outcome

/-- Runs a source. Lexical errors keep it from being read, syntax errors from being evaluated; a
program without a value gives undefined. -/
def run (source : String) (host : Host := {}) (settings : Settings := {})
    (files : Files := .none) : Run :=
  let scanned := scan source
  let parsed := parse scanned.tokens
  if !scanned.errors.isEmpty then ⟨[], .errors (scanned.errors.map .lexical)⟩
  else if !parsed.errors.isEmpty then ⟨[], .errors (parsed.errors.map .grammatical)⟩
  else
    let (result, context) := (Context.create host settings files).run parsed.program
    let outcome := match result with
      | .ok (value, []) => .value (value.getD .undefined)
      | .ok (_, errors) => .errors (errors.map .evaluation)
      | .error (.failed error) => .errors [.evaluation error]
      | .error (.crashed reason) => .crashed reason
    ⟨context.log.reverse, outcome⟩

/-- The error that a crash is reported as. -/
def crashError (reason : Option String) : Error :=
  .host (reason.getD "the interpreter stopped unexpectedly")

/-- The errors of a run; a crash is one of the host. -/
def Outcome.errorList : Outcome → List Error
  | .value _ => []
  | .errors list => list
  | .crashed reason => [crashError reason]

/-- Runs a source and reports its errors to the host, after everything else. -/
def execute (source : String) (host : Host := {}) (settings : Settings := {})
    (files : Files := .none) : List Event :=
  let run := run source host settings files
  run.events ++ run.outcome.errorList.map fun error => .reported error.report

/-- One step of a session: the errors of each stage, the value, and what the host was shown. -/
structure SessionStep where
  lexicalErrors : List (Located LexicalFault)
  syntaxErrors : List SyntaxError
  result : Except Stop (Option Value × List EvalError)
  events : List Event

/-- Evaluates what can be read of a source from a state on, whatever errors there are in it. -/
def Context.step (context : Context) (source : String) : SessionStep × Context :=
  let scanned := scan source
  let parsed := parse scanned.tokens
  let (result, after) := { context with log := [] }.run parsed.program
  (⟨scanned.errors, parsed.errors, result, after.log.reverse⟩, after)

end GSharp
