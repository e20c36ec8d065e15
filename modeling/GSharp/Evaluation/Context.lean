import GSharp.Builtin
import GSharp.Files
import GSharp.Scope

namespace GSharp

/-- What a run shows to its host. -/
inductive Event where
  | drawn (figure : Figure) (color : Color) (label : Option String)
  | printed (text : String)
  | reported (text : String)
  deriving DecidableEq

/-- The canvas of the host, and the texts that it refuses to print: printing one of them crashes
the run, with a reason if the host gives any. -/
structure Host where
  width : Nat := 100
  height : Nat := 100
  refusal : String → Option (Option String) := fun _ => none

/-- The seed that all chance of a run comes from, and how deep calls may nest. There always is a
seed: where none is asked for, one is drawn from the system before the run, and not in it. -/
structure Settings where
  seed : UInt64 := 0
  maxCallDepth : Nat := 256

structure Context where
  scope : Scope
  library : Library
  settings : Settings
  host : Host
  files : Files
  /-- What the host has been shown, the latest first. -/
  log : List Event
  callDepth : Nat
  /-- The keys of the files imported so far. -/
  imported : List String

/-- The state at the start of a run. Its library is created from the seed and the canvas. -/
def Context.create (host : Host) (settings : Settings) (files : Files) : Context where
  scope := {}
  library := .create host.width host.height settings.seed
  settings
  host
  files
  log := []
  callDepth := 0
  imported := []

/-- A computation on the state that gives a value, fails, or crashes. A failure leaves the state as
it was when it arose, so that the run can go on with the next instruction. -/
abbrev Evaluation := ExceptT Stop (StateM Context)

namespace Evaluation

variable {α : Type}

def ofExcept (result : Except EvalError α) : Evaluation α :=
  match result with
  | .ok value => return value
  | .error error => throw (.failed error)

def fail (fault : EvalFault) (line : Nat) : Evaluation α := throw (.failed ⟨fault, line⟩)

/-- Draws from the library of the run. -/
def draw (draw : Draw α) : Evaluation α := fun context =>
  let (result, library) := draw context.library
  (result, { context with library })

def setScope (scope : Scope) : Evaluation Unit := modify fun context => { context with scope }

/-- Changes the scope, or fails and leaves it. -/
def updateScope (update : Scope → Except EvalError Scope) : Evaluation Unit := do
  setScope (← ofExcept (update (← get).scope))

/-- Shows an event to the host. -/
def emit (event : Event) : Evaluation Unit :=
  modify fun context => { context with log := event :: context.log }

/-- Runs a computation in a new frame, which is left however the computation ends. -/
def inFrame (body : Evaluation α) : Evaluation α := fun context =>
  let (result, after) := body { context with scope := context.scope.enter }
  (result, { after with scope := after.scope.exit })

/-- Runs a computation one call deeper. -/
def inCall (body : Evaluation α) : Evaluation α := fun context =>
  let (result, after) := body { context with callDepth := context.callDepth + 1 }
  (result, { after with callDepth := after.callDepth - 1 })

/-- The value or the error of a computation. A crash goes through. -/
def attempt (body : Evaluation α) : Evaluation (Except EvalError α) := fun context =>
  match body context with
  | (.ok value, after) => (.ok (.ok value), after)
  | (.error (.failed error), after) => (.ok (.error error), after)
  | (.error (.crashed reason), after) => (.error (.crashed reason), after)

end Evaluation

end GSharp
