import GSharp.Value

/-!
Scopes. A new frame starts with everything that can be seen from the frame it opens in, so looking a
name up reads the active frame alone; what a frame may not declare twice is kept apart.
-/
namespace GSharp

structure FunctionDef where
  name : String
  parameters : List String
  body : Expr
  line : Nat

/-- Values under names, the latest binding of a name first. -/
abbrev Bindings (α : Type) := List (String × α)

namespace Bindings

variable {α : Type}

def find? (bindings : Bindings α) (name : String) : Option α := bindings.lookup name

def insert (bindings : Bindings α) (name : String) (value : α) : Bindings α :=
  (name, value) :: bindings

def erase (bindings : Bindings α) (name : String) : Bindings α :=
  bindings.filter fun (bound, _) => bound ≠ name

end Bindings

structure Frame where
  constants : Bindings Value := []
  arguments : Bindings Value := []
  reserved : List String := []
  functions : Bindings FunctionDef := []
  declared : List String := []

/-- The frame opened inside another one: it sees the same names and has declared none. -/
def Frame.child (frame : Frame) : Frame := { frame with reserved := [], declared := [] }

/-- The frames from the active one outwards, and the drawing colors from the current one back. -/
structure Scope where
  active : Frame := {}
  outer : List Frame := []
  color : Color := .black
  earlierColors : List Color := []

namespace Scope

/-- The name that is never bound. -/
def discard : String := "_"

def depth (scope : Scope) : Nat := scope.outer.length + 1

def enter (scope : Scope) : Scope :=
  { scope with active := scope.active.child, outer := scope.active :: scope.outer }

/-- Leaves the active frame. The outermost one stays. -/
def exit (scope : Scope) : Scope :=
  match scope.outer with
  | [] => scope
  | frame :: rest => { scope with active := frame, outer := rest }

/-- Whether the active frame has claimed the name. -/
def exists? (scope : Scope) (name : String) : Bool := name ∈ scope.active.reserved

/-- Claims a name in the active frame, once. -/
def reserve (scope : Scope) (name : String) (line : Nat) : Except EvalError Scope :=
  if name = discard then .ok scope
  else if scope.exists? name then .error ⟨.constantRedeclaration name, line⟩
  else
    let frame := scope.active
    .ok { scope with active := { frame with reserved := name :: frame.reserved } }

/-- Claims a name and binds it, over an argument of that name. -/
def setConstant (scope : Scope) (name : String) (value : Value) (line : Nat) :
    Except EvalError Scope :=
  if name = discard then .ok scope
  else do
    let scope ← scope.reserve name line
    let frame := scope.active
    return { scope with
      active := { frame with
        arguments := frame.arguments.erase name
        constants := frame.constants.insert name value } }

/-- Binds an argument of the call that the active frame belongs to. -/
def setArgument (scope : Scope) (name : String) (value : Value) : Scope :=
  if name = discard then scope
  else
    let frame := scope.active
    { scope with active := { frame with arguments := frame.arguments.insert name value } }

/-- What a name stands for; an argument goes before a constant. -/
def get (scope : Scope) (name : String) (line : Nat) : Except EvalError Value :=
  match (scope.active.arguments.find? name).or (scope.active.constants.find? name) with
  | some value => .ok value
  | none => .error ⟨.unknownConstant name, line⟩

/-- Declares a function in the active frame, once by that name. -/
def declare (scope : Scope) (function : FunctionDef) : Except EvalError Scope :=
  let frame := scope.active
  if function.name ∈ frame.declared then
    .error ⟨.functionAlreadyDefined function.name, function.line⟩
  else
    .ok { scope with
      active := { frame with
        declared := function.name :: frame.declared
        functions := frame.functions.insert function.name function } }

def function? (scope : Scope) (name : String) : Option FunctionDef :=
  scope.active.functions.find? name

def pushColor (scope : Scope) (color : Color) : Scope :=
  { scope with color, earlierColors := scope.color :: scope.earlierColors }

/-- Goes back to the color before. The first one stays. -/
def restoreColor (scope : Scope) : Scope :=
  match scope.earlierColors with
  | [] => scope
  | color :: rest => { scope with color, earlierColors := rest }

end Scope

end GSharp
