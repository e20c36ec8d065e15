import GSharp.Scope
import Mathlib

namespace GSharp

namespace Bindings

variable {α : Type}

theorem find?_cons (bound name : String) (value : α) (rest : Bindings α) :
    find? ((bound, value) :: rest) name = if name = bound then some value else find? rest name := by
  by_cases same : name = bound
  · simp [find?, same]
  · simp [find?, List.lookup, beq_false_of_ne same, same]

@[simp] theorem find?_insert (bindings : Bindings α) (bound name : String) (value : α) :
    (bindings.insert bound value).find? name =
      if name = bound then some value else bindings.find? name := find?_cons ..

@[simp] theorem find?_erase (bindings : Bindings α) (erased name : String) :
    (bindings.erase erased).find? name =
      if name = erased then none else bindings.find? name := by
  induction bindings with
  | nil => simp [erase, find?]
  | cons binding rest ih =>
    obtain ⟨bound, value⟩ := binding
    rw [find?_cons]
    by_cases removed : bound = erased
    · have kept : erase ((bound, value) :: rest) erased = erase rest erased := by
        simp [erase, removed]
      rw [kept, ih, removed]
      split <;> rfl
    · have kept : erase ((bound, value) :: rest) erased = (bound, value) :: erase rest erased := by
        simp [erase, removed]
      rw [kept, find?_cons, ih]
      split
      · rename_i same
        simp [same, removed]
      · rfl

end Bindings

namespace Frame

/-- The frame after a constant was bound in it. -/
def bindConstant (frame : Frame) (name : String) (value : Value) : Frame :=
  { frame with
    reserved := name :: frame.reserved
    arguments := frame.arguments.erase name
    constants := frame.constants.insert name value }

/-- The frame after a function was declared in it. -/
def bindFunction (frame : Frame) (function : FunctionDef) : Frame :=
  { frame with
    declared := function.name :: frame.declared
    functions := frame.functions.insert function.name function }

end Frame

namespace Scope

variable {scope after : Scope} {name : String} {line : Nat}

/-- A name is claimed once in a frame. The discarded name is never claimed. -/
theorem setConstant_eq (scope : Scope) (name : String) (value : Value) (line : Nat) :
    scope.setConstant name value line =
      if name = discard then .ok scope
      else if name ∈ scope.active.reserved then .error ⟨.constantRedeclaration name, line⟩
      else .ok { scope with active := scope.active.bindConstant name value } := by
  by_cases ignored : name = discard
  · simp [setConstant, ignored]
  · by_cases claimed : name ∈ scope.active.reserved
    · simp [setConstant, reserve, exists?, ignored, claimed, bind, Except.bind]
    · simp [setConstant, reserve, exists?, ignored, claimed, bind, Except.bind, pure, Except.pure,
        Frame.bindConstant]

theorem setConstant_eq_ok {value : Value} : scope.setConstant name value line = .ok after ↔
    name = discard ∧ after = scope ∨
    name ≠ discard ∧ name ∉ scope.active.reserved ∧
      after = { scope with active := scope.active.bindConstant name value } := by
  rw [setConstant_eq]
  by_cases ignored : name = discard
  · simp [ignored, eq_comm]
  · by_cases claimed : name ∈ scope.active.reserved
    · simp [ignored, claimed]
    · simp [ignored, claimed, eq_comm]

theorem declare_eq_ok {function : FunctionDef} : scope.declare function = .ok after ↔
    function.name ∉ scope.active.declared ∧
      after = { scope with active := scope.active.bindFunction function } := by
  by_cases present : function.name ∈ scope.active.declared
  · simp [declare, present]
  · simp [declare, present, Frame.bindFunction, eq_comm]

theorem setConstant_outer {value : Value} (bound : scope.setConstant name value line = .ok after) :
    after.outer = scope.outer := by
  rcases setConstant_eq_ok.mp bound with ⟨_, rfl⟩ | ⟨_, _, rfl⟩ <;> rfl

theorem declare_outer {function : FunctionDef} (declared : scope.declare function = .ok after) :
    after.outer = scope.outer := by
  obtain ⟨_, rfl⟩ := declare_eq_ok.mp declared
  rfl

theorem setArgument_outer (name : String) (value : Value) :
    (scope.setArgument name value).outer = scope.outer := by
  unfold setArgument
  split <;> rfl

theorem restoreColor_active : scope.restoreColor.active = scope.active := by
  unfold restoreColor
  split <;> rfl

theorem restoreColor_outer : scope.restoreColor.outer = scope.outer := by
  unfold restoreColor
  split <;> rfl

end Scope

end GSharp
