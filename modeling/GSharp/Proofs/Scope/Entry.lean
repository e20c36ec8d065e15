import GSharp.Proofs.Scope.Changes

namespace GSharp

/-- What a name stands for as a constant, as an argument and as a function, and whether it was
claimed as a constant and declared as a function. -/
structure Entry where
  constant : Option Value
  argument : Option Value
  function : Option FunctionDef
  reserved : Bool
  declared : Bool

namespace Entry

/-- A constant takes the place of an argument. -/
def bindConstant (entry : Entry) (value : Value) : Entry :=
  { entry with constant := some value, argument := none, reserved := true }

def bindFunction (entry : Entry) (function : FunctionDef) : Entry :=
  { entry with function := some function, declared := true }

/-- One declaration under a name that was not taken. -/
inductive Declares : Entry → Entry → Prop where
  | constant {entry : Entry} (free : entry.reserved = false) (value : Value) :
      Declares entry (entry.bindConstant value)
  | function {entry : Entry} (free : entry.declared = false) (function : FunctionDef) :
      Declares entry (entry.bindFunction function)

end Entry

namespace Frame

def entry (frame : Frame) (name : String) : Entry where
  constant := frame.constants.find? name
  argument := frame.arguments.find? name
  function := frame.functions.find? name
  reserved := frame.reserved.contains name
  declared := frame.declared.contains name

variable {frame : Frame} {name other : String}

theorem entry_bindConstant (value : Value) :
    (frame.bindConstant name value).entry name = (frame.entry name).bindConstant value := by
  simp [entry, bindConstant, Entry.bindConstant]

theorem entry_bindConstant_of_ne (different : other ≠ name) (value : Value) :
    (frame.bindConstant name value).entry other = frame.entry other := by
  simp [entry, bindConstant, different]

theorem entry_bindFunction (function : FunctionDef) :
    (frame.bindFunction function).entry function.name =
      (frame.entry function.name).bindFunction function := by
  simp [entry, bindFunction, Entry.bindFunction]

theorem entry_bindFunction_of_ne {function : FunctionDef} (different : other ≠ function.name) :
    (frame.bindFunction function).entry other = frame.entry other := by
  simp [entry, bindFunction, different]

/-- The frame after makes the one declaration, if there is any, and says the same of every other
name. -/
structure Declares (name? : Option String) (before after : Frame) : Prop where
  own : ∀ name ∈ name?, (before.entry name).Declares (after.entry name)
  others : ∀ name ∉ name?, after.entry name = before.entry name

end Frame

namespace Scope

variable {scope after : Scope} {name : String} {line : Nat}

/-- The name under which a constant is declared. Under the discarded one there is none. -/
def shown? (name : String) : Option String := if name = discard then none else some name

theorem setConstant_declares {value : Value}
    (bound : scope.setConstant name value line = .ok after) :
    scope.active.Declares (shown? name) after.active := by
  rcases setConstant_eq_ok.mp bound with ⟨rfl, rfl⟩ | ⟨shown, free, rfl⟩
  · exact ⟨fun _ absent => (nomatch absent), fun _ _ => rfl⟩
  · rw [shown?, if_neg shown]
    refine ⟨?_, fun other different => ?_⟩
    · rintro _ ⟨⟩
      rw [Frame.entry_bindConstant]
      exact .constant (by simpa [Frame.entry] using free) value
    · exact Frame.entry_bindConstant_of_ne (fun same => different (congrArg some same.symm)) value

theorem declare_declares {function : FunctionDef} (declared : scope.declare function = .ok after) :
    scope.active.Declares (some function.name) after.active := by
  obtain ⟨free, rfl⟩ := declare_eq_ok.mp declared
  refine ⟨?_, fun other different => ?_⟩
  · rintro _ ⟨⟩
    rw [Frame.entry_bindFunction]
    exact .function (by simpa [Frame.entry] using free) function
  · exact Frame.entry_bindFunction_of_ne fun same => different (congrArg some same.symm)

end Scope

end GSharp
