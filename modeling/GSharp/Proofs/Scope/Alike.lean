import GSharp.Proofs.Scope.WellFormed
import GSharp.Proofs.Value.Alike

namespace GSharp

variable {R : Nat → Nat → Prop} {line line' : Nat}

/-- The same function, declared on lines that go together. -/
structure FunctionDef.Alike (R : Nat → Nat → Prop) (one two : FunctionDef) : Prop where
  name : two.name = one.name
  parameters : two.parameters = one.parameters
  body : one.body.Alike R two.body
  line : R one.line two.line

/-- Frames with the same values, in which the same functions are declared. -/
structure Frame.Alike (R : Nat → Nat → Prop) (one two : Frame) : Prop where
  constants : two.constants = one.constants
  arguments : two.arguments = one.arguments
  reserved : two.reserved = one.reserved
  functions : one.functions.Forall₂ (fun binding binding' =>
    binding'.1 = binding.1 ∧ binding.2.Alike R binding'.2) two.functions
  declared : two.declared = one.declared

/-- Scopes whose frames are alike, the hidden ones as well. -/
structure Scope.Alike (R : Nat → Nat → Prop) (one two : Scope) : Prop where
  active : one.active.Alike R two.active
  outer : one.outer.Forall₂ (Frame.Alike R) two.outer
  color : two.color = one.color
  earlierColors : two.earlierColors = one.earlierColors

namespace Scope

/-- The lines of the functions that a scope has in any of its frames. -/
def lines (scope : Scope) : List Nat :=
  (scope.active :: scope.outer).flatMap fun frame =>
    frame.functions.flatMap fun binding => binding.2.line :: binding.2.body.lines

theorem WellFormed.alike_self {scope : Scope} (wellFormed : scope.WellFormed)
    (lines : ∀ line ∈ scope.lines, R line line) : scope.Alike R scope := by
  have kept (frame : Frame) (inside : frame ∈ scope.active :: scope.outer)
      (sound : frame.WellFormed) : frame.Alike R frame := by
    refine ⟨rfl, rfl, rfl, List.forall₂_same.mpr fun binding present => ⟨rfl, ?_⟩, rfl⟩
    have known (line : Nat) (shown : line ∈ binding.2.line :: binding.2.body.lines) :
        R line line :=
      lines line <| List.mem_flatMap_of_mem inside <| List.mem_flatMap_of_mem present shown
    exact
      { name := rfl
        parameters := rfl
        body := binding.2.body.alike_self (sound.functions binding present)
          fun line inBody => known line (List.mem_cons_of_mem _ inBody)
        line := known _ List.mem_cons_self }
  exact
    { active := kept _ List.mem_cons_self wellFormed.active
      outer := List.forall₂_same.mpr fun frame present =>
        kept frame (List.mem_cons_of_mem _ present) (wellFormed.outer frame present)
      color := rfl
      earlierColors := rfl }

namespace Alike

variable {one two : Scope} (alike : one.Alike R two)

include alike

theorem withActive {frame frame' : Frame} (active : frame.Alike R frame') :
    Scope.Alike R { one with active := frame } { two with active := frame' } :=
  { alike with active }

theorem enter : one.enter.Alike R two.enter where
  active := { alike.active with reserved := rfl, declared := rfl }
  outer := .cons alike.active alike.outer
  color := alike.color
  earlierColors := alike.earlierColors

theorem exit : one.exit.Alike R two.exit := by
  have outer := alike.outer
  unfold Scope.exit
  cases hidden : one.outer <;> cases hidden' : two.outer <;> rw [hidden, hidden'] at outer <;>
    cases outer
  case nil => exact alike
  case cons first rest => exact { alike with active := first, outer := rest }

theorem get (name : String) (lines : R line line') :
    AlikeResults R Eq (one.get name line) (two.get name line') := by
  unfold Scope.get
  rw [alike.active.arguments, alike.active.constants]
  split
  · exact .ok rfl
  · exact .refused _ lines

theorem reserve (name : String) (lines : R line line') :
    AlikeResults R (Scope.Alike R) (one.reserve name line) (two.reserve name line') := by
  unfold Scope.reserve exists?
  rw [alike.active.reserved]
  split
  · exact .ok alike
  · split
    · exact .refused _ lines
    · exact .ok <| alike.withActive
        { alike.active with reserved := congrArg (name :: ·) alike.active.reserved }

theorem setConstant (name : String) (value : Value) (lines : R line line') :
    AlikeResults R (Scope.Alike R) (one.setConstant name value line)
      (two.setConstant name value line') := by
  unfold Scope.setConstant
  split
  · exact .ok alike
  · refine (alike.reserve name lines).bind fun claimed claimed' alike => .ok ?_
    exact alike.withActive
      { alike.active with
        constants := congrArg (·.insert name value) alike.active.constants
        arguments := congrArg (·.erase name) alike.active.arguments }

theorem setArgument (name : String) (value : Value) :
    (one.setArgument name value).Alike R (two.setArgument name value) := by
  unfold Scope.setArgument
  split
  · exact alike
  · exact alike.withActive
      { alike.active with arguments := congrArg (·.insert name value) alike.active.arguments }

theorem declare {function function' : FunctionDef} (same : function.Alike R function') :
    AlikeResults R (Scope.Alike R) (one.declare function) (two.declare function') := by
  simp only [Scope.declare, alike.active.declared, same.name]
  split
  · exact .refused _ same.line
  · exact .ok <| alike.withActive
      { alike.active with
        functions := .cons ⟨rfl, same⟩ alike.active.functions
        declared := rfl }

theorem function? (name : String) :
    Option.Rel (FunctionDef.Alike R) (one.function? name) (two.function? name) := by
  have found {bindings bindings' : Bindings FunctionDef}
      (same : bindings.Forall₂ (fun binding binding' =>
        binding'.1 = binding.1 ∧ binding.2.Alike R binding'.2) bindings') :
      Option.Rel (FunctionDef.Alike R) (bindings.find? name) (bindings'.find? name) := by
    induction same with
    | nil => exact .none
    | @cons binding binding' _ _ first _ ih =>
      obtain ⟨bound, function⟩ := binding
      obtain ⟨_, function'⟩ := binding'
      obtain ⟨rfl, same⟩ := first
      rw [Bindings.find?_cons, Bindings.find?_cons]
      split
      · exact .some same
      · exact ih
  exact found alike.active.functions

theorem pushColor (color : Color) : (one.pushColor color).Alike R (two.pushColor color) :=
  { alike with
    color := rfl
    earlierColors := congrArg₂ List.cons alike.color alike.earlierColors }

theorem restoreColor : one.restoreColor.Alike R two.restoreColor := by
  unfold Scope.restoreColor
  rw [alike.earlierColors]
  split
  · exact alike
  · exact { alike with color := rfl, earlierColors := rfl }

end Alike

end Scope

end GSharp
