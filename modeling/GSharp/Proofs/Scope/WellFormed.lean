import GSharp.Proofs.Scope.Changes
import GSharp.Proofs.Value.WellFormed

namespace GSharp

/-- The values bound in a frame are well formed and the bodies of its functions canonical. -/
structure Frame.WellFormed (frame : Frame) : Prop where
  constants : ∀ binding ∈ frame.constants, binding.2.WellFormed
  arguments : ∀ binding ∈ frame.arguments, binding.2.WellFormed
  functions : ∀ binding ∈ frame.functions, binding.2.body.isCanonical = true

/-- All frames are well formed, the hidden ones as well. -/
structure Scope.WellFormed (scope : Scope) : Prop where
  active : scope.active.WellFormed
  outer : ∀ frame ∈ scope.outer, frame.WellFormed

theorem Bindings.mem_of_find? {α : Type} {bindings : Bindings α} {name : String} {value : α}
    (found : bindings.find? name = some value) : (name, value) ∈ bindings := by
  obtain ⟨before, after, rfl, -⟩ := List.lookup_eq_some_iff.mp found
  exact List.mem_append_right before List.mem_cons_self

namespace Scope

variable {scope : Scope} {name : String}

theorem wellFormed_initial : ({} : Scope).WellFormed :=
  ⟨⟨List.forall_mem_nil _, List.forall_mem_nil _, List.forall_mem_nil _⟩, List.forall_mem_nil _⟩

namespace WellFormed

variable (wellFormed : scope.WellFormed)

include wellFormed

theorem get (name : String) (line : Nat) : Gives Value.WellFormed (scope.get name line) := by
  unfold Scope.get
  split
  · rename_i value found
    refine .ok ?_
    rcases Option.or_eq_some_iff.mp found with argument | ⟨-, constant⟩
    · exact wellFormed.active.arguments _ (Bindings.mem_of_find? argument)
    · exact wellFormed.active.constants _ (Bindings.mem_of_find? constant)
  · exact .error _

theorem function? {function : FunctionDef} (found : scope.function? name = some function) :
    function.body.isCanonical = true :=
  wellFormed.active.functions _ (Bindings.mem_of_find? found)

/-- The frame that is opened shows what the active one shows. -/
theorem enter : scope.enter.WellFormed where
  active := { wellFormed.active with }
  outer := List.forall_mem_cons.mpr ⟨wellFormed.active, wellFormed.outer⟩

theorem exit : scope.exit.WellFormed := by
  obtain ⟨active, outer⟩ := wellFormed
  unfold Scope.exit
  split
  · exact ⟨active, outer⟩
  · rename_i frame rest frames
    rw [frames, List.forall_mem_cons] at outer
    exact ⟨outer.1, outer.2⟩

theorem setConstant (name : String) {value : Value} (sound : value.WellFormed) (line : Nat) :
    Gives Scope.WellFormed (scope.setConstant name value line) := by
  intro after bound
  rcases setConstant_eq_ok.mp bound with ⟨-, rfl⟩ | ⟨-, -, rfl⟩
  · exact wellFormed
  · exact
      { active :=
          { constants := List.forall_mem_cons.mpr ⟨sound, wellFormed.active.constants⟩
            arguments := fun binding kept =>
              wellFormed.active.arguments binding (List.mem_of_mem_filter kept)
            functions := wellFormed.active.functions }
        outer := wellFormed.outer }

theorem setArgument (name : String) {value : Value} (sound : value.WellFormed) :
    (scope.setArgument name value).WellFormed := by
  unfold Scope.setArgument
  split
  · exact wellFormed
  · exact
      { active :=
          { constants := wellFormed.active.constants
            arguments := List.forall_mem_cons.mpr ⟨sound, wellFormed.active.arguments⟩
            functions := wellFormed.active.functions }
        outer := wellFormed.outer }

theorem declare {function : FunctionDef} (canonical : function.body.isCanonical = true) :
    Gives Scope.WellFormed (scope.declare function) := by
  intro after declared
  obtain ⟨-, rfl⟩ := declare_eq_ok.mp declared
  exact
    { active :=
        { constants := wellFormed.active.constants
          arguments := wellFormed.active.arguments
          functions := List.forall_mem_cons.mpr ⟨canonical, wellFormed.active.functions⟩ }
      outer := wellFormed.outer }

theorem pushColor (color : Color) : (scope.pushColor color).WellFormed :=
  ⟨wellFormed.active, wellFormed.outer⟩

theorem restoreColor : scope.restoreColor.WellFormed := by
  unfold Scope.restoreColor
  split
  · exact wellFormed
  · exact ⟨wellFormed.active, wellFormed.outer⟩

end WellFormed

end Scope

end GSharp
