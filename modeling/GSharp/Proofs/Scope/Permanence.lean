import GSharp.Builtin
import GSharp.Proofs.Scope.Chain
import GSharp.Proofs.Scope.WellFormed

/-!
Names stay what they are. The outermost frame claims what it binds and binds nothing that it has
claimed, so that what it once shows for a name it shows for good. Frames opened inside it may show
something else, but none of them binds the discarded name or a function by a built-in name.
-/
namespace GSharp

namespace Frame

/-- No value is bound to the discarded name, and no function has a built-in name. -/
structure Lawful (frame : Frame) : Prop where
  discarded : frame.value? Scope.discard = none
  functions : ∀ binding ∈ frame.functions, Builtin.ofName? binding.1 = none

/-- A frame that opened inside no other: what it shows it has bound itself, and claimed. -/
structure Tidy (frame : Frame) : Prop where
  arguments : frame.arguments = []
  constants : ∀ binding ∈ frame.constants, binding.1 ∈ frame.reserved
  functions : ∀ binding ∈ frame.functions, binding.1 ∈ frame.declared

/-- What the one frame shows for a name, the other shows for it. -/
structure Retains (before after : Frame) : Prop where
  values : ∀ name value, before.value? name = some value → after.value? name = some value
  functions : ∀ name function,
    before.functions.find? name = some function → after.functions.find? name = some function

instance : IsPreorder Frame Retains where
  refl _ := ⟨fun _ _ => id, fun _ _ => id⟩
  trans _ _ _ first second :=
    ⟨fun name value => second.values name value ∘ first.values name value,
      fun name function => second.functions name function ∘ first.functions name function⟩

theorem lawful_empty : Lawful {} := ⟨rfl, List.forall_mem_nil _⟩

theorem tidy_empty : Tidy {} := ⟨rfl, List.forall_mem_nil _, List.forall_mem_nil _⟩

theorem Lawful.function?_builtin {frame : Frame} (lawful : frame.Lawful) {name : String}
    (builtin : (Builtin.ofName? name).isSome = true) : frame.functions.find? name = none := by
  refine List.lookup_eq_none_iff.mpr fun binding bound => ?_
  have plain := lawful.functions binding bound
  rw [bne_iff_ne]
  rintro rfl
  rw [plain] at builtin
  cases builtin

section Changes

variable {frame : Frame} {name : String}

@[simp]
theorem bindConstant_value? (value : Value) (other : String) :
    (frame.bindConstant name value).value? other =
      if other = name then some value else frame.value? other := by
  simp only [bindConstant, value?, Bindings.find?_insert, Bindings.find?_erase]
  split <;> rfl

theorem Lawful.bindConstant (lawful : frame.Lawful) (shown : name ≠ Scope.discard) (value : Value) :
    (frame.bindConstant name value).Lawful where
  discarded := by rw [bindConstant_value?, if_neg shown.symm, lawful.discarded]
  functions := lawful.functions

theorem Lawful.bindArgument (lawful : frame.Lawful) (shown : name ≠ Scope.discard) (value : Value) :
    Lawful { frame with arguments := frame.arguments.insert name value } where
  discarded := by
    simp only [value?, Bindings.find?_insert, if_neg shown.symm]
    exact lawful.discarded
  functions := lawful.functions

theorem Lawful.bindFunction (lawful : frame.Lawful) {function : FunctionDef}
    (plain : Builtin.ofName? function.name = none) : (frame.bindFunction function).Lawful where
  discarded := lawful.discarded
  functions := List.forall_mem_cons.mpr ⟨plain, lawful.functions⟩

theorem Tidy.bindConstant (tidy : frame.Tidy) (name : String) (value : Value) :
    (frame.bindConstant name value).Tidy where
  arguments := by simp [Frame.bindConstant, tidy.arguments, Bindings.erase]
  constants := List.forall_mem_cons.mpr
    ⟨List.mem_cons_self, fun binding bound => List.mem_cons_of_mem _ (tidy.constants binding bound)⟩
  functions := tidy.functions

theorem Tidy.bindFunction (tidy : frame.Tidy) (function : FunctionDef) :
    (frame.bindFunction function).Tidy where
  arguments := tidy.arguments
  constants := tidy.constants
  functions := List.forall_mem_cons.mpr
    ⟨List.mem_cons_self, fun binding bound => List.mem_cons_of_mem _ (tidy.functions binding bound)⟩

/-- A name that is not claimed yet shows nothing that a binding of it could hide. -/
theorem Tidy.retains_bindConstant (tidy : frame.Tidy) (free : name ∉ frame.reserved)
    (value : Value) : frame.Retains (frame.bindConstant name value) where
  values other shown found := by
    have bound : frame.constants.find? other = some shown := by
      rw [value?, tidy.arguments] at found
      exact found
    have different : other ≠ name := fun same =>
      free (same ▸ tidy.constants _ (Bindings.mem_of_find? bound))
    rw [bindConstant_value?, if_neg different, found]
  functions _ _ := id

theorem Tidy.retains_bindFunction (tidy : frame.Tidy) {function : FunctionDef}
    (free : function.name ∉ frame.declared) : frame.Retains (frame.bindFunction function) where
  values _ _ := id
  functions other shown found := by
    have different : other ≠ function.name := fun same =>
      free (same ▸ tidy.functions _ (Bindings.mem_of_find? found))
    simp only [Frame.bindFunction, Bindings.find?_insert, if_neg different, found]

end Changes

end Frame

namespace Scope

/-- The frame that all others were opened inside. -/
def root (scope : Scope) : Frame := scope.outer.getLastD scope.active

theorem enter_root (scope : Scope) : scope.enter.root = scope.root := List.getLastD_cons ..

/-- A scope of so many frames inside the outermost one, as a run can lead to it. -/
structure Settled (depth : Nat) (scope : Scope) : Prop where
  outer : scope.outer.length = depth
  lawful : ∀ frame ∈ scope.active :: scope.outer, frame.Lawful
  root : scope.root.Tidy

theorem settled_initial : Settled 0 {} :=
  ⟨rfl, List.forall_mem_singleton.mpr Frame.lawful_empty, Frame.tidy_empty⟩

theorem get_eq_ok {scope : Scope} {name : String} {line : Nat} {value : Value} :
    scope.get name line = .ok value ↔ scope.active.value? name = some value := by
  unfold get Frame.value?
  split <;> rename_i found <;> simp [found]

/-- What happens to a settled scope: it stays settled, and its outermost frame loses nothing. -/
structure Advances (depth : Nat) (before after : Scope) : Prop where
  settled : before.Settled depth → after.Settled depth
  retains : before.Settled depth → before.root.Retains after.root

instance (depth : Nat) : IsPreorder Scope (Advances depth) where
  refl _ := ⟨id, fun _ => refl_of Frame.Retains _⟩
  trans _ _ _ first second :=
    ⟨second.settled ∘ first.settled, fun settled =>
      trans_of Frame.Retains (first.retains settled) (second.retains (first.settled settled))⟩

/-- Frames alone decide. -/
theorem advances_of_frames {before after : Scope} (depth : Nat)
    (active : after.active = before.active) (outer : after.outer = before.outer) :
    before.Advances depth after := by
  have same : after.root = before.root := by rw [Scope.root, Scope.root, active, outer]
  exact
    { settled := fun settled =>
        { outer := outer ▸ settled.outer
          lawful := active ▸ outer ▸ settled.lawful
          root := same ▸ settled.root }
      retains := fun _ => same ▸ refl_of Frame.Retains _ }

section Settled

variable {scope after : Scope} {depth : Nat}

theorem Settled.get_discard (settled : scope.Settled depth) (line : Nat) :
    scope.get discard line = .error ⟨.unknownConstant discard, line⟩ := by
  have unbound := (settled.lawful _ List.mem_cons_self).discarded
  unfold Frame.value? at unbound
  rw [get, unbound]

theorem Settled.enter (settled : scope.Settled depth) : scope.enter.Settled (depth + 1) where
  outer := congrArg (· + 1) settled.outer
  lawful := by
    have active := settled.lawful _ List.mem_cons_self
    exact List.forall_mem_cons.mpr ⟨⟨active.discarded, active.functions⟩, settled.lawful⟩
  root := by
    rw [enter_root]
    exact settled.root

/-- A frame other than the outermost one is left to the frame that it was opened in. -/
theorem Settled.exit (settled : scope.Settled (depth + 1)) :
    scope.exit.Settled depth ∧ scope.exit.root = scope.root := by
  obtain ⟨outer, lawful, tidy⟩ := settled
  unfold Scope.exit
  split
  · rename_i outermost
    rw [outermost] at outer
    exact absurd outer (Nat.succ_ne_zero depth).symm
  · rename_i frame rest frames
    have same : Scope.root { scope with active := frame, outer := rest } = scope.root := by
      rw [Scope.root, Scope.root, frames, List.getLastD_cons]
    rw [frames] at outer lawful
    refine ⟨⟨Nat.succ_inj.mp outer, ?_, same ▸ tidy⟩, same⟩
    exact fun other present => lawful other (List.mem_cons_of_mem _ present)

/-- The active frame may be changed lawfully. Only where it is the outermost one it matters what it
shows, and what it has claimed. -/
theorem Settled.change (settled : scope.Settled depth) {frame : Frame} (lawful : frame.Lawful)
    (tidy : depth = 0 → scope.active.Tidy → frame.Tidy ∧ scope.active.Retains frame) :
    scope.Advances depth { scope with active := frame } := by
  have lawfulAll : ∀ other ∈ frame :: scope.outer, other.Lawful :=
    List.forall_mem_cons.mpr ⟨lawful, (List.forall_mem_cons.mp settled.lawful).2⟩
  by_cases outermost : scope.outer = []
  · have before : scope.root = scope.active := by rw [Scope.root, outermost]; rfl
    have now : Scope.root { scope with active := frame } = frame := by
      rw [Scope.root, outermost]; rfl
    have empty : depth = 0 := by rw [← settled.outer, outermost]; rfl
    obtain ⟨claims, retains⟩ := tidy empty (before ▸ settled.root)
    exact ⟨fun _ => ⟨settled.outer, lawfulAll, now.symm ▸ claims⟩,
      fun _ => before.symm ▸ now.symm ▸ retains⟩
  · obtain ⟨first, rest, frames⟩ := List.exists_cons_of_ne_nil outermost
    have same : Scope.root { scope with active := frame } = scope.root := by
      rw [Scope.root, Scope.root, frames, List.getLastD_cons, List.getLastD_cons]
    exact ⟨fun _ => ⟨settled.outer, lawfulAll, same ▸ settled.root⟩,
      fun _ => same ▸ refl_of Frame.Retains _⟩

theorem Settled.setConstant (settled : scope.Settled depth) {name : String} {value : Value}
    {line : Nat} (bound : scope.setConstant name value line = .ok after) :
    scope.Advances depth after := by
  rcases setConstant_eq_ok.mp bound with ⟨-, rfl⟩ | ⟨shown, free, rfl⟩
  · exact refl_of (Advances depth) _
  · have active := settled.lawful _ List.mem_cons_self
    exact settled.change (active.bindConstant shown value) fun _ tidy =>
      ⟨tidy.bindConstant name value, tidy.retains_bindConstant free value⟩

theorem Settled.declare (settled : scope.Settled depth) {function : FunctionDef}
    (plain : Builtin.ofName? function.name = none) (declared : scope.declare function = .ok after) :
    scope.Advances depth after := by
  obtain ⟨free, rfl⟩ := declare_eq_ok.mp declared
  have active := settled.lawful _ List.mem_cons_self
  exact settled.change (active.bindFunction plain) fun _ tidy =>
    ⟨tidy.bindFunction function, tidy.retains_bindFunction free⟩

/-- Arguments are bound in the frame of a call, which is never the outermost one. -/
theorem Settled.setArgument (settled : scope.Settled (depth + 1)) (name : String) (value : Value) :
    scope.Advances (depth + 1) (scope.setArgument name value) := by
  unfold Scope.setArgument
  split
  · exact refl_of (Advances (depth + 1)) _
  · rename_i shown
    have active := settled.lawful _ List.mem_cons_self
    exact settled.change (active.bindArgument shown value) fun outermost =>
      absurd outermost (Nat.succ_ne_zero depth)

end Settled

end Scope

end GSharp
