import GSharp.Proofs.Preservation

namespace GSharp

variable {σ ε α β : Type} {I : σ → Prop} {P : α → Prop} {Q : β → Prop}

/-- If there is a value, it has the property. -/
def Gives (P : α → Prop) (result : Except ε α) : Prop := ∀ value, result = .ok value → P value

namespace Gives

theorem ok {value : α} (holds : P value) : Gives P (.ok value : Except ε α) := by
  intro _ same
  cases same
  exact holds

theorem error (fault : ε) : Gives P (.error fault : Except ε α) := fun _ none => nomatch none

theorem anything (result : Except ε α) : Gives (fun _ => True) result := fun _ _ => trivial

theorem bind {first : Except ε α} {next : α → Except ε β} (start : Gives P first)
    (rest : ∀ value, P value → Gives Q (next value)) : Gives Q (first >>= next) := by
  cases first with
  | error fault => exact error fault
  | ok value => exact rest value (start value rfl)

theorem map {first : Except ε α} {change : α → β} (start : Gives P first)
    (changed : ∀ value, P value → Q (change value)) : Gives Q (first.map change) := by
  cases first with
  | error fault => exact error fault
  | ok value => exact ok (changed value (start value rfl))

end Gives

/-- Whatever state it starts from, the computation returns a value with the property. -/
def Returns (P : α → Prop) (computation : StateM σ α) : Prop := ∀ state, P (computation state).1

namespace Returns

theorem anything (computation : StateM σ α) : Returns (fun _ => True) computation :=
  fun _ => trivial

theorem pure {value : α} (holds : P value) : Returns P (pure value : StateM σ α) := fun _ => holds

theorem bind {first : StateM σ α} {next : α → StateM σ β} (start : Returns P first)
    (rest : ∀ value, P value → Returns Q (next value)) : Returns Q (first >>= next) :=
  fun state => rest (first state).1 (start state) (first state).2

theorem map {first : StateM σ α} {change : α → β} (start : Returns P first)
    (changed : ∀ value, P value → Q (change value)) : Returns Q (change <$> first) :=
  fun state => changed (first state).1 (start state)

end Returns

/-- Every run that starts from a state with the invariant leads to one with it, and what it gives
has the property. -/
def Ensures (I : σ → Prop) (P : α → Prop) (computation : ExceptT ε (StateM σ) α) : Prop :=
  ∀ state, I state → I (computation.run state).2 ∧ Gives P (computation.run state).1

/-- Every run keeps the invariant, whatever it gives. -/
abbrev Keeps (I : σ → Prop) (computation : ExceptT ε (StateM σ) α) : Prop :=
  Ensures I (fun _ => True) computation

namespace Ensures

theorem done {value : α} (holds : P value) :
    Ensures I P (pure value : ExceptT ε (StateM σ) α) := fun _ invariant => ⟨invariant, .ok holds⟩

theorem throw (error : ε) : Ensures I P (throw error : ExceptT ε (StateM σ) α) :=
  fun _ invariant => ⟨invariant, .error error⟩

theorem modify {change : σ → σ} (kept : ∀ state, I state → I (change state)) :
    Keeps I (modify change : ExceptT ε (StateM σ) PUnit) :=
  fun state invariant => ⟨kept state invariant, .ok trivial⟩

/-- What follows a look at the state may rely on the state seen. -/
theorem getThenFrom {next : σ → ExceptT ε (StateM σ) α}
    (ensures : ∀ state, I state →
      I ((next state).run state).2 ∧ Gives P ((next state).run state).1) :
    Ensures I P (MonadState.get >>= next) := ensures

theorem getThen {next : σ → ExceptT ε (StateM σ) α}
    (ensures : ∀ seen, I seen → Ensures I P (next seen)) : Ensures I P (MonadState.get >>= next) :=
  getThenFrom fun state invariant => ensures state invariant state invariant

theorem andThenFrom {first : ExceptT ε (StateM σ) α} {next : α → ExceptT ε (StateM σ) β}
    {state : σ} (start : I (first.run state).2 ∧ Gives P (first.run state).1)
    (rest : ∀ value, P value → Ensures I Q (next value)) :
    I ((first >>= next).run state).2 ∧ Gives Q ((first >>= next).run state).1 := by
  obtain ⟨kept, given⟩ := start
  change I (ExceptT.bindCont next (first.run state).1 (first.run state).2).2 ∧
    Gives Q (ExceptT.bindCont next (first.run state).1 (first.run state).2).1
  revert given
  cases (first.run state).1 with
  | error error => exact fun _ => ⟨kept, .error error⟩
  | ok value => exact fun given => rest value (given value rfl) _ kept

theorem andThen {first : ExceptT ε (StateM σ) α} {next : α → ExceptT ε (StateM σ) β}
    (start : Ensures I P first) (rest : ∀ value, P value → Ensures I Q (next value)) :
    Ensures I Q (first >>= next) :=
  fun state invariant => andThenFrom (start state invariant) rest

theorem lift {R : σ → σ → Prop} {computation : StateM σ α} (preserves : Preserves R computation)
    (stable : ∀ before after, R before after → I before → I after)
    (returns : Returns P computation) :
    Ensures I P (liftM computation : ExceptT ε (StateM σ) α) := fun state invariant =>
  ⟨stable state _ (preserves state) invariant, .ok (returns state)⟩

/-- The invariant may follow from what the computation does to the state. -/
theorem ofPreserves {R : σ → σ → Prop} {computation : ExceptT ε (StateM σ) α}
    (preserves : Preserves R computation.run)
    (stable : ∀ before after, R before after → I before → I after)
    (gives : ∀ state, Gives P (computation.run state).1) : Ensures I P computation :=
  fun state invariant => ⟨stable state _ (preserves state) invariant, gives state⟩

end Ensures

end GSharp
