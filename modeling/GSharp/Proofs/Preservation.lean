import Mathlib

/-!
What a computation does to its state, said as a relation between the state before and the state
after. The relation must hold however the computation ends, so that no failure is a way around it.
-/
namespace GSharp

variable {σ ε α β : Type} {R : σ → σ → Prop}

/-- A computation that fails keeps what follows it from running. -/
theorem run_bind (first : ExceptT ε (StateM σ) α) (next : α → ExceptT ε (StateM σ) β) (state : σ) :
    (first >>= next).run state =
      match first.run state with
      | (.ok value, after) => (next value).run after
      | (.error error, after) => (.error error, after) := by
  change ExceptT.bindCont next (first.run state).1 (first.run state).2 = _
  rcases first.run state with ⟨_ | _, _⟩ <;> rfl

/-- Every run of the computation relates the state before to the state after. -/
def Preserves (R : σ → σ → Prop) (computation : StateM σ α) : Prop :=
  ∀ state, R state (computation state).2

namespace Preserves

theorem weaken {S : σ → σ → Prop} {computation : StateM σ α}
    (weaker : ∀ before after, R before after → S before after)
    (preserved : Preserves R computation) : Preserves S computation :=
  fun state => weaker state _ (preserved state)

section Stateful

theorem modify {change : σ → σ} (related : ∀ state, R state (change state)) :
    Preserves R (modify change : StateM σ PUnit) := related

theorem map {first : StateM σ α} (change : α → β) (start : Preserves R first) :
    Preserves R (change <$> first) := start

variable [IsPreorder σ R]

theorem pure (value : α) : Preserves R (Pure.pure value : StateM σ α) :=
  fun state => refl_of R state

theorem get : Preserves R (MonadState.get : StateM σ σ) := fun state => refl_of R state

theorem bind {first : StateM σ α} {next : α → StateM σ β} (start : Preserves R first)
    (rest : ∀ value, Preserves R (next value)) : Preserves R (first >>= next) :=
  fun state => trans_of R (start state) (rest (first state).1 (first state).2)

end Stateful

section Failing

theorem lift {computation : StateM σ α} (preserved : Preserves R computation) :
    Preserves R (liftM computation : ExceptT ε (StateM σ) α).run := preserved

/-- What follows a look at the state may rely on the state seen. -/
theorem getThen {next : σ → ExceptT ε (StateM σ) α}
    (related : ∀ state, R state ((next state).run state).2) :
    Preserves R (MonadState.get >>= next).run := related

variable [IsPreorder σ R]

theorem done (value : α) : Preserves R (Pure.pure value : ExceptT ε (StateM σ) α).run :=
  fun state => refl_of R state

theorem throw (error : ε) : Preserves R (throw error : ExceptT ε (StateM σ) α).run :=
  fun state => refl_of R state

theorem andThen {first : ExceptT ε (StateM σ) α} {next : α → ExceptT ε (StateM σ) β}
    (start : Preserves R first.run) (rest : ∀ value, Preserves R (next value).run) :
    Preserves R (first >>= next).run := by
  intro state
  have begun := start state
  have related (value : α) := rest value (first.run state).2
  change R state (ExceptT.bindCont next (first.run state).1 (first.run state).2).2
  cases (first.run state).1 with
  | ok value => exact trans_of R begun (related value)
  | error error => exact begun

end Failing

end Preserves

end GSharp
