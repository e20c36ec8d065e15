import GSharp.Builtin
import GSharp.Proofs.Syntax.Alike
import GSharp.Scope
import GSharp.Value.Operator

namespace GSharp

variable {R : Nat → Nat → Prop} {line line' : Nat}

namespace AlikeResults

variable {Fault α β γ δ : Type} {V : α → β → Prop} {W : γ → δ → Prop}

theorem refused (fault : Fault) (lines : R line line') :
    AlikeResults R V (.error ⟨fault, line⟩) (.error ⟨fault, line'⟩) := .error ⟨rfl, lines⟩

theorem bind {first : Except (Located Fault) α} {second : Except (Located Fault) β}
    {next : α → Except (Located Fault) γ} {next' : β → Except (Located Fault) δ}
    (start : AlikeResults R V first second)
    (rest : ∀ value value', V value value' → AlikeResults R W (next value) (next' value')) :
    AlikeResults R W (first >>= next) (second >>= next') := by
  cases start with
  | ok related => exact rest _ _ related
  | error alike => exact .error alike

/-- The same value on both sides. -/
theorem andThen {first second : Except (Located Fault) α} {next : α → Except (Located Fault) γ}
    {next' : α → Except (Located Fault) δ} (start : AlikeResults R Eq first second)
    (rest : ∀ value, AlikeResults R W (next value) (next' value)) :
    AlikeResults R W (first >>= next) (second >>= next') :=
  start.bind fun value _ same => same ▸ rest value

theorem map {first second : Except (Located Fault) α} (f : α → γ)
    (start : AlikeResults R Eq first second) : AlikeResults R Eq (first.map f) (second.map f) := by
  cases start with
  | ok same => exact .ok (congrArg f same)
  | error alike => exact .error alike

end AlikeResults

section Lines

variable (lines : R line line')

include lines

theorem Value.asBoolean_alike (value : Value) :
    AlikeResults R Eq (value.asBoolean line) (value.asBoolean line') := by
  unfold asBoolean
  split
  · exact .ok rfl
  · exact .refused _ lines

theorem Value.asSequence_alike (value : Value) :
    AlikeResults R Eq (value.asSequence line) (value.asSequence line') := by
  unfold asSequence
  split
  · exact .ok rfl
  · exact .refused _ lines

theorem Sequence.ofList_alike (elements : List Value) :
    AlikeResults R Eq (Sequence.ofList elements line) (Sequence.ofList elements line') := by
  unfold ofList
  split
  · exact .ok rfl
  · split
    · exact .refused _ lines
    · exact .ok rfl

theorem Sequence.append_alike (receiver appended : Sequence) :
    AlikeResults R Eq (receiver.append appended line) (receiver.append appended line') := by
  cases receiver with
  | single head kind =>
    rw [append, append]
    dsimp only
    split
    · exact .ok rfl
    · split
      · split
        · exact .ok rfl
        · exact .refused _ lines
      · exact .ok rfl
  | joined head kind tail =>
    have attached (more : Sequence → Sequence) :
        AlikeResults R Eq (do return more (← tail.append appended line))
          (do return more (← tail.append appended line')) :=
      (Sequence.append_alike tail appended).andThen fun _ => .ok rfl
    rw [append, append]
    dsimp only
    split
    · exact .ok rfl
    · split
      · split
        · exact attached _
        · exact .refused _ lines
      · exact attached _

namespace BinaryOperator

theorem plus_alike (left right : Value) :
    AlikeResults R Eq (plus left right line) (plus left right line') := by
  unfold plus
  split
  · exact .ok rfl
  · exact .ok rfl
  · exact .ok rfl
  · exact .ok rfl
  · exact (Sequence.append_alike lines _ _).map _
  · exact .ok rfl
  · exact .refused _ lines

theorem numeric_alike (op : BinaryOperator) (a b : Float) :
    AlikeResults R Eq (numeric op a b line) (numeric op a b line') := by
  cases op with
  | subtract | multiply | power => exact .ok rfl
  | divide | remainder =>
    simp only [numeric]
    split
    · exact .refused _ lines
    · exact .ok rfl
  | _ => exact .refused _ lines

theorem arithmetic_alike (op : BinaryOperator) (left right : Value) :
    AlikeResults R Eq (arithmetic op left right line) (arithmetic op left right line') := by
  unfold arithmetic
  split
  · exact numeric_alike lines _ _ _
  · exact .ok rfl
  · exact .ok rfl
  · exact .ok rfl
  · exact numeric_alike lines _ _ _
  · exact .refused _ lines

theorem comparison_alike (op : BinaryOperator) (left right : Value) :
    AlikeResults R Eq (comparison op left right line) (comparison op left right line') := by
  unfold comparison
  extract_lets compare compare'
  have compared (a b : Float) : AlikeResults R Eq (compare a b) (compare' a b) := by
    cases op with
    | less | greater | lessEqual | greaterEqual => exact .ok rfl
    | _ => exact .refused _ lines
  split
  · exact compared _ _
  · exact compared _ _
  · exact .refused _ lines

theorem equality_alike (left right : Value) :
    AlikeResults R Eq (equality left right line) (equality left right line') := by
  unfold equality
  split
  · exact .refused _ lines
  · exact .ok rfl

theorem logic_alike (op : BinaryOperator) (left right : Value) :
    AlikeResults R Eq (logic op left right line) (logic op left right line') := by
  refine (Value.asBoolean_alike lines left).andThen fun a =>
    (Value.asBoolean_alike lines right).andThen fun b => ?_
  split
  · exact .ok rfl
  · exact .ok rfl
  · exact .refused _ lines

theorem apply_alike (op : BinaryOperator) (left right : Value) :
    AlikeResults R Eq (op.apply left right line) (op.apply left right line') := by
  cases op with
  | add => exact plus_alike lines left right
  | subtract | multiply | divide | remainder | power => exact arithmetic_alike lines _ left right
  | less | greater | lessEqual | greaterEqual =>
    rw [apply, apply]
    exact comparison_alike lines _ left right
  | equal | notEqual => exact (equality_alike lines left right).map _
  | and | or =>
    rw [apply, apply]
    exact logic_alike lines _ left right

end BinaryOperator

theorem UnaryOperator.apply_alike (op : UnaryOperator) (value : Value) :
    AlikeResults R Eq (op.apply value line) (op.apply value line') := by
  cases op with
  | negate =>
    cases value with
    | number n => exact .ok rfl
    | _ => exact .refused _ lines
  | not => exact (Value.asBoolean_alike lines value).map _

namespace Builtin

theorem checkName_alike (name : String) :
    AlikeResults R Eq (checkName name line) (checkName name line') := by
  unfold checkName
  split
  · exact .refused _ lines
  · exact .ok rfl

variable (builtin : Builtin)

theorem numberOf_alike (value : Value) :
    AlikeResults R Eq (builtin.numberOf line value) (builtin.numberOf line' value) := by
  unfold numberOf
  split
  · exact .ok rfl
  · exact .refused _ lines

theorem pointOf_alike (value : Value) :
    AlikeResults R Eq (builtin.pointOf line value) (builtin.pointOf line' value) := by
  unfold pointOf
  split
  · exact .ok rfl
  · exact .refused _ lines

theorem measureOf_alike (value : Value) :
    AlikeResults R Eq (builtin.measureOf line value) (builtin.measureOf line' value) := by
  unfold measureOf
  split
  · exact .ok rfl
  · exact .refused _ lines

theorem figureOf_alike (value : Value) :
    AlikeResults R Eq (builtin.figureOf line value) (builtin.figureOf line' value) := by
  unfold figureOf
  split
  · split
    · exact .ok rfl
    · exact .refused _ lines
  · exact .refused _ lines

theorem sequenceOf_alike (value : Value) :
    AlikeResults R Eq (builtin.sequenceOf line value) (builtin.sequenceOf line' value) := by
  unfold sequenceOf
  split
  · exact .ok rfl
  · exact .refused _ lines

theorem twoPoints_alike (p q : Value) :
    AlikeResults R Eq (builtin.twoPoints p q line) (builtin.twoPoints p q line') :=
  (pointOf_alike lines builtin p).andThen fun _ =>
    (pointOf_alike lines builtin q).andThen fun _ => .ok rfl

theorem logarithm_alike (value base : Float) :
    AlikeResults R Eq (logarithm value base line) (logarithm value base line') := by
  unfold logarithm
  split
  · exact .refused _ lines
  · exact .ok rfl

theorem countOf_alike (s : Sequence) :
    AlikeResults R Eq (countOf s line) (countOf s line') := by
  unfold countOf
  split
  · exact .ok rfl
  · split
    · exact .ok rfl
    · exact .refused _ lines

theorem sharedPoints_alike (a b : Figure) :
    AlikeResults R Eq (sharedPoints a b line) (sharedPoints a b line') := by
  unfold sharedPoints
  split
  · exact (Sequence.ofList_alike lines _).map _
  · exact .ok rfl
  · exact .ok rfl

theorem pure?_alike (arguments : List Value) :
    Option.Rel (AlikeResults R Eq) (builtin.pure? arguments line)
      (builtin.pure? arguments line') := by
  unfold pure?
  split
  · exact .some ((numberOf_alike lines _ _).map _)
  · exact .some ((numberOf_alike lines _ _).map _)
  · exact .some ((numberOf_alike lines _ _).map _)
  · exact .some ((numberOf_alike lines _ _).map _)
  · exact .some <| (numberOf_alike lines _ _).andThen fun _ =>
      (numberOf_alike lines _ _).andThen fun _ => logarithm_alike lines _ _
  · exact .some <| (sequenceOf_alike lines _ _).andThen fun s => countOf_alike lines s
  · exact .some <| (twoPoints_alike lines _ _ _).andThen fun _ => .ok rfl
  · exact .some <| (numberOf_alike lines _ _).andThen fun _ =>
      (numberOf_alike lines _ _).andThen fun _ => .ok rfl
  · exact .some <| (twoPoints_alike lines _ _ _).andThen fun _ => .ok rfl
  · exact .some <| (twoPoints_alike lines _ _ _).andThen fun _ => .ok rfl
  · exact .some <| (twoPoints_alike lines _ _ _).andThen fun _ => .ok rfl
  · exact .some <| (pointOf_alike lines _ _).andThen fun _ =>
      (measureOf_alike lines _ _).andThen fun _ => .ok rfl
  · exact .some <| (pointOf_alike lines _ _).andThen fun _ =>
      (pointOf_alike lines _ _).andThen fun _ => (pointOf_alike lines _ _).andThen fun _ =>
        (measureOf_alike lines _ _).andThen fun _ => .ok rfl
  · exact .some <| (figureOf_alike lines _ _).andThen fun _ =>
      (figureOf_alike lines _ _).andThen fun _ => sharedPoints_alike lines _ _
  · exact .none

end Builtin

end Lines

end GSharp
