import GSharp.Value.Sequence
import Mathlib

namespace GSharp.Sequence

/-- Two element kinds that may stand in one sequence: equal where both are known. -/
def Agreeing (left right : Option ValueKind) : Prop :=
  ∀ expected ∈ left, ∀ found ∈ right, expected = found

/-- A sequence without elements keeps its head alone; of any other every segment stays, and those
without a kind take on that of what is attached. -/
inductive Attached (appended : Sequence) : Sequence → Sequence → Prop
  | empty {receiver : Sequence} (empty : receiver.isEmpty = true) :
      Attached appended receiver (.joined receiver.head appended.elementKind appended)
  | single {head : Segment} {kind : Option ValueKind} (full : isEmpty (.single head kind) = false)
      (agree : Agreeing kind appended.elementKind) :
      Attached appended (.single head kind) (.joined head (kind.or appended.elementKind) appended)
  | joined {head : Segment} {kind : Option ValueKind} {tail rest : Sequence}
      (full : isEmpty (.joined head kind tail) = false)
      (agree : Agreeing kind appended.elementKind) (attached : Attached appended tail rest) :
      Attached appended (.joined head kind tail) (.joined head (kind.or appended.elementKind) rest)

theorem agreeing_of_checked {left right : Option ValueKind} {attach : Except EvalError Sequence}
    {s : Sequence} {line : Nat}
    (made : (match left, right with
      | some expected, some found =>
        if expected = found then attach else .error ⟨.concatenationMismatch found expected, line⟩
      | _, _ => attach) = .ok s) : Agreeing left right ∧ attach = .ok s := by
  split at made
  · rename_i expected found
    by_cases same : expected = found
    · rw [if_pos same] at made
      exact ⟨fun a h b g => by cases h; cases g; exact same, made⟩
    · rw [if_neg same] at made
      cases made
  · rename_i unknown
    exact ⟨fun a h b g => (unknown a b h g).elim, made⟩

section Receiver

variable {head : Segment} {kind : Option ValueKind} {receiver tail appended s : Sequence}
  {line : Nat}

theorem attached_of_empty (empty : receiver.isEmpty = true)
    (made : receiver.append appended line = .ok s) : Attached appended receiver s := by
  unfold append at made
  rw [if_pos empty] at made
  cases made
  exact .empty empty

theorem append_single_eq_ok (full : isEmpty (.single head kind) = false)
    (made : append (.single head kind) appended line = .ok s) :
    Agreeing kind appended.elementKind ∧
      s = .joined head (kind.or appended.elementKind) appended := by
  unfold append at made
  rw [if_neg (Bool.eq_false_iff.mp full)] at made
  obtain ⟨agree, attached⟩ := agreeing_of_checked made
  cases attached
  exact ⟨agree, rfl⟩

theorem append_joined_eq_ok (full : isEmpty (.joined head kind tail) = false)
    (made : append (.joined head kind tail) appended line = .ok s) :
    Agreeing kind appended.elementKind ∧ ∃ rest, tail.append appended line = .ok rest ∧
      s = .joined head (kind.or appended.elementKind) rest := by
  unfold append at made
  rw [if_neg (Bool.eq_false_iff.mp full)] at made
  obtain ⟨agree, attached⟩ := agreeing_of_checked made
  cases outcome : tail.append appended line with
  | error error =>
    simp only [outcome] at attached
    cases attached
  | ok rest =>
    simp only [outcome] at attached
    cases attached
    exact ⟨agree, rest, rfl, rfl⟩

end Receiver

/-- Whatever concatenation gives, it gives by one of the three rules. -/
theorem attached_of_append {appended : Sequence} {line : Nat} : ∀ {receiver s : Sequence},
    receiver.append appended line = .ok s → Attached appended receiver s
  | .single head kind, s, made => by
    cases full : isEmpty (.single head kind) with
    | true => exact attached_of_empty full made
    | false =>
      obtain ⟨agree, rfl⟩ := append_single_eq_ok full made
      exact .single full agree
  | .joined head kind tail, s, made => by
    cases full : isEmpty (.joined head kind tail) with
    | true => exact attached_of_empty full made
    | false =>
      obtain ⟨agree, rest, attached, rfl⟩ := append_joined_eq_ok full made
      exact .joined full agree (attached_of_append attached)

end GSharp.Sequence
