import GSharp.Proofs.Value.Joining

namespace GSharp.Sequence

variable {appended receiver s : Sequence} {line : Nat}

/-- The sequences that come from lists, ranges and joining, whatever the bounds of the ranges. -/
inductive Composed : Sequence → Prop
  | list {elements : List Value} {line : Nat} {s : Sequence}
      (made : ofList elements line = .ok s) : Composed s
  | empty : Composed empty
  | infinite (start : Float) : Composed (infinite start)
  | range (start finish : Float) : Composed (range start finish)
  | append {receiver appended s : Sequence} {line : Nat} (left : Composed receiver)
      (right : Composed appended) (made : receiver.append appended line = .ok s) : Composed s

/-- The kind of every tail is that of the whole, where the tail has one. -/
def Coherent : Sequence → Prop
  | .single _ _ => True
  | .joined _ kind tail => (∀ found ∈ tail.elementKind, kind = some found) ∧ tail.Coherent

theorem ofList_eq_ok {elements : List Value} (made : ofList elements line = .ok s) :
    s = empty ∨ ∃ first rest, s = single (.finite (first :: rest)) (some first.kind) := by
  cases elements with
  | nil => exact .inl (Except.ok.inj made).symm
  | cons first rest =>
    rw [ofList] at made
    split at made
    · cases made
    · exact .inr ⟨first, rest, (Except.ok.inj made).symm⟩

namespace Attached

theorem elementKind (attached : Attached appended receiver s) :
    s.elementKind = if receiver.isEmpty then appended.elementKind
      else receiver.elementKind.or appended.elementKind := by
  cases attached with
  | empty empty => rw [if_pos empty, Sequence.elementKind]
  | single full agree => rw [if_neg (Bool.eq_false_iff.mp full)]; rfl
  | joined full agree attached => rw [if_neg (Bool.eq_false_iff.mp full)]; rfl

/-- Agreeing kinds stand in a joined sequence, and so does the one that is known of two. -/
theorem coherent (attached : Attached appended receiver s) (first : receiver.Coherent)
    (second : appended.Coherent) : s.Coherent := by
  induction attached with
  | @empty receiver empty => exact ⟨fun found known => known, second⟩
  | @single head kind full agree =>
    exact ⟨fun found known => or_eq_of_agreeing agree (.inr known), second⟩
  | @joined head kind tail rest full agree attached ih =>
    refine ⟨fun found known => ?_, ih first.2⟩
    rw [Option.mem_def, attached.elementKind] at known
    split at known
    · exact or_eq_of_agreeing agree (.inr known)
    · rcases Option.or_eq_some_iff.mp known with inTail | ⟨-, inAppended⟩
      · exact or_eq_of_agreeing agree (.inl (first.1 found inTail))
      · exact or_eq_of_agreeing agree (.inr inAppended)

end Attached

theorem Composed.coherent (composed : Composed s) : s.Coherent := by
  induction composed with
  | list made =>
    rcases ofList_eq_ok made with rfl | ⟨_, _, rfl⟩ <;> trivial
  | empty | infinite | range => trivial
  | append left right made first second => exact (attached_of_append made).coherent first second

theorem checked_of_agreeing {left right : Option ValueKind} (attach : Except EvalError Sequence)
    (line : Nat) : Agreeing left right → (match left, right with
      | some expected, some found =>
        if expected = found then attach else .error ⟨.concatenationMismatch found expected, line⟩
      | _, _ => attach) = attach := by
  intro agree
  split
  · exact if_pos (agree _ rfl _ rfl)
  · rfl

theorem append_of_isEmpty (empty : receiver.isEmpty = true) (line : Nat) :
    ∃ s, receiver.append appended line = .ok s := by
  unfold append
  rw [if_pos empty]
  exact ⟨_, rfl⟩

/-- Where the kinds of the whole agree, joining goes through every tail. -/
theorem append_of_agreeing (line : Nat) : ∀ {receiver : Sequence},
    receiver.Coherent → Agreeing receiver.elementKind appended.elementKind →
      ∃ s, receiver.append appended line = .ok s
  | .single head kind, _, agree => by
    cases empty : isEmpty (.single head kind) with
    | true => exact append_of_isEmpty empty line
    | false =>
      unfold append
      rw [if_neg (Bool.eq_false_iff.mp empty)]
      exact ⟨_, checked_of_agreeing _ line agree⟩
  | .joined head kind tail, ⟨sameKind, coherent⟩, agree => by
    cases empty : isEmpty (.joined head kind tail) with
    | true => exact append_of_isEmpty empty line
    | false =>
      have agreeTail : Agreeing tail.elementKind appended.elementKind :=
        fun expected known => agree expected (sameKind expected known)
      obtain ⟨rest, attached⟩ := append_of_agreeing line coherent agreeTail
      unfold append
      rw [if_neg (Bool.eq_false_iff.mp empty)]
      simp only [attached]
      exact ⟨_, checked_of_agreeing _ line agree⟩

theorem append_of_mismatch (full : receiver.isEmpty = false) {expected found : ValueKind}
    (known : receiver.elementKind = some expected) (other : appended.elementKind = some found)
    (different : expected ≠ found) (line : Nat) :
    receiver.append appended line = .error ⟨.concatenationMismatch found expected, line⟩ := by
  unfold append
  rw [if_neg (Bool.eq_false_iff.mp full)]
  simp only [known, other, if_neg different]

theorem not_agreeing_iff {left right : Option ValueKind} :
    ¬Agreeing left right ↔
      ∃ expected found, left = some expected ∧ right = some found ∧ expected ≠ found := by
  simp [Agreeing]

/-- Joining fails for one reason: there are elements, and their kind is known and is not the kind
known of what is put after them. The error names these two kinds, and never those of a tail, since
no tail refuses what the whole accepts. -/
theorem append_eq_error_iff (composed : Composed receiver) (appended : Sequence) (line : Nat) :
    (∀ error, receiver.append appended line = .error error ↔
      receiver.isEmpty = false ∧ ∃ expected found, receiver.elementKind = some expected ∧
        appended.elementKind = some found ∧ expected ≠ found ∧
          error = ⟨.concatenationMismatch found expected, line⟩) ∧
      ∀ head kind tail, receiver = .joined head kind tail →
        Agreeing kind appended.elementKind → ∃ rest, tail.append appended line = .ok rest := by
  have coherent := composed.coherent
  refine ⟨fun error => ⟨fun failed => ?_, ?_⟩, ?_⟩
  · cases empty : receiver.isEmpty with
    | true =>
      obtain ⟨s, made⟩ : ∃ s, receiver.append appended line = .ok s := append_of_isEmpty empty line
      rw [made] at failed
      cases failed
    | false =>
      by_cases agree : Agreeing receiver.elementKind appended.elementKind
      · obtain ⟨s, made⟩ := append_of_agreeing line coherent agree
        rw [made] at failed
        cases failed
      · obtain ⟨expected, found, known, other, different⟩ := not_agreeing_iff.mp agree
        rw [append_of_mismatch empty known other different] at failed
        exact ⟨rfl, expected, found, known, other, different, (Except.error.inj failed).symm⟩
  · rintro ⟨full, expected, found, known, other, different, rfl⟩
    exact append_of_mismatch full known other different line
  · rintro head kind tail rfl agree
    exact append_of_agreeing line coherent.2 fun expected known =>
      agree expected (coherent.1 expected known)

/-- Behind an inverted range that took their kind on, strings still refuse numbers. -/
theorem append_eq_error_iff_adopted :
    let receiver : Sequence :=
      .joined (.range 5 3) (some .string) (.single (.finite [.string "a"]) (some .string))
    Composed receiver ∧ receiver.append (.range 1 2) 4 =
      .error ⟨.concatenationMismatch .number .string, 4⟩ := by
  intro receiver
  have listed : ofList [.string "a"] 1 =
      .ok (.single (.finite [.string "a"]) (some .string)) := rfl
  have joined : (range 5 3).append (.single (.finite [.string "a"]) (some .string)) 1 =
      .ok receiver := rfl
  have composed : Composed receiver := .append (.range 5 3) (.list listed) joined
  refine ⟨composed, ((append_eq_error_iff composed (.range 1 2) 4).1 _).mpr ?_⟩
  exact ⟨by decide +kernel, .string, .number, rfl, rfl, by decide, rfl⟩

end GSharp.Sequence
