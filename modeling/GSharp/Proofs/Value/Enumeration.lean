import GSharp.Value.Drawing
import Mathlib

namespace GSharp

theorem Value.texts_eq_map (limit : Nat) (values : List Value) :
    Value.texts limit values = (values.take limit).map Value.text := by
  induction values generalizing limit with
  | nil => cases limit <;> rfl
  | cons first rest ih =>
    cases limit with
    | zero => rfl
    | succ limit => rw [Value.texts, ih, List.take_succ_cons, List.map_cons]

theorem Segment.texts_eq_map (limit : Nat) (segment : Segment) :
    segment.texts limit = (segment.take limit).map Value.text := by
  cases segment with
  | finite elements => exact Value.texts_eq_map limit elements
  | infinite start => simp [Segment.texts, Segment.take, Value.text]
  | range start finish => simp [Segment.texts, Segment.take, Value.text]

/-- The texts are those of the first elements, of which one more is taken than is shown. -/
theorem Sequence.texts_eq_map (limit : Nat) : ∀ s : Sequence,
    s.texts limit = (s.take limit).map Value.text
  | .single head _ => head.texts_eq_map limit
  | .joined head _ tail => by
    simp only [Sequence.texts, Sequence.take, Segment.texts_eq_map, List.length_map,
      tail.texts_eq_map, List.map_append]

@[simp]
theorem Number.length_ascending (start : Float) (n : Nat) : (ascending start n).length = n := by
  induction n generalizing start with
  | zero => rfl
  | succ n ih => rw [ascending, List.length_cons, ih]

theorem Number.length_upTo_le (start finish : Float) (n : Nat) :
    (upTo start finish n).length ≤ n := by
  induction n generalizing start with
  | zero => exact Nat.le_refl 0
  | succ n ih =>
    rw [upTo]
    split
    · exact Nat.succ_le_succ (ih (start + 1))
    · exact Nat.zero_le _

theorem Segment.length_take_le (n : Nat) (segment : Segment) : (segment.take n).length ≤ n := by
  cases segment with
  | finite elements => exact List.length_take_le ..
  | infinite start => simp [Segment.take]
  | range start finish => simpa [Segment.take] using Number.length_upTo_le start finish n

theorem Sequence.length_take_le (n : Nat) : ∀ s : Sequence, (s.take n).length ≤ n
  | .single head _ => head.length_take_le n
  | .joined head _ tail => by
    have first := head.length_take_le n
    have rest := tail.length_take_le (n - (head.take n).length)
    rw [Sequence.take, List.length_append]
    omega

theorem Sequence.take_zero (s : Sequence) : s.take 0 = [] :=
  List.eq_nil_of_length_eq_zero (Nat.le_zero.mp (s.length_take_le 0))

namespace Drawing

theorem andThen_of_stopped {first : Drawing} {fault : EvalFault}
    (stopped : first.stopped = some fault) (second : Drawing) : first.andThen second = first := by
  rw [andThen, stopped]

theorem andThen_assoc (first second third : Drawing) :
    (first.andThen second).andThen third = first.andThen (second.andThen third) := by
  obtain ⟨figures, _ | fault⟩ := first
  · obtain ⟨more, _ | fault⟩ := second
    · simp [andThen]
    · rfl
  · rfl

end Drawing

theorem Value.drawingAll_append (first second : List Value) :
    Value.drawingAll (first ++ second) =
      (Value.drawingAll first).andThen (Value.drawingAll second) := by
  induction first with
  | nil => rfl
  | cons value rest ih =>
    rw [List.cons_append, Value.drawingAll, ih, Value.drawingAll, Drawing.andThen_assoc]

/-- A segment is drawn to its end, or stops the drawing at one of its elements. -/
theorem Segment.drawing_eq_take (segment : Segment) :
    (∃ n, segment.drawing = Value.drawingAll (segment.take n) ∧ (segment.take n).length = n ∧
      ∃ fault, segment.drawing.stopped = some fault) ∨
    ∃ n, ∀ more, segment.drawing = Value.drawingAll (segment.take (n + more)) ∧
      (segment.take (n + more)).length = n := by
  cases segment with
  | finite elements =>
    refine .inr ⟨elements.length, fun more => ?_⟩
    have all : (Segment.finite elements).take (elements.length + more) = elements :=
      List.take_of_length_le (Nat.le_add_right ..)
    rw [all]
    exact ⟨rfl, rfl⟩
  | infinite start => exact .inl ⟨1, rfl, rfl, _, rfl⟩
  | range start finish =>
    by_cases some : start ≤ finish
    · have one : (Segment.range start finish).take 1 = [.number start] := by
        simp [Segment.take, Number.upTo, some]
      have drawn : (Segment.range start finish).drawing = .stop (.notDrawable .number) := by
        simp [Segment.drawing, some]
      exact .inl ⟨1, by rw [one, drawn]; rfl, by rw [one]; rfl, _, by rw [drawn]; rfl⟩
    · refine .inr ⟨0, fun more => ?_⟩
      have none : (Segment.range start finish).take (0 + more) = [] := by
        cases more <;> simp [Segment.take, Number.upTo, some]
      have drawn : (Segment.range start finish).drawing = .nothing := by
        simp [Segment.drawing, some]
      exact ⟨by rw [none, drawn]; rfl, by rw [none]; rfl⟩

/-- Drawing a sequence looks at a first part of its elements only. -/
theorem Sequence.drawing_eq_take : ∀ s : Sequence, ∃ n, s.drawing = Value.drawingAll (s.take n)
  | .single head _ => by
    obtain ⟨n, drawn, -⟩ | ⟨n, drawn⟩ := head.drawing_eq_take
    · exact ⟨n, drawn⟩
    · exact ⟨n, (drawn 0).1⟩
  | .joined head _ tail => by
    obtain ⟨n, drawn, length, fault, stopped⟩ | ⟨n, drawn⟩ := head.drawing_eq_take
    · refine ⟨n, ?_⟩
      rw [Sequence.drawing, Drawing.andThen_of_stopped stopped, drawn, Sequence.take, length,
        Nat.sub_self, tail.take_zero, List.append_nil]
    · obtain ⟨more, rest⟩ := tail.drawing_eq_take
      obtain ⟨first, length⟩ := drawn more
      refine ⟨n + more, ?_⟩
      rw [Sequence.drawing, Sequence.take, Value.drawingAll_append, ← first, rest, length,
        Nat.add_sub_cancel_left]

end GSharp
