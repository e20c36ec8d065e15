import GSharp.Proofs.Number.Difference
import GSharp.Proofs.Value.Concatenation
import GSharp.Proofs.Value.Enumeration
import GSharp.Proofs.Value.WellFormed

namespace GSharp

/-- Asking for fewer elements gives a first part of what asking for more gives. -/
theorem Number.take_ascending (start : Float) (m n : Nat) :
    (ascending start n).take m = ascending start (min m n) := by
  induction n generalizing start m with
  | zero => rw [ascending, List.take_nil, Nat.min_zero, ascending]
  | succ n ih =>
    cases m with
    | zero => rw [List.take_zero, Nat.zero_min, ascending]
    | succ m => rw [ascending, List.take_succ_cons, ih, Nat.succ_min_succ, ascending]

theorem Number.take_upTo (start finish : Float) (m n : Nat) :
    (upTo start finish n).take m = upTo start finish (min m n) := by
  induction n generalizing start m with
  | zero => rw [upTo, List.take_nil, Nat.min_zero, upTo]
  | succ n ih =>
    cases m with
    | zero => rw [List.take_zero, Nat.zero_min, upTo]
    | succ m =>
      rw [Nat.succ_min_succ, upTo, upTo]
      split
      · rw [List.take_succ_cons, ih]
      · exact List.take_nil

theorem Segment.take_take (segment : Segment) (m n : Nat) :
    (segment.take n).take m = segment.take (min m n) := by
  cases segment with
  | finite elements => exact List.take_take
  | infinite start => rw [take, take, ← List.map_take, Number.take_ascending]
  | range start finish => rw [take, take, ← List.map_take, Number.take_upTo]

theorem Sequence.take_take (m n : Nat) : ∀ s : Sequence, (s.take n).take m = s.take (min m n)
  | .single head _ => head.take_take m n
  | .joined head _ tail => by
    have first := head.take_take m n
    have length := congrArg List.length first
    rw [List.length_take] at length
    have few := head.length_take_le n
    rw [take, take, List.take_append, first, tail.take_take, ← length]
    congr 2
    omega

/-- Only the bounds of an inverted range are counted as nothing. -/
theorem Segment.take_of_count {segment : Segment} (none : segment.count = .finite 0) (n : Nat) :
    segment.take n = [] := by
  cases segment with
  | finite elements =>
    have empty : elements = [] :=
      List.eq_nil_of_length_eq_zero (by simpa [count] using none)
    rw [empty, take, List.take_nil]
  | infinite start => cases none
  | range start finish =>
    have inverted : ¬start ≤ finish := by
      intro ordered
      have counted := Number.toCount?_sub_add_one ordered
      rw [count, if_neg fun less => Number.not_le_of_lt less ordered, Count.finite.injEq] at none
      cases counts : Number.toCount? (finish - start + 1) with
      | none =>
        rw [counts, Option.getD_none] at none
        cases none
      | some n =>
        rw [counts, Option.getD_some] at none
        exact counted (none ▸ counts)
    cases n with
    | zero => rfl
    | succ n => rw [take, Number.upTo, if_neg inverted, List.map_nil]

theorem Sequence.take_of_isEmpty {n : Nat} : ∀ {s : Sequence}, s.isEmpty = true → s.take n = []
  | .single _ _, empty => Segment.take_of_count (of_decide_eq_true empty) n
  | .joined _ _ tail, empty => by
    obtain ⟨first, rest⟩ := Count.plus_eq_zero (of_decide_eq_true empty)
    rw [take, Segment.take_of_count first, List.nil_append]
    exact tail.take_of_isEmpty (decide_eq_true rest)

namespace Count

theorem plus_assoc (first second third : Count) :
    (first.plus second).plus third = first.plus (second.plus third) := by
  cases first <;> cases second <;> cases third <;>
    simp only [plus, finite.injEq]
  omega

theorem plus_eq_infinite {first second : Count} :
    first.plus second = .infinite ↔ first = .infinite ∨ second = .infinite := by
  cases first <;> cases second <;> simp [plus]

end Count

namespace Sequence

/-- The element at a place, counted from zero, if the sequence goes on so far. -/
def element? (s : Sequence) (place : Nat) : Option Value := (s.take (place + 1))[place]?

theorem getElem?_take (s : Sequence) {n place : Nat} (before : place < n) :
    (s.take n)[place]? = s.element? place := by
  have part : s.take (place + 1) = (s.take n).take (place + 1) := by
    rw [take_take, Nat.min_eq_left (Nat.succ_le_of_lt before)]
  rw [element?, part, List.getElem?_take_of_lt (Nat.lt_succ_self place)]

theorem length_take (s : Sequence) (m n : Nat) :
    (s.take (min m n)).length = min m (s.take n).length := by
  rw [← take_take, List.length_take]

namespace Attached

variable {appended receiver s : Sequence}

/-- However many elements are asked for, those of the receiver come first. -/
theorem take (attached : Attached appended receiver s) (n : Nat) :
    s.take n = receiver.take n ++ appended.take (n - (receiver.take n).length) := by
  induction attached generalizing n with
  | @empty receiver empty =>
    rw [Sequence.take, Segment.take_of_count (head_count empty), take_of_isEmpty empty]
  | single => rfl
  | @joined head kind tail rest full agree attached ih =>
    rw [Sequence.take, Sequence.take, ih, List.append_assoc, List.length_append, Nat.sub_sub]

theorem count (attached : Attached appended receiver s) :
    s.count = receiver.count.plus appended.count := by
  induction attached with
  | @empty receiver empty =>
    have none : receiver.count = .finite 0 := of_decide_eq_true empty
    rw [Sequence.count, head_count empty, none]
  | single => rfl
  | joined full agree attached ih => rw [Sequence.count, Sequence.count, ih, Count.plus_assoc]

/-- Segments of the receiver are kept as they are, and what is attached is kept whole. -/
theorem segments (attached : Attached appended receiver s) :
    ∃ kept, s.segments = kept ++ appended.segments ∧
      kept.map Prod.fst <+: receiver.segments.map Prod.fst := by
  induction attached with
  | @empty receiver empty =>
    refine ⟨[(receiver.head, appended.elementKind)], rfl, ?_⟩
    cases receiver <;> simp [Sequence.segments, head]
  | @single head kind full agree =>
    exact ⟨[(head, kind.or appended.elementKind)], rfl, List.prefix_refl _⟩
  | @joined head kind tail rest full agree attached ih =>
    obtain ⟨kept, whole, same⟩ := ih
    refine ⟨(head, kind.or appended.elementKind) :: kept, ?_, ?_⟩
    · rw [Sequence.segments, whole, List.cons_append]
    · simpa [Sequence.segments] using same

end Attached

section Joined

variable {first second joined : Sequence} {line : Nat}

/-- The places of the second sequence are counted from where the first one ends. -/
theorem element?_of_take (whole : ∀ n, joined.take n =
    first.take n ++ second.take (n - (first.take n).length)) (place : Nat) :
    joined.element? place =
      (first.element? place).or (second.element? (place - (first.take place).length)) := by
  rw [element?, whole]
  by_cases inFirst : place < (first.take (place + 1)).length
  · rw [List.getElem?_append_left inFirst]
    have present : (first.take (place + 1))[place]? = some (first.take (place + 1))[place] :=
      List.getElem?_eq_getElem inFirst
    rw [element?, present, Option.or]
  · have ended := Nat.le_of_not_lt inFirst
    have length := first.length_take place (place + 1)
    rw [Nat.min_eq_left (Nat.le_succ place), Nat.min_eq_right ended] at length
    rw [List.getElem?_append_right ended, element?, List.getElem?_eq_none ended, Option.none_or,
      length, getElem?_take second (by omega)]

/-- Joining loses no element and doubles none: the first sequence is gone through, and where it ends
the second one. Counts add up to the limit, and the segments of both are shared. -/
theorem append_enumerates (made : first.append second line = .ok joined) :
    (∀ n, joined.take n = first.take n ++ second.take (n - (first.take n).length)) ∧
      (∀ place, joined.element? place =
        (first.element? place).or (second.element? (place - (first.take place).length))) ∧
      (first.NeverEnds → ∀ n, joined.take n = first.take n) ∧
      (joined.count = .infinite ↔ first.count = .infinite ∨ second.count = .infinite) ∧
      (∀ m n, first.count = .finite m → second.count = .finite n →
        joined.count = .finite (min (m + n) Count.limit)) ∧
      ∃ kept, joined.segments = kept ++ second.segments ∧
        kept.map Prod.fst <+: first.segments.map Prod.fst := by
  have attached := attached_of_append made
  have whole := attached.take
  refine ⟨whole, element?_of_take whole, fun endless n => ?_, ?_, fun m n counted countedToo => ?_,
    attached.segments⟩
  · rw [whole, endless n, Nat.sub_self, take_zero, List.append_nil]
  · rw [attached.count, Count.plus_eq_infinite]
  · rw [attached.count, counted, countedToo, Count.plus]

/-- An endless sequence after two elements and an inverted range, which keeps its place. -/
theorem append_enumerates_inverted :
    let first : Sequence :=
      .joined (.finite [.number 1, .number 2]) (some .number) (.range 5 3)
    let second : Sequence := .infinite 7
    let joined : Sequence := .joined (.finite [.number 1, .number 2]) (some .number)
      (.joined (.range 5 3) (some .number) (.infinite 7))
    first.append second 1 = .ok joined ∧ ∀ place, joined.element? place =
      (first.element? place).or (second.element? (place - (first.take place).length)) := by
  intro first second joined
  have made : first.append second 1 = .ok joined := rfl
  exact ⟨made, (append_enumerates made).2.1⟩

end Joined

end Sequence

end GSharp
