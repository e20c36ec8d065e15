import GSharp.Builtin
import GSharp.Proofs.Number.Count
import GSharp.Proofs.Syntax.Canonical
import GSharp.Proofs.Value.Concatenation
import GSharp.Proofs.Value.Enumeration

namespace GSharp

/-- A bound of a range denotes a number below `maxSafe`, so the one after it is safe as well. -/
theorem Number.isBound_iff {x : Float} :
    Number.isBound x = true ↔ ∃ n, n < maxSafe ∧ Denotes x n := by
  unfold isBound
  rw [Bool.and_eq_true, decide_eq_true_eq, isSafeCount_iff]
  constructor
  · rintro ⟨⟨n, count⟩, below⟩
    exact ⟨n, (count.lt_iff (.ofNat (le_refl _))).mp below, count⟩
  · rintro ⟨n, below, count⟩
    exact ⟨⟨n, count⟩, (count.lt_iff (.ofNat (le_refl _))).mpr below⟩

namespace Sequence

/-- However many elements are asked for, there are no more and no fewer than `n`. -/
def EndsAfter (s : Sequence) (n : Nat) : Prop := ∀ k, (s.take k).length = min k n

/-- However many elements are asked for, there are as many. -/
def NeverEnds (s : Sequence) : Prop := ∀ k, (s.take k).length = k

/-- The sequences that a program can write: lists that fit in memory, ranges between bounds, and
whatever is put together from them. -/
inductive Built : Sequence → Prop
  | list {elements : List Value} {line : Nat} {s : Sequence} (short : elements.length ≤ Count.limit)
      (made : ofList elements line = .ok s) : Built s
  | infinite {start : Float} (bound : Number.isBound start = true) : Built (infinite start)
  | range {start finish : Float} (first : Number.isBound start = true)
      (last : Number.isBound finish = true) : Built (range start finish)
  | append {receiver appended s : Sequence} {line : Nat} (left : Built receiver)
      (right : Built appended) (made : receiver.append appended line = .ok s) : Built s

end Sequence

/-- The enumeration that a count stands for: endless, or of a length that only the limit hides. -/
def Count.Measures (count : Count) (elements : Nat → List Value) : Prop :=
  (count = .infinite ∧ ∀ k, (elements k).length = k) ∨
    ∃ n, count = .finite (min n limit) ∧ ∀ k, (elements k).length = min k n

/-- Enumerating one after the other adds the counts up. -/
theorem Count.Measures.plus {first second : Count} {head tail : Nat → List Value}
    (left : first.Measures head) (right : second.Measures tail) :
    (first.plus second).Measures fun k => head k ++ tail (k - (head k).length) := by
  rcases left with ⟨rfl, endless⟩ | ⟨m, rfl, ends⟩
  · refine .inl ⟨rfl, fun k => ?_⟩
    rcases right with ⟨rfl, rest⟩ | ⟨n, rfl, rest⟩ <;> simp [endless, rest]
  · rcases right with ⟨rfl, endless⟩ | ⟨n, rfl, rest⟩
    · refine .inl ⟨rfl, fun k => ?_⟩
      simp only [List.length_append, ends, endless]
      omega
    · refine .inr ⟨m + n, ?_, fun k => ?_⟩
      · simp only [Count.plus, Count.finite.injEq]
        omega
      · simp only [List.length_append, ends, rest]
        omega

namespace Number

variable {start finish : Float} {m n : Nat}

/-- Going up by one from a bound reaches every number up to the last bound and stops. -/
theorem length_upTo (first : Denotes start m) (last : Denotes finish n) (below : n < maxSafe)
    (k : Nat) : (upTo start finish k).length = min k (n + 1 - m) := by
  induction k generalizing start m with
  | zero => simp [upTo]
  | succ k ih =>
    by_cases more : m ≤ n
    · have next := first.add_one (by omega)
      rw [upTo, if_pos ((first.le_iff last).mpr more), List.length_cons, ih next]
      omega
    · rw [upTo, if_neg fun le => more ((first.le_iff last).mp le), List.length_nil]
      omega

end Number

/-- A segment that a program can write. -/
def Segment.Bounded : Segment → Prop
  | .finite elements => elements.length ≤ Count.limit
  | .infinite start => Number.isBound start = true
  | .range start finish => Number.isBound start = true ∧ Number.isBound finish = true

/-- The length of a range is one more than the distance of its bounds, unless they are inverted. -/
theorem Segment.range_count {start finish : Float} {m n : Nat} (first : Number.Denotes start m)
    (last : Number.Denotes finish n) (below : n < Number.maxSafe) :
    (Segment.range start finish).count = .finite (n + 1 - m) := by
  rw [Segment.count]
  by_cases inverted : n < m
  · rw [if_pos ((last.lt_iff first).mpr inverted), Nat.sub_eq_zero_of_le inverted]
  · have length := (last.sub first (by omega)).add_one (by omega)
    rw [if_neg fun lt => inverted ((last.lt_iff first).mp lt), length.toCount?_eq]
    congr 1
    rw [Option.getD_some]
    omega

/-- Between bounds there are as many elements as are counted. -/
theorem Segment.range_measures {start finish : Float} (first : Number.isBound start = true)
    (last : Number.isBound finish = true) :
    ∃ n ≤ Count.limit, (Segment.range start finish).count = .finite n ∧
      ∀ k, ((Segment.range start finish).take k).length = min k n := by
  obtain ⟨m, -, starts⟩ := Number.isBound_iff.mp first
  obtain ⟨n, below, ends⟩ := Number.isBound_iff.mp last
  refine ⟨n + 1 - m, ?_, Segment.range_count starts ends below, fun k => ?_⟩
  · have room : Number.maxSafe ≤ Count.limit := by decide
    omega
  · rw [Segment.take, List.length_map, Number.length_upTo starts ends below]

theorem Segment.Bounded.measures {segment : Segment} (bounded : segment.Bounded) :
    segment.count.Measures (segment.take ·) := by
  cases segment with
  | finite elements =>
    refine .inr ⟨elements.length, ?_, fun k => List.length_take ..⟩
    rw [Segment.count, Nat.min_eq_left bounded]
  | infinite start =>
    refine .inl ⟨rfl, fun k => ?_⟩
    simp only [Segment.take, List.length_map, Number.length_ascending]
  | range start finish =>
    obtain ⟨n, small, counted, ends⟩ := Segment.range_measures bounded.1 bounded.2
    exact .inr ⟨n, by rw [counted, Nat.min_eq_left small], ends⟩

namespace Sequence

def Bounded (s : Sequence) : Prop := ∀ segment ∈ s.segments, segment.1.Bounded

theorem bounded_single {head : Segment} {kind : Option ValueKind} :
    Bounded (.single head kind) ↔ head.Bounded := by simp [Bounded, segments]

theorem bounded_joined {head : Segment} {kind : Option ValueKind} {tail : Sequence} :
    Bounded (.joined head kind tail) ↔ head.Bounded ∧ tail.Bounded := by simp [Bounded, segments]

theorem Bounded.head {s : Sequence} (bounded : s.Bounded) : s.head.Bounded := by
  cases s with
  | single head kind => exact bounded_single.mp bounded
  | joined head kind tail => exact (bounded_joined.mp bounded).1

theorem Bounded.measures : ∀ {s : Sequence}, s.Bounded → s.count.Measures (s.take ·)
  | .single _ _, bounded => (bounded_single.mp bounded).measures
  | .joined _ _ _, bounded =>
    have ⟨first, rest⟩ := bounded_joined.mp bounded
    first.measures.plus rest.measures

/-- Nothing is attached that was not in one of the two sequences. -/
theorem Attached.bounded {receiver appended s : Sequence} (attached : Attached appended receiver s)
    (left : receiver.Bounded) (right : appended.Bounded) : s.Bounded := by
  induction attached with
  | empty => exact bounded_joined.mpr ⟨left.head, right⟩
  | single => exact bounded_joined.mpr ⟨bounded_single.mp left, right⟩
  | joined _ _ _ ih =>
    have ⟨first, rest⟩ := bounded_joined.mp left
    exact bounded_joined.mpr ⟨first, ih rest⟩

theorem bounded_of_ofList {elements : List Value} {line : Nat} {s : Sequence}
    (short : elements.length ≤ Count.limit) (made : ofList elements line = .ok s) : s.Bounded := by
  unfold ofList at made
  split at made
  · cases made
    exact bounded_single.mpr short
  · split at made
    · cases made
    · cases made
      exact bounded_single.mpr short

theorem Built.bounded {s : Sequence} (built : s.Built) : s.Bounded := by
  induction built with
  | list short made => exact bounded_of_ofList short made
  | infinite bound => exact bounded_single.mpr bound
  | range first last => exact bounded_single.mpr ⟨first, last⟩
  | append _ _ made left right => exact (attached_of_append made).bounded left right

theorem EndsAfter.unique {s : Sequence} {m n : Nat} (first : s.EndsAfter m)
    (second : s.EndsAfter n) : m = n := by
  have length : min (m + n) m = min (m + n) n := (first (m + n)).symm.trans (second (m + n))
  omega

theorem NeverEnds.not_endsAfter {s : Sequence} (endless : s.NeverEnds) (n : Nat) :
    ¬s.EndsAfter n := fun ends => by
  have length : n + 1 = min (n + 1) n := (endless (n + 1)).symm.trans (ends (n + 1))
  omega

end Sequence

namespace Builtin

variable {s : Sequence} {n : Nat}

theorem countOf_of_infinite (endless : s.count = .infinite) (line : Nat) :
    countOf s line = .ok .undefined := by
  rw [countOf, endless]

/-- The limit that counts stop at is beyond the safe ones, so it is never taken for a length. -/
theorem countOf_of_finite (finite : s.count = .finite (min n Count.limit)) (line : Nat) :
    countOf s line = if n ≤ Number.maxSafe then .ok (.number (Number.ofNat n))
      else .error (count.refuse line .tooLong) := by
  have room : Number.maxSafe < Count.limit := by decide
  rw [countOf, finite]
  simp only [Number.ofCount?_eq]
  by_cases safe : n ≤ Number.maxSafe
  · have exact : min n Count.limit = n := by omega
    rw [if_pos safe, exact, if_pos safe]
  · rw [if_neg safe, if_neg (by omega)]

theorem apply_count (s : Sequence) (line : Nat) (library : Library) :
    (count.apply [.sequence s] line).run.run library =
      ((countOf s line).mapError .failed, library) := by
  have unfolded : count.apply [.sequence s] line = lift (countOf s line) := rfl
  rw [unfolded]
  cases countOf s line <;> rfl

/-- Whether counting gives a number, gives undefined or fails is decided by the enumeration: it ends
after so many elements, it never ends, or it ends after more than a number can tell apart. -/
theorem count_agrees_with_enumeration (built : s.Built) (line : Nat) (library : Library) :
    let outcome := ((count.apply [.sequence s] line).run.run library).1
    (∀ n, outcome = .ok (.number (Number.ofNat n)) ↔ s.EndsAfter n ∧ n ≤ Number.maxSafe) ∧
      (outcome = .ok .undefined ↔ s.NeverEnds) ∧
      (outcome = .error (.failed ⟨.invalidArgument "count" .tooLong, line⟩) ↔
        ∃ n, s.EndsAfter n ∧ Number.maxSafe < n) := by
  simp only [apply_count]
  rcases built.bounded.measures with ⟨endless, enumeration⟩ | ⟨n, finite, enumeration⟩
  · have never : s.NeverEnds := enumeration
    rw [countOf_of_infinite endless]
    refine ⟨fun n => ?_, ?_, ?_⟩
    · exact iff_of_false (by simp [Except.mapError]) fun ends => never.not_endsAfter n ends.1
    · exact iff_of_true rfl never
    · exact iff_of_false (by simp [Except.mapError]) fun ⟨n, ends, _⟩ => never.not_endsAfter n ends
  · have ends : s.EndsAfter n := enumeration
    have finite' : ¬s.NeverEnds := fun endless => endless.not_endsAfter n ends
    rw [countOf_of_finite finite]
    by_cases safe : n ≤ Number.maxSafe
    · rw [if_pos safe]
      refine ⟨fun m => ⟨fun same => ?_, fun ⟨other, _⟩ => ?_⟩, ?_, ?_⟩
      · simp only [Except.mapError, Except.ok.injEq, Value.number.injEq] at same
        obtain rfl := Number.ofNat_injective safe same
        exact ⟨ends, safe⟩
      · rw [other.unique ends]
        rfl
      · exact iff_of_false (by simp [Except.mapError]) finite'
      · refine iff_of_false (by simp [Except.mapError]) fun ⟨m, other, large⟩ => ?_
        obtain rfl := other.unique ends
        omega
    · rw [if_neg safe]
      refine ⟨fun m => ?_, ?_, ?_⟩
      · refine iff_of_false (by simp [Except.mapError]) fun ⟨other, small⟩ => ?_
        obtain rfl := other.unique ends
        exact safe small
      · exact iff_of_false (by simp [Except.mapError]) finite'
      · exact iff_of_true rfl ⟨n, ends, by omega⟩

end Builtin

namespace Sequence

/-- An inverted range, the longest range and one number more. -/
def overlong : Sequence :=
  .joined (.range 5 3) (some .number)
    (.joined (.range 0 9007199254740990) (some .number)
      (.single (.range 1 1) (some .number)))

theorem overlong_built : overlong.Built := by
  have inverted : (Sequence.range 5 3).Built := .range (by decide +kernel) (by decide +kernel)
  have longest : (Sequence.range 0 9007199254740990).Built :=
    .range (by decide +kernel) (by decide +kernel)
  have one : (Sequence.range 1 1).Built := .range (by decide +kernel) (by decide +kernel)
  have long : (Sequence.range 0 9007199254740990).append (.range 1 1) 1 =
    .ok (.joined (.range 0 9007199254740990) (some .number) (.range 1 1)) := rfl
  exact .append inverted (.append longest one long) (show append _ _ 1 = _ from rfl)

theorem overlong_count : overlong.count = .finite (2 ^ 53) := by decide +kernel

end Sequence

namespace Builtin

theorem count_overlong :
    Sequence.overlong.Built ∧ ∃ n, Sequence.overlong.EndsAfter n ∧ Number.maxSafe < n := by
  have refused : ((count.apply [.sequence .overlong] 1).run.run (.create 1 1 0)).1 =
      .error (.failed ⟨.invalidArgument "count" .tooLong, 1⟩) := by
    rw [apply_count, countOf_of_finite (n := 2 ^ 53) Sequence.overlong_count, if_neg (by decide)]
    rfl
  have built := Sequence.overlong_built
  exact ⟨built, (count_agrees_with_enumeration built 1 (.create 1 1 0)).2.2.mp refused⟩

end Builtin

end GSharp
