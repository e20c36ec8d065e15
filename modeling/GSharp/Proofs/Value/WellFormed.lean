import GSharp.Proofs.Guarantee
import GSharp.Proofs.Number.Magnitude
import GSharp.Proofs.Value.Counting

namespace GSharp

/-- A length is at least zero, unless it is not a number. -/
def Measure.WellFormed (length : Measure) : Prop := 0 ≤ length.value ∨ length.value.isNaN = true

theorem Measure.wellFormed_of (x : Float) : (Measure.of x).WellFormed := Number.abs_nonneg_or_nan x

def Figure.WellFormed : Figure → Prop
  | .point _ | .line _ _ | .segment _ _ | .ray _ _ => True
  | .circle c => c.radius.WellFormed
  | .arc a => a.radius.WellFormed
  | .measure m => m.WellFormed

/-- Some first part of the segment has the element. -/
def Segment.Contains (segment : Segment) (element : Value) : Prop := ∃ n, element ∈ segment.take n

/-- Some segment has the element, be it one after a segment that never ends. -/
def Sequence.Contains : Sequence → Value → Prop
  | .single head _, element => head.Contains element
  | .joined head _ tail, element => head.Contains element ∨ tail.Contains element

/-- Every element has the kind that the sequence names; where it names none, there is none. -/
def Sequence.Homogeneous (s : Sequence) : Prop :=
  ∀ element, s.Contains element → s.elementKind = some element.kind

mutual

def Value.WellFormed : Value → Prop
  | .number _ | .string _ | .boolean _ | .undefined => True
  | .figure f => f.WellFormed
  | .sequence s => s.WellFormed

def Value.AllWellFormed : List Value → Prop
  | [] => True
  | first :: rest => first.WellFormed ∧ Value.AllWellFormed rest

def Segment.WellFormed : Segment → Prop
  | .finite elements => Value.AllWellFormed elements
  | .infinite start => Number.isBound start = true
  | .range start finish => Number.isBound start = true ∧ Number.isBound finish = true

def Sequence.WellFormed : Sequence → Prop
  | .single head kind => Sequence.Homogeneous (.single head kind) ∧ head.WellFormed
  | .joined head kind tail =>
    Sequence.Homogeneous (.joined head kind tail) ∧ head.WellFormed ∧ tail.WellFormed

end

theorem Value.allWellFormed_iff {values : List Value} :
    Value.AllWellFormed values ↔ ∀ value ∈ values, value.WellFormed := by
  induction values with
  | nil => simp [Value.AllWellFormed]
  | cons first rest ih => rw [Value.AllWellFormed, ih, List.forall_mem_cons]

section Elements

theorem Sequence.contains_of_mem_take {n : Nat} {element : Value} : ∀ {s : Sequence},
    element ∈ s.take n → s.Contains element
  | .single _ _, taken => ⟨n, taken⟩
  | .joined head _ tail, taken => by
    rcases List.mem_append.mp taken with first | later
    · exact .inl ⟨n, first⟩
    · exact .inr (Sequence.contains_of_mem_take later)

theorem Sequence.WellFormed.homogeneous {s : Sequence} (wellFormed : s.WellFormed) :
    s.Homogeneous := by
  cases s with
  | single head kind => exact wellFormed.1
  | joined head kind tail => exact wellFormed.1

theorem Segment.WellFormed.of_contains {segment : Segment} {element : Value}
    (wellFormed : segment.WellFormed) (contained : segment.Contains element) :
    element.WellFormed := by
  obtain ⟨n, taken⟩ := contained
  cases segment with
  | finite elements => exact Value.allWellFormed_iff.mp wellFormed _ (List.mem_of_mem_take taken)
  | infinite start =>
    obtain ⟨x, -, rfl⟩ := List.mem_map.mp taken
    trivial
  | range start finish =>
    obtain ⟨x, -, rfl⟩ := List.mem_map.mp taken
    trivial

theorem Sequence.WellFormed.of_contains {element : Value} : ∀ {s : Sequence},
    s.WellFormed → s.Contains element → element.WellFormed
  | .single _ _, wellFormed, contained => wellFormed.2.of_contains contained
  | .joined _ _ _, wellFormed, contained =>
    contained.elim wellFormed.2.1.of_contains (Sequence.WellFormed.of_contains wellFormed.2.2)

theorem Sequence.WellFormed.of_mem_take {s : Sequence} {n : Nat} {element : Value}
    (wellFormed : s.WellFormed) (taken : element ∈ s.take n) : element.WellFormed :=
  wellFormed.of_contains (Sequence.contains_of_mem_take taken)

theorem Value.WellFormed.asSequence {value : Value} (wellFormed : value.WellFormed) (line : Nat) :
    Gives Sequence.WellFormed (value.asSequence line) := by
  cases value with
  | sequence s => exact .ok wellFormed
  | _ => exact .error _

end Elements

section Empty

theorem Count.plus_eq_zero {first second : Count} (none : first.plus second = .finite 0) :
    first = .finite 0 ∧ second = .finite 0 := by
  cases first <;> cases second <;>
    simp only [Count.plus, Count.finite.injEq, reduceCtorEq] at none ⊢
  have : 0 < Count.limit := by decide
  omega

theorem Segment.WellFormed.not_contains {segment : Segment} (wellFormed : segment.WellFormed)
    (none : segment.count = .finite 0) (element : Value) : ¬ segment.Contains element := by
  rintro ⟨n, taken⟩
  cases segment with
  | finite elements =>
    have empty : elements = [] :=
      List.eq_nil_of_length_eq_zero (by simpa [Segment.count] using none)
    simp [empty, Segment.take] at taken
  | infinite start => cases none
  | range start finish =>
    obtain ⟨k, -, counted, ends⟩ := Segment.range_measures wellFormed.1 wellFormed.2
    obtain rfl : k = 0 := Count.finite.inj (counted.symm.trans none)
    rw [List.eq_nil_of_length_eq_zero ((ends n).trans (Nat.min_zero n))] at taken
    cases taken

theorem Sequence.WellFormed.head {s : Sequence} (wellFormed : s.WellFormed) :
    s.head.WellFormed := by
  cases s with
  | single head kind => exact wellFormed.2
  | joined head kind tail => exact wellFormed.2.1

theorem Sequence.head_count {s : Sequence} (empty : s.isEmpty = true) :
    s.head.count = .finite 0 := by
  have none : s.count = .finite 0 := of_decide_eq_true empty
  cases s with
  | single head kind => exact none
  | joined head kind tail => exact (Count.plus_eq_zero none).1

end Empty

namespace Sequence

theorem empty_wellFormed : empty.WellFormed := by
  refine ⟨fun element contained => ?_, trivial⟩
  obtain ⟨n, taken⟩ := contained
  simp [Segment.take] at taken

theorem list_wellFormed {elements : List Value} {kind : ValueKind}
    (wellFormed : ∀ element ∈ elements, element.WellFormed)
    (alike : ∀ element ∈ elements, element.kind = kind) :
    (single (.finite elements) (some kind)).WellFormed := by
  refine ⟨fun element contained => ?_, Value.allWellFormed_iff.mpr wellFormed⟩
  obtain ⟨n, taken⟩ := contained
  exact congrArg some (alike element (List.mem_of_mem_take taken)).symm

theorem infinite_wellFormed {start : Float} (bound : Number.isBound start = true) :
    (infinite start).WellFormed := by
  refine ⟨fun element contained => ?_, bound⟩
  obtain ⟨n, taken⟩ := contained
  obtain ⟨x, -, rfl⟩ := List.mem_map.mp taken
  rfl

theorem range_wellFormed {start finish : Float} (first : Number.isBound start = true)
    (last : Number.isBound finish = true) : (range start finish).WellFormed := by
  refine ⟨fun element contained => ?_, first, last⟩
  obtain ⟨n, taken⟩ := contained
  obtain ⟨x, -, rfl⟩ := List.mem_map.mp taken
  rfl

theorem ofList_wellFormed {elements : List Value}
    (wellFormed : ∀ element ∈ elements, element.WellFormed) (line : Nat) :
    Gives WellFormed (ofList elements line) := by
  cases elements with
  | nil => exact .ok empty_wellFormed
  | cons first rest =>
    cases found : (first :: rest).find? fun v => v.kind ≠ first.kind with
    | some odd =>
      simp only [ofList, found]
      exact .error _
    | none =>
      simp only [ofList, found]
      refine .ok (list_wellFormed wellFormed fun element member => ?_)
      simpa using List.find?_eq_none.mp found element member

section Append

variable {appended receiver s : Sequence}

/-- Joining makes no elements. -/
theorem Attached.contains {element : Value} (attached : Attached appended receiver s)
    (contained : s.Contains element) : receiver.Contains element ∨ appended.Contains element := by
  induction attached with
  | @empty receiver _ =>
    refine contained.imp_left fun first => ?_
    cases receiver with
    | single head kind => exact first
    | joined head kind tail => exact .inl first
  | single => exact contained
  | joined full agree attached ih =>
    rcases contained with first | later
    · exact .inl (.inl first)
    · exact (ih later).imp_left .inr

/-- The kind of a joined sequence is that of either part that names one. -/
theorem or_eq_of_agreeing {left right : Option ValueKind} {kind : ValueKind}
    (agree : Agreeing left right) (known : left = some kind ∨ right = some kind) :
    left.or right = some kind := by
  cases left with
  | none => simpa using known
  | some expected =>
    rcases known with same | found
    · exact same
    · exact congrArg some (agree expected rfl kind found)

/-- A kept head is retyped only where nothing says otherwise. -/
theorem attached_wellFormed (attached : Attached appended receiver s)
    (first : receiver.WellFormed) (second : appended.WellFormed) : s.WellFormed := by
  induction attached with
  | @empty receiver empty =>
    -- The head keeps its place and changes its kind, which nothing in it contradicts.
    refine ⟨fun element contained => ?_, first.head, second⟩
    have none := first.head.not_contains (head_count empty) element
    exact second.homogeneous element (contained.resolve_left none)
  | @single head kind full agree =>
    refine ⟨fun element contained => ?_, first.head, second⟩
    exact or_eq_of_agreeing agree
      (contained.imp (first.homogeneous element) (second.homogeneous element))
  | @joined head kind tail rest full agree attached ih =>
    refine ⟨fun element contained => ?_, first.head, ih first.2.2⟩
    have origin := Attached.contains (.joined full agree attached) contained
    exact or_eq_of_agreeing agree
      (origin.imp (first.homogeneous element) (second.homogeneous element))

theorem append_wellFormed (first : receiver.WellFormed) (second : appended.WellFormed)
    (line : Nat) : Gives WellFormed (receiver.append appended line) :=
  fun _ made => attached_wellFormed (attached_of_append made) first second

end Append

end Sequence

end GSharp
