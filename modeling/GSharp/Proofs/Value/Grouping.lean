import GSharp.Proofs.Value.Mismatch

namespace GSharp.Sequence

variable {appended receiver s : Sequence} {line : Nat}

section Agreeing

variable {left right other : Option ValueKind}

theorem agreeing_or_left (agree : Agreeing left right) :
    Agreeing (left.or right) other ↔ Agreeing left other ∧ Agreeing right other := by
  cases left with
  | none => simp [Agreeing]
  | some expected =>
    rw [Option.or]
    refine ⟨fun whole => ⟨whole, fun found known => ?_⟩, And.left⟩
    obtain rfl := agree expected rfl found known
    exact whole _ rfl

theorem agreeing_or_right (agree : Agreeing left right) :
    Agreeing other (left.or right) ↔ Agreeing other left ∧ Agreeing other right := by
  cases left with
  | none => simp [Agreeing]
  | some expected =>
    rw [Option.or]
    refine ⟨fun whole => ⟨whole, fun kind named found known => ?_⟩, And.left⟩
    obtain rfl := agree expected rfl found known
    exact whole kind named _ rfl

end Agreeing

/-- What lets a sequence be put after another one. -/
def Accepts (receiver appended : Sequence) : Prop :=
  receiver.isEmpty = true ∨ Agreeing receiver.elementKind appended.elementKind

theorem accepts_of_full (full : receiver.isEmpty = false) :
    receiver.Accepts appended ↔ Agreeing receiver.elementKind appended.elementKind := by
  rw [Accepts, full]
  simp

theorem Composed.accepts_iff (composed : Composed receiver) (line : Nat) :
    receiver.Accepts appended ↔ ∃ s, receiver.append appended line = .ok s := by
  constructor
  · rintro (empty | agree)
    · exact append_of_isEmpty empty line
    · exact append_of_agreeing line composed.coherent agree
  · rintro ⟨s, made⟩
    cases attached_of_append made with
    | empty empty => exact .inl empty
    | single full agree => exact .inr agree
    | joined full agree attached => exact .inr agree

theorem Attached.isEmpty (attached : Attached appended receiver s) :
    s.isEmpty = (receiver.isEmpty && appended.isEmpty) := by
  have none : s.count = .finite 0 ↔ receiver.count = .finite 0 ∧ appended.count = .finite 0 := by
    rw [attached.count]
    exact ⟨Count.plus_eq_zero, fun ⟨first, second⟩ => by rw [first, second]; rfl⟩
  simp only [Sequence.isEmpty, none, Bool.decide_and]

/-- What its kind says of a sequence: there are no elements without a kind, no kind but that of a
range without elements, and elements of any other kind that is named. -/
structure Kinded (s : Sequence) : Prop where
  untyped : s.elementKind = none → s.isEmpty = true
  inverted : s.isEmpty = true → ∀ kind ∈ s.elementKind, kind = .number
  filled : ∀ kind ∈ s.elementKind, kind ≠ .number → s.take 1 ≠ []

namespace Kinded

theorem of_number (number : s.elementKind = some .number) : s.Kinded where
  untyped none := by rw [number] at none; cases none
  inverted _ kind known := by rw [number] at known; exact (Option.some.inj known).symm
  filled kind known other := by
    rw [number] at known
    exact absurd (Option.some.inj known).symm other

theorem of_none (none : s.elementKind = none) (empty : s.isEmpty = true) : s.Kinded where
  untyped _ := empty
  inverted _ kind known := by rw [none] at known; cases known
  filled kind known := by rw [none] at known; cases known

/-- Where there are elements, their kind is known. -/
theorem exists_kind (kinded : s.Kinded) (full : s.isEmpty = false) :
    ∃ kind, s.elementKind = some kind := by
  refine Option.ne_none_iff_exists'.mp fun none => ?_
  rw [kinded.untyped none] at full
  cases full

theorem of_elements (first : Value) (rest : List Value) :
    (single (.finite (first :: rest)) (some first.kind)).Kinded where
  untyped none := by cases none
  inverted empty := by
    have none : (first :: rest).length = 0 := Count.finite.inj (of_decide_eq_true empty)
    cases none
  filled _ _ _ none := by cases none

theorem of_attached (attached : Attached appended receiver s) (first : receiver.Kinded)
    (second : appended.Kinded) : s.Kinded := by
  have kind := attached.elementKind
  have empty := attached.isEmpty
  cases nothing : receiver.isEmpty with
  | true =>
    rw [if_pos nothing] at kind
    rw [nothing, Bool.true_and] at empty
    refine ⟨?_, ?_, ?_⟩
    · rw [kind, empty]
      exact second.untyped
    · rw [kind, empty]
      exact second.inverted
    · rw [kind, attached.take, take_of_isEmpty nothing]
      exact second.filled
  | false =>
    rw [if_neg (Bool.eq_false_iff.mp nothing)] at kind
    rw [nothing, Bool.false_and] at empty
    obtain ⟨expected, known⟩ := first.exists_kind nothing
    rw [known, Option.or] at kind
    refine ⟨?_, ?_, ?_⟩
    · rw [kind]
      exact fun none => by cases none
    · rw [empty]
      exact fun none => by cases none
    · rw [kind, ← known, attached.take]
      exact fun kind known other none =>
        first.filled kind known other (List.append_eq_nil_iff.mp none).1

end Kinded

theorem Composed.kinded (composed : Composed s) : s.Kinded := by
  induction composed with
  | list made =>
    rcases ofList_eq_ok made with rfl | ⟨first, rest, rfl⟩
    · exact .of_none rfl rfl
    · exact .of_elements first rest
  | empty => exact .of_none rfl rfl
  | infinite | range => exact .of_number rfl
  | append left right made first second => exact .of_attached (attached_of_append made) first second

/-- The first two joined, and then the third put after both. -/
def fromLeft (first second third : Sequence) (inner outer : Nat) : Except EvalError Sequence := do
  (← first.append second inner).append third outer

/-- The last two joined, and then both put after the first. -/
def fromRight (first second third : Sequence) (inner outer : Nat) : Except EvalError Sequence := do
  first.append (← second.append third inner) outer

theorem bind_eq_ok {α β : Type} {result : Except EvalError α} {next : α → Except EvalError β}
    {value : β} :
    (result >>= next) = .ok value ↔ ∃ middle, result = .ok middle ∧ next middle = .ok value := by
  cases result <;> simp [bind, Except.bind]

section Grouping

variable {first second third both rest t : Sequence}

/-- Behind a sequence with elements, both kinds have to agree with the third. -/
theorem Attached.accepts_iff (attached : Attached second first both) (full : first.isEmpty = false)
    (agree : Agreeing first.elementKind second.elementKind) :
    both.Accepts third ↔ Agreeing first.elementKind third.elementKind ∧
      Agreeing second.elementKind third.elementKind := by
  have filled : both.isEmpty = false := by rw [attached.isEmpty, full, Bool.false_and]
  rw [accepts_of_full filled, attached.elementKind, if_neg (Bool.eq_false_iff.mp full),
    agreeing_or_left agree]

/-- A sequence in the middle that has no elements is not looked at. -/
theorem Attached.accepted_iff (attached : Attached third second rest)
    (full : first.isEmpty = false) (accepts : second.Accepts third) :
    first.Accepts rest ↔ Agreeing first.elementKind third.elementKind ∧
      (second.isEmpty = true ∨ Agreeing first.elementKind second.elementKind) := by
  rw [accepts_of_full full, attached.elementKind]
  cases empty : second.isEmpty with
  | true => simp
  | false =>
    rw [if_neg Bool.false_ne_true, agreeing_or_right ((accepts_of_full empty).mp accepts)]
    simp [and_comm]

/-- What the left grouping accepts, the right one accepts as well. -/
theorem accepts_fromRight (attached : Attached second first both) (accepts : first.Accepts second)
    (whole : both.Accepts third) : second.Accepts third ∧
      ∀ rest, Attached third second rest → first.Accepts rest := by
  cases empty : first.isEmpty with
  | true =>
    have kind := attached.elementKind
    rw [if_pos empty] at kind
    rw [Accepts, attached.isEmpty, empty, Bool.true_and, kind] at whole
    exact ⟨whole, fun _ _ => .inl empty⟩
  | false =>
    have agree := (accepts_of_full empty).mp accepts
    obtain ⟨outer, inner⟩ := (attached.accepts_iff empty agree).mp whole
    exact ⟨.inr inner, fun rest attached =>
      (attached.accepted_iff empty (.inr inner)).mpr ⟨outer, .inr agree⟩⟩

/-- What the right grouping alone accepts has a middle without elements and of a kind of its own. -/
theorem accepts_fromLeft (kinded : first.Kinded) (attached : Attached third second rest)
    (accepts : second.Accepts third) (whole : first.Accepts rest)
    (refused : ¬(first.Accepts second ∧ ∀ both, Attached second first both → both.Accepts third)) :
    second.isEmpty = true ∧ first.isEmpty = false ∧ ∃ expected found,
      first.elementKind = some expected ∧ second.elementKind = some found ∧ expected ≠ found := by
  cases empty : first.isEmpty with
  | true =>
    refine absurd ⟨.inl empty, fun both attached => ?_⟩ refused
    have kind := attached.elementKind
    rw [if_pos empty] at kind
    rwa [Accepts, attached.isEmpty, empty, Bool.true_and, kind]
  | false =>
    obtain ⟨outer, middle⟩ := (attached.accepted_iff empty accepts).mp whole
    by_cases agree : Agreeing first.elementKind second.elementKind
    · refine absurd ⟨.inr agree, fun both attached => ?_⟩ refused
      obtain ⟨expected, known⟩ := kinded.exists_kind empty
      refine (attached.accepts_iff empty agree).mpr ⟨outer, fun found other => ?_⟩
      obtain rfl := agree expected known found other
      exact outer expected known
    · obtain ⟨expected, found, known, other, different⟩ := not_agreeing_iff.mp agree
      exact ⟨middle.resolve_right agree, rfl, expected, found, known, other, different⟩

theorem Attached.take_groups (left : Attached second first both) (whole : Attached third both s)
    (right : Attached third second rest) (wholeToo : Attached rest first t) (n : Nat) :
    s.take n = t.take n := by
  rw [whole.take, left.take, wholeToo.take, right.take, List.append_assoc, List.length_append,
    Nat.sub_sub]

/-- Both groupings have the same elements, as many of them, and the same kind. -/
theorem groups_eq (kinded : first.Kinded) (left : Attached second first both)
    (whole : Attached third both s) (right : Attached third second rest)
    (wholeToo : Attached rest first t) :
    (∀ n, s.take n = t.take n) ∧ s.count = t.count ∧ s.elementKind = t.elementKind := by
  refine ⟨left.take_groups whole right wholeToo, ?_, ?_⟩
  · rw [whole.count, left.count, wholeToo.count, right.count, Count.plus_assoc]
  · rw [whole.elementKind, left.isEmpty, left.elementKind, wholeToo.elementKind, right.elementKind]
    cases empty : first.isEmpty with
    | true => simp
    | false =>
      obtain ⟨expected, known⟩ := kinded.exists_kind empty
      simp [known]

variable {inner outer inner' outer' : Nat}

theorem fromRight_of_fromLeft (composed : first.Composed) (composedToo : second.Composed)
    (left : fromLeft first second third inner outer = .ok s) (inner' outer' : Nat) :
    ∃ t, fromRight first second third inner' outer' = .ok t ∧
      (∀ n, s.take n = t.take n) ∧ s.count = t.count ∧ s.elementKind = t.elementKind := by
  obtain ⟨both, made, whole⟩ := bind_eq_ok.mp left
  have attached := attached_of_append made
  obtain ⟨accepts, acceptsToo⟩ := accepts_fromRight attached
    ((composed.accepts_iff inner).mpr ⟨both, made⟩)
    (((Composed.append composed composedToo made).accepts_iff outer).mpr ⟨s, whole⟩)
  obtain ⟨rest, madeRest⟩ := (composedToo.accepts_iff inner').mp accepts
  have attachedRest := attached_of_append madeRest
  obtain ⟨t, wholeToo⟩ := (composed.accepts_iff outer').mp (acceptsToo rest attachedRest)
  exact ⟨t, bind_eq_ok.mpr ⟨rest, madeRest, wholeToo⟩,
    groups_eq composed.kinded attached (attached_of_append whole) attachedRest
      (attached_of_append wholeToo)⟩

theorem middle_of_fromRight (composed : first.Composed) (composedToo : second.Composed)
    (right : fromRight first second third inner' outer' = .ok t)
    (failed : ∀ s, fromLeft first second third inner outer ≠ .ok s) :
    second.isEmpty = true ∧ first.isEmpty = false ∧ ∃ expected found,
      first.elementKind = some expected ∧ second.elementKind = some found ∧ expected ≠ found := by
  obtain ⟨rest, made, whole⟩ := bind_eq_ok.mp right
  refine accepts_fromLeft composed.kinded (attached_of_append made)
    ((composedToo.accepts_iff inner').mpr ⟨rest, made⟩)
    ((composed.accepts_iff outer').mpr ⟨t, whole⟩) fun ⟨accepts, acceptsToo⟩ => ?_
  obtain ⟨both, madeBoth⟩ := (composed.accepts_iff inner).mp accepts
  have composedBoth : both.Composed := .append composed composedToo madeBoth
  obtain ⟨s, made⟩ :=
    (composedBoth.accepts_iff outer).mp (acceptsToo both (attached_of_append madeBoth))
  exact failed s (bind_eq_ok.mpr ⟨both, madeBoth, made⟩)

/-- Moving the parentheses of a sum of sequences to the right changes nothing where the sum can be
formed. Moving them to the left changes nothing either, unless an inverted range stands between
elements of another kind and what it is joined with. -/
theorem append_groups (composed : first.Composed) (composedToo : second.Composed)
    (third : Sequence) (inner outer inner' outer' : Nat) :
    (∀ s, fromLeft first second third inner outer = .ok s →
      ∃ t, fromRight first second third inner' outer' = .ok t ∧
        (∀ place, s.element? place = t.element? place) ∧ s.count = t.count ∧
          s.elementKind = t.elementKind) ∧
      (∀ t error, fromRight first second third inner' outer' = .ok t →
        fromLeft first second third inner outer = .error error →
          (second.isEmpty = true ∧ ∀ place, second.element? place = none) ∧
          (first.isEmpty = false ∧ ∃ value, first.element? 0 = some value) ∧
          ∃ expected, first.elementKind = some expected ∧ second.elementKind = some .number ∧
            expected ≠ .number) ∧
      (second.isEmpty = false ∨ second.elementKind = none →
        ((∃ s, fromLeft first second third inner outer = .ok s) ↔
          ∃ t, fromRight first second third inner' outer' = .ok t)) := by
  refine ⟨fun s left => ?_, fun t error right failed => ?_, fun plain => ⟨?_, ?_⟩⟩
  · obtain ⟨t, right, elements, rest⟩ :=
      fromRight_of_fromLeft composed composedToo left inner' outer'
    exact ⟨t, right, fun place => by rw [element?, elements, element?], rest⟩
  · obtain ⟨empty, full, expected, found, known, other, different⟩ :=
      middle_of_fromRight composed composedToo right fun s made => by
        rw [failed] at made
        cases made
    obtain rfl := composedToo.kinded.inverted empty found other
    have filled := composed.kinded.filled expected known different
    obtain ⟨value, more, taken⟩ := List.exists_cons_of_ne_nil filled
    refine ⟨⟨empty, fun place => ?_⟩, ⟨full, value, ?_⟩, expected, known, other, different⟩
    · rw [element?, take_of_isEmpty empty, List.getElem?_nil]
    · rw [element?, taken, List.getElem?_cons_zero]
  · rintro ⟨s, left⟩
    obtain ⟨t, right, -⟩ := fromRight_of_fromLeft composed composedToo left inner' outer'
    exact ⟨t, right⟩
  · rintro ⟨t, right⟩
    by_contra failed
    obtain ⟨empty, -, -, found, -, other, -⟩ :=
      middle_of_fromRight composed composedToo right (not_exists.mp failed)
    rcases plain with full | untyped
    · rw [full] at empty
      cases empty
    · rw [untyped] at other
      cases other

/-- Strings, an inverted range, and strings again: only from the right. -/
theorem append_groups_inverted :
    let strings : Sequence := .single (.finite [.string "a"]) (some .string)
    let inverted : Sequence := .range 5 3
    strings.Composed ∧ inverted.Composed ∧
      (∃ t, fromRight strings inverted strings 1 1 = .ok t) ∧
      fromLeft strings inverted strings 1 1 =
        .error ⟨.concatenationMismatch .number .string, 1⟩ ∧
      ∀ place, inverted.element? place = none := by
  intro strings inverted
  have listed : ofList [.string "a"] 1 = .ok strings := rfl
  have composed : strings.Composed := .list listed
  have composedToo : inverted.Composed := .range 5 3
  have right : fromRight strings inverted strings 1 1 = .ok (.joined (.finite [.string "a"])
      (some .string) (.joined (.range 5 3) (some .string) strings)) := rfl
  have left : fromLeft strings inverted strings 1 1 =
      .error ⟨.concatenationMismatch .number .string, 1⟩ := rfl
  exact ⟨composed, composedToo, ⟨_, right⟩, left,
    ((append_groups composed composedToo strings 1 1 1 1).2.1 _ _ right left).1.2⟩

end Grouping

end GSharp.Sequence
