import GSharp.Proofs.Value.Counting
import GSharp.Proofs.Value.Grouping

namespace GSharp

namespace Sequence

/-- A sequence that does not go on for ever has some number of elements. -/
theorem endsAfter_or_neverEnds (s : Sequence) : (∃ n, s.EndsAfter n) ∨ s.NeverEnds := by
  by_cases endless : s.NeverEnds
  · exact .inr endless
  · obtain ⟨k, short⟩ := not_forall.mp endless
    have few := s.length_take_le k
    refine .inl ⟨(s.take k).length, fun j => ?_⟩
    rcases Nat.le_total j k with before | behind
    · have part := s.length_take j k
      rwa [Nat.min_eq_left before] at part
    · have part := s.length_take k j
      rw [Nat.min_eq_left behind] at part
      omega

/-- Asking for more elements than there are gives all of them. -/
theorem EndsAfter.take_min {s : Sequence} {n : Nat} (ends : s.EndsAfter n) (k : Nat) :
    s.take (min k n) = s.take k := by
  rw [Nat.min_comm, ← take_take, List.take_of_length_le]
  rw [ends]
  exact Nat.min_le_right k n

/-- What is made of the first elements is settled place by place. -/
theorem map_take_congr {α : Type} {s t : Sequence} {n : Nat} {f : Value → α}
    (same : ∀ place < n, (s.element? place).map f = (t.element? place).map f) :
    (s.take n).map f = (t.take n).map f := by
  refine List.ext_getElem? fun place => ?_
  rw [List.getElem?_map, List.getElem?_map]
  by_cases before : place < n
  · rw [s.getElem?_take before, t.getElem?_take before, same place before]
  · have behind := Nat.le_of_not_lt before
    rw [List.getElem?_eq_none ((s.length_take_le n).trans behind),
      List.getElem?_eq_none ((t.length_take_le n).trans behind)]

/-- The points are one more text behind those shown, so that a separator comes before them. -/
theorem shown_eq {texts : List String} (few : texts.length ≤ 21) :
    shown texts = "\x7b" ++ ", ".intercalate (texts.take 20) ++
      (if texts.length = 21 then ", ..." else "") ++ "\x7d" := by
  unfold shown
  dsimp only
  by_cases long : texts.length = 21
  · have more : shownLimit < texts.length := by rw [long]; decide
    have filled : texts.take shownLimit ≠ [] := by
      rw [← List.length_pos_iff, List.length_take, long]
      decide
    rw [if_pos more, if_pos long,
      String.intercalate_append_of_ne_nil filled (List.cons_ne_nil _ _),
      String.intercalate_singleton]
    simp only [String.append_assoc]
    rfl
  · have last : ¬shownLimit < texts.length := fun more => long (Nat.le_antisymm few more)
    rw [if_neg last, if_neg long, List.append_nil, String.append_empty]
    rfl

theorem text_eq (s : Sequence) : (Value.sequence s).text =
    "\x7b" ++ ", ".intercalate ((s.take 20).map Value.text) ++
      (if (s.take 21).length = 21 then ", ..." else "") ++ "\x7d" := by
  have texts : (Value.sequence s).text = shown ((s.take 21).map Value.text) :=
    congrArg shown (s.texts_eq_map 21)
  have few : ((s.take 21).map Value.text).length ≤ 21 :=
    List.length_map (f := Value.text) ▸ s.length_take_le 21
  rw [texts, shown_eq few, ← List.map_take, take_take, List.length_map]
  rfl

theorem NeverEnds.text_eq {s : Sequence} (endless : s.NeverEnds) : (Value.sequence s).text =
    "\x7b" ++ ", ".intercalate ((s.take 20).map Value.text) ++ ", ..." ++ "\x7d" := by
  rw [Sequence.text_eq, if_pos (endless 21)]

theorem EndsAfter.text_eq {s : Sequence} {n : Nat} (ends : s.EndsAfter n) :
    (Value.sequence s).text =
      "\x7b" ++ ", ".intercalate ((s.take (min 20 n)).map Value.text) ++
        (if 21 ≤ n then ", ..." else "") ++ "\x7d" := by
  rw [Sequence.text_eq, ends.take_min, ends]
  simp only [min_eq_left_iff]

end Sequence

/-- The same value, or sequences whose elements before the limit are alike as well. Whatever lies
further on is left open, at every depth. -/
inductive Value.AlikeTo (limit : Nat) : Value → Value → Prop
  | same (value : Value) : AlikeTo limit value value
  | sequence {s t : Sequence}
      (places : ∀ place < limit, (s.element? place).isSome = (t.element? place).isSome)
      (elements : ∀ place < limit, ∀ v w, s.element? place = some v → t.element? place = some w →
        AlikeTo limit v w) :
      AlikeTo limit (.sequence s) (.sequence t)

namespace Value.AlikeTo

variable {limit : Nat} {s t : Sequence} {v w : Value}

theorem of_take (first : s.take limit = t.take limit) :
    AlikeTo limit (.sequence s) (.sequence t) := by
  have same {place : Nat} (before : place < limit) : s.element? place = t.element? place := by
    rw [← s.getElem?_take before, ← t.getElem?_take before, first]
  refine .sequence (fun place before => by rw [same before]) fun place before v w one other => ?_
  obtain rfl : v = w := Option.some.inj (one.symm.trans ((same before).trans other))
  exact .same v

/-- By induction over how the values are alike: the texts of the first elements agree place by
place, and nothing else of a sequence is asked for. -/
theorem text_eq (alike : AlikeTo limit v w) (enough : 21 ≤ limit) : v.text = w.text := by
  induction alike with
  | same => rfl
  | @sequence s t places elements ih =>
    have texts : s.texts 21 = t.texts 21 := by
      rw [Sequence.texts_eq_map, Sequence.texts_eq_map]
      refine Sequence.map_take_congr fun place before => ?_
      have near := Nat.lt_of_lt_of_le before enough
      have present := places place near
      cases one : s.element? place with
      | none =>
        rw [one] at present
        rw [Option.not_isSome_iff_eq_none.mp (Bool.eq_false_iff.mp present.symm)]
      | some v =>
        rw [one] at present
        obtain ⟨w, other⟩ := Option.isSome_iff_exists.mp present.symm
        rw [other]
        exact congrArg some (ih place near v w one other)
    exact congrArg Sequence.shown texts

end Value.AlikeTo

namespace Sequence

/-- The text of any sequence. It shows the elements up to the twentieth and points to others only if
there are some. It is the same for sequences that start alike, and so are those around them. Two
groupings of a sum have the same elements and so the same text. -/
theorem text_enumerated (s : Sequence) :
    ((∃ n, s.EndsAfter n) ∨ s.NeverEnds) ∧
    (∀ n, s.EndsAfter n → (Value.sequence s).text =
      "\x7b" ++ ", ".intercalate ((s.take (min 20 n)).map Value.text) ++
        (if 21 ≤ n then ", ..." else "") ++ "\x7d") ∧
    (s.NeverEnds → (Value.sequence s).text =
      "\x7b" ++ ", ".intercalate ((s.take 20).map Value.text) ++ ", ..." ++ "\x7d") ∧
    (∀ limit t, s.take limit = t.take limit →
      Value.AlikeTo limit (.sequence s) (.sequence t)) ∧
    (∀ limit t, 21 ≤ limit → Value.AlikeTo limit (.sequence s) (.sequence t) →
      (Value.sequence s).text = (Value.sequence t).text) ∧
    ∀ first second third inner outer inner' outer' t,
      fromLeft first second third inner outer = .ok s →
      fromRight first second third inner' outer' = .ok t → ∀ n, s.take n = t.take n := by
  refine ⟨s.endsAfter_or_neverEnds, fun n ends => ends.text_eq, fun endless => endless.text_eq,
    fun limit t => Value.AlikeTo.of_take, fun limit t enough alike => alike.text_eq enough, ?_⟩
  intro first second third inner outer inner' outer' t left right
  obtain ⟨both, made, whole⟩ := bind_eq_ok.mp left
  obtain ⟨rest, madeToo, wholeToo⟩ := bind_eq_ok.mp right
  exact (attached_of_append made).take_groups (attached_of_append whole)
    (attached_of_append madeToo) (attached_of_append wholeToo)

/-- Twenty elements with no points behind them, and an endless sequence after nothing and an
inverted range. The grouping from the left has dropped the range, which does not show, not even
inside of lists. -/
theorem text_enumerated_nested :
    let full : Sequence := .single (.finite (List.replicate 20 .undefined)) (some .undefined)
    let left : Sequence := .joined (.finite []) (some .number) (.infinite 1)
    let right : Sequence :=
      .joined (.finite []) (some .number) (.joined (.range 5 3) (some .number) (.infinite 1))
    let around (s : Sequence) : Sequence := .single (.finite [.sequence s]) (some .sequence)
    full.EndsAfter 20 ∧ (Value.sequence full).text =
        "\x7b" ++ ", ".intercalate (List.replicate 20 "undefined") ++ "\x7d" ∧
      left.NeverEnds ∧ (Value.sequence left).text =
        "\x7b" ++ ", ".intercalate ((left.take 20).map Value.text) ++ ", ..." ++ "\x7d" ∧
      fromLeft .empty (.range 5 3) (.infinite 1) 1 1 = .ok left ∧
      fromRight .empty (.range 5 3) (.infinite 1) 1 1 = .ok right ∧
      (∀ n, left.take n = right.take n) ∧
      Value.AlikeTo 21 (.sequence (around left)) (.sequence (around right)) ∧
      (Value.sequence (around left)).text = (Value.sequence (around right)).text := by
  intro full left right around
  have ends : full.EndsAfter 20 := fun k => by
    simp [full, Sequence.take, Segment.take, List.length_take]
  have endless : left.NeverEnds := fun k => by
    simp [left, Sequence.infinite, Sequence.take, Segment.take]
  have fromTheLeft : fromLeft .empty (.range 5 3) (.infinite 1) 1 1 = .ok left := rfl
  have fromTheRight : fromRight .empty (.range 5 3) (.infinite 1) 1 1 = .ok right := rfl
  obtain ⟨-, -, shown, startsAlike, -, groups⟩ := text_enumerated left
  have same := groups _ _ _ _ _ _ _ right fromTheLeft fromTheRight
  have only (s : Sequence) (place : Nat) : (around s).element? (place + 1) = none := by
    simp [around, element?, Sequence.take, Segment.take]
  have nested : Value.AlikeTo 21 (.sequence (around left)) (.sequence (around right)) := by
    refine .sequence (fun place _ => ?_) fun place _ v w one other => ?_
    · cases place with
      | zero => rfl
      | succ place => rw [only, only]
    · cases place with
      | zero =>
        cases one
        cases other
        exact startsAlike 21 right (same 21)
      | succ place =>
        rw [only] at one
        cases one
  refine ⟨ends, ?_, endless, shown endless, fromTheLeft, fromTheRight, same, nested,
    (text_enumerated (around left)).2.2.2.2.1 21 (around right) (Nat.le_refl 21) nested⟩
  exact ((text_enumerated full).2.1 20 ends).trans rfl

end Sequence

end GSharp
