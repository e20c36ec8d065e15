import GSharp.Proofs.Random.Refusals
import GSharp.Proofs.Random.Steady
import GSharp.Proofs.Value.WellFormed
import GSharp.Value.Drawing
import GSharp.Value.Operator

namespace GSharp

namespace BinaryOperator

variable {left right : Value}

theorem plus_wellFormed (first : left.WellFormed) (second : right.WellFormed) (line : Nat) :
    Gives Value.WellFormed (plus left right line) := by
  unfold plus
  split
  · exact .ok second
  · exact .ok first
  · exact .ok trivial
  · exact .ok trivial
  · exact .map (Sequence.append_wellFormed first second line) fun _ => id
  · exact .ok (Measure.wellFormed_of _)
  · exact .error _

theorem numeric_wellFormed (op : BinaryOperator) (a b : Float) (line : Nat) :
    Gives Value.WellFormed (numeric op a b line) := by
  cases op with
  | subtract | multiply | power => exact .ok trivial
  | divide | remainder =>
    simp only [numeric]
    split
    · exact .error _
    · exact .ok trivial
  | _ => exact .error _

theorem arithmetic_wellFormed (op : BinaryOperator) (left right : Value) (line : Nat) :
    Gives Value.WellFormed (arithmetic op left right line) := by
  unfold arithmetic
  split
  · exact numeric_wellFormed _ _ _ _
  · exact .ok (Measure.wellFormed_of _)
  · exact .ok (Measure.wellFormed_of _)
  · exact .ok (Measure.wellFormed_of _)
  · exact numeric_wellFormed _ _ _ _
  · exact .error _

theorem comparison_wellFormed (op : BinaryOperator) (left right : Value) (line : Nat) :
    Gives Value.WellFormed (comparison op left right line) := by
  unfold comparison
  extract_lets compare
  have compared (a b : Float) : Gives Value.WellFormed (compare a b) := by
    cases op with
    | less | greater | lessEqual | greaterEqual => exact .ok trivial
    | _ => exact .error _
  split
  · exact compared _ _
  · exact compared _ _
  · exact .error _

theorem logic_wellFormed (op : BinaryOperator) (left right : Value) (line : Nat) :
    Gives Value.WellFormed (logic op left right line) := by
  refine .bind (.anything _) fun a _ => .bind (.anything _) fun b _ => ?_
  split
  · exact .ok trivial
  · exact .ok trivial
  · exact .error _

theorem apply_wellFormed (op : BinaryOperator) (first : left.WellFormed)
    (second : right.WellFormed) (line : Nat) :
    Gives Value.WellFormed (op.apply left right line) := by
  cases op with
  | add => exact plus_wellFormed first second line
  | subtract | multiply | divide | remainder | power =>
    exact arithmetic_wellFormed _ left right line
  | less | greater | lessEqual | greaterEqual =>
    rw [apply]
    exact comparison_wellFormed _ left right line
  | equal | notEqual => exact .map (.anything _) fun _ _ => trivial
  | and | or =>
    rw [apply]
    exact logic_wellFormed _ left right line

end BinaryOperator

theorem UnaryOperator.apply_wellFormed (op : UnaryOperator) (value : Value) (line : Nat) :
    Gives Value.WellFormed (op.apply value line) := by
  cases op with
  | negate =>
    cases value with
    | number n => exact .ok trivial
    | _ => exact .error _
  | not => exact .map (.anything _) fun _ _ => trivial

namespace Library

/-- A library whose numbers are a well-formed sequence. -/
def WellFormed (library : Library) : Prop := library.randoms.WellFormed

theorem Steady.wellFormed {before after : Library} (steady : Steady before after)
    (wellFormed : before.WellFormed) : after.WellFormed := by
  unfold WellFormed
  rw [steady.randoms]
  exact wellFormed

theorem create_wellFormed (width height : Nat) (seed : UInt64) :
    (create width height seed).WellFormed := by
  -- Unfolded where it is applied, `create` would be run to draw its numbers.
  suffices made : ∀ make, make = create → (make width height seed).WellFormed from made _ rfl
  intro make same
  delta create at same
  subst same
  beta_reduce
  obtain ⟨n, generator⟩ := amount (.ofSeed seed)
  obtain ⟨numbers, generator⟩ := fractions generator n
  refine Sequence.list_wellFormed (List.forall_mem_map.mpr ?_) (List.forall_mem_map.mpr ?_)
  · exact fun _ _ => trivial
  · exact fun _ _ => rfl

theorem step_returns {α : Type} {P : α → Prop} {draw : Generator → α × Generator}
    (holds : ∀ generator, P (draw generator).1) : Returns P (step draw) :=
  fun library => holds library.generator

/-- From two up to nineteen. -/
theorem amount_returns : Returns (fun n => 2 ≤ n ∧ n < 20) (step amount) := by
  refine step_returns fun generator => ?_
  have less := Generator.Sampling.always_holds (P := (· < 18))
    (fun _ _ _ => Generator.below_lt Generator.word64_lt)
    (Generator.below_ne_error (Nat.succ_pos 17)) generator
  exact ⟨Nat.le_add_left 2 _, Nat.add_lt_add_right less 2⟩

theorem measure_returns : Returns Measure.WellFormed measure :=
  .bind (.anything _) fun _ _ => .bind (.anything _) fun _ _ => .pure (Measure.wellFormed_of _)

theorem figure_returns (kind : FigureKind) :
    Returns (fun f => f.WellFormed ∧ f.kind = kind) (figure kind) := by
  cases kind with
  | point => exact .bind (.anything _) fun _ _ => .pure ⟨trivial, rfl⟩
  | line | segment | ray =>
    exact .bind (.anything _) fun _ _ => .bind (.anything _) fun _ _ => .pure ⟨trivial, rfl⟩
  | circle =>
    exact .bind (.anything _) fun _ _ => .bind measure_returns fun _ radius => .pure ⟨radius, rfl⟩
  | arc =>
    exact .bind (.anything _) fun _ _ => .bind (.anything _) fun _ _ =>
      .bind (.anything _) fun _ _ => .bind measure_returns fun _ radius => .pure ⟨radius, rfl⟩
  | measure => exact .bind measure_returns fun _ length => .pure ⟨length, rfl⟩

theorem figures_returns (kind : FigureKind) (n : Nat) :
    Returns (fun drawn => drawn.length = n ∧ ∀ f ∈ drawn, f.WellFormed ∧ f.kind = kind)
      (figures kind n) := by
  induction n with
  | zero => exact .pure ⟨rfl, List.forall_mem_nil _⟩
  | succ n ih =>
    exact .bind (figure_returns kind) fun _ first => .bind ih fun _ rest =>
      .pure ⟨congrArg (· + 1) rest.1, List.forall_mem_cons.mpr ⟨first, rest.2⟩⟩

theorem sequence_returns (kind : FigureKind) :
    Returns (fun s => s.WellFormed ∧ ∃ n, s.count = .finite n ∧ 2 ≤ n ∧ n < 20) (sequence kind) := by
  refine .bind amount_returns fun n few => .bind (figures_returns kind n) fun drawn all =>
    .pure ⟨?_, n, ?_, few⟩
  · refine Sequence.list_wellFormed (List.forall_mem_map.mpr ?_) (List.forall_mem_map.mpr ?_)
    · exact fun f member => (all.2 f member).1
    · exact fun f member => congrArg ValueKind.figure (all.2 f member).2
  · rw [Sequence.count, Segment.count, List.length_map, all.1]

/-- A draw that is steady leaves a well-formed library. -/
theorem ensures_of_steady {α : Type} {P : α → Prop} {draw : Draw α}
    (steady : Preserves Steady draw.run) (gives : ∀ library, Gives P (draw.run library).1) :
    Ensures WellFormed P draw :=
  .ofPreserves steady (fun _ _ kept => kept.wellFormed) gives

end Library

namespace Builtin

variable {builtin : Builtin} {arguments : List Value}

theorem measureOf_wellFormed {value : Value} (wellFormed : value.WellFormed) (line : Nat) :
    Gives Measure.WellFormed (builtin.measureOf line value) := by
  unfold measureOf
  split
  · exact .ok wellFormed
  · exact .error _

theorem logarithm_wellFormed (value base : Float) (line : Nat) :
    Gives Value.WellFormed (logarithm value base line) := by
  unfold logarithm
  split
  · exact .error _
  · exact .ok trivial

theorem countOf_wellFormed (s : Sequence) (line : Nat) :
    Gives Value.WellFormed (countOf s line) := by
  unfold countOf
  split
  · exact .ok trivial
  · split
    · exact .ok trivial
    · exact .error _

theorem sharedPoints_wellFormed (a b : Figure) (line : Nat) :
    Gives Value.WellFormed (sharedPoints a b line) := by
  unfold sharedPoints
  split
  · refine .map (Sequence.ofList_wellFormed (List.forall_mem_map.mpr ?_) line) fun _ => id
    exact fun _ _ => trivial
  · exact .ok trivial
  · exact .ok trivial

theorem pure?_wellFormed (wellFormed : ∀ value ∈ arguments, value.WellFormed) (line : Nat)
    {result : Except EvalError Value} (found : builtin.pure? arguments line = some result) :
    Gives Value.WellFormed result := by
  unfold pure? at found
  split at found <;> cases found
  · exact .map (.anything _) fun _ _ => trivial
  · exact .map (.anything _) fun _ _ => trivial
  · exact .map (.anything _) fun _ _ => trivial
  · exact .map (.anything _) fun _ _ => trivial
  · exact .bind (.anything _) fun _ _ => .bind (.anything _) fun _ _ =>
      logarithm_wellFormed _ _ line
  · exact .bind (.anything _) fun _ _ => countOf_wellFormed _ line
  · exact .bind (.anything _) fun _ _ => .ok (Measure.wellFormed_of _)
  · exact .bind (.anything _) fun _ _ => .bind (.anything _) fun _ _ => .ok trivial
  · exact .bind (.anything _) fun _ _ => .ok trivial
  · exact .bind (.anything _) fun _ _ => .ok trivial
  · exact .bind (.anything _) fun _ _ => .ok trivial
  · refine .bind (.anything _) fun _ _ => ?_
    exact .bind (measureOf_wellFormed (wellFormed _ (by simp)) line) fun _ radius => .ok radius
  · refine .bind (.anything _) fun _ _ => .bind (.anything _) fun _ _ =>
      .bind (.anything _) fun _ _ => ?_
    exact .bind (measureOf_wellFormed (wellFormed _ (by simp)) line) fun _ radius => .ok radius
  · exact .bind (.anything _) fun _ _ => .bind (.anything _) fun _ _ =>
      sharedPoints_wellFormed _ _ line

theorem apply_wellFormed (builtin : Builtin)
    (wellFormed : ∀ value ∈ arguments, value.WellFormed) (line : Nat) :
    Ensures Library.WellFormed Value.WellFormed (builtin.apply arguments line) := by
  unfold apply
  split
  · exact .getThen fun library randoms => .done randoms
  · exact .andThen (.lift (Library.sequence_steady _) (fun _ _ kept => kept.wellFormed)
      (Library.sequence_returns _)) fun _ samples => .done samples.1
  · rename_i figure
    refine .andThen (Library.ensures_of_steady (lift_steady _) fun _ => .anything _) fun f _ => ?_
    refine .andThen (Library.ensures_of_steady (Library.pointOn_steady f line) fun _ => .anything _)
      fun point _ => .done ?_
    cases point <;> trivial
  · cases found : builtin.pure? arguments line with
    | none => exact .throw _
    | some result =>
      refine Library.ensures_of_steady (lift_steady _) fun library => ?_
      cases result with
      | error error => exact .error _
      | ok value => exact .ok (pure?_wellFormed wellFormed line found value rfl)

end Builtin

theorem Drawing.of_mem_andThen {first second : Drawing} {f : Figure}
    (drawn : f ∈ (first.andThen second).figures) : f ∈ first.figures ∨ f ∈ second.figures := by
  unfold Drawing.andThen at drawn
  split at drawn
  · exact .inl drawn
  · exact List.mem_append.mp drawn

mutual

theorem Value.WellFormed.drawn {value : Value} (wellFormed : value.WellFormed) :
    ∀ f ∈ value.drawing.figures, f.WellFormed := by
  cases value with
  | number | string | boolean | undefined => exact List.forall_mem_nil _
  | figure f =>
    rw [Value.drawing]
    split
    · exact List.forall_mem_singleton.mpr wellFormed
    · exact List.forall_mem_nil _
  | sequence s =>
    rw [Value.drawing]
    split
    · exact List.forall_mem_nil _
    · exact Sequence.WellFormed.drawn wellFormed
termination_by structural value

theorem Value.AllWellFormed.drawn {values : List Value} (wellFormed : Value.AllWellFormed values) :
    ∀ f ∈ (Value.drawingAll values).figures, f.WellFormed := by
  cases values with
  | nil => exact List.forall_mem_nil _
  | cons first rest =>
    intro f drawn
    rcases Drawing.of_mem_andThen drawn with front | back
    · exact Value.WellFormed.drawn wellFormed.1 f front
    · exact Value.AllWellFormed.drawn wellFormed.2 f back
termination_by structural values

theorem Segment.WellFormed.drawn {segment : Segment} (wellFormed : segment.WellFormed) :
    ∀ f ∈ segment.drawing.figures, f.WellFormed := by
  cases segment with
  | finite elements => exact Value.AllWellFormed.drawn wellFormed
  | infinite => exact List.forall_mem_nil _
  | range =>
    rw [Segment.drawing]
    split <;> exact List.forall_mem_nil _
termination_by structural segment

theorem Sequence.WellFormed.drawn {s : Sequence} (wellFormed : s.WellFormed) :
    ∀ f ∈ s.drawing.figures, f.WellFormed := by
  cases s with
  | single head => exact Segment.WellFormed.drawn wellFormed.2
  | joined head _ tail =>
    intro f drawn
    rcases Drawing.of_mem_andThen drawn with front | back
    · exact Segment.WellFormed.drawn wellFormed.2.1 f front
    · exact Sequence.WellFormed.drawn wellFormed.2.2 f back
termination_by structural s

end

end GSharp
