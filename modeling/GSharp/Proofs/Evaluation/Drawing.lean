import GSharp.Evaluation.Eval
import GSharp.Proofs.Preservation
import GSharp.Proofs.Value.Joining

namespace GSharp

mutual

def Value.RangesBounded : Value → Prop
  | .sequence s => s.RangesBounded
  | .number _ | .string _ | .boolean _ | .undefined | .figure _ => True

def Value.AllRangesBounded : List Value → Prop
  | [] => True
  | first :: rest => first.RangesBounded ∧ Value.AllRangesBounded rest

def Segment.RangesBounded : Segment → Prop
  | .finite elements => Value.AllRangesBounded elements
  | .infinite _ => True
  | .range start finish => Number.isBound start = true ∧ Number.isBound finish = true

def Sequence.RangesBounded : Sequence → Prop
  | .single head _ => head.RangesBounded
  | .joined head _ tail => head.RangesBounded ∧ tail.RangesBounded

end

theorem Value.allRangesBounded_iff {values : List Value} :
    Value.AllRangesBounded values ↔ ∀ value ∈ values, value.RangesBounded := by
  induction values with
  | nil => simp [Value.AllRangesBounded]
  | cons first rest ih => rw [Value.AllRangesBounded, ih, List.forall_mem_cons]

theorem Segment.RangesBounded.of_mem_take {segment : Segment} {n : Nat} {element : Value}
    (bounded : segment.RangesBounded) (taken : element ∈ segment.take n) :
    element.RangesBounded := by
  cases segment with
  | finite elements =>
    exact Value.allRangesBounded_iff.mp bounded element (List.mem_of_mem_take taken)
  | infinite start =>
    obtain ⟨x, -, rfl⟩ := List.mem_map.mp taken
    trivial
  | range start finish =>
    obtain ⟨x, -, rfl⟩ := List.mem_map.mp taken
    trivial

theorem Sequence.RangesBounded.of_mem_take {n : Nat} {element : Value} : ∀ {s : Sequence},
    s.RangesBounded → element ∈ s.take n → element.RangesBounded
  | .single _ _, bounded, taken => Segment.RangesBounded.of_mem_take bounded taken
  | .joined _ _ _, bounded, taken => by
    rcases List.mem_append.mp taken with first | later
    · exact bounded.1.of_mem_take first
    · exact Sequence.RangesBounded.of_mem_take bounded.2 later

/-- Either there are elements without end, and the count says so, or else there is a last one, and
drawing goes through all of them. -/
inductive Enumerated (count : Count) (drawing : Drawing) (elements : Nat → List Value) : Prop where
  | forever (infinite : count = .infinite) (endless : ∀ k, (elements k).length = k)
  | through {n : Nat} (finite : count ≠ .infinite) (ends : ∀ k, (elements k).length = min k n)
      (drawn : drawing = Value.drawingAll (elements n))

theorem Segment.RangesBounded.enumerated {segment : Segment} (bounded : segment.RangesBounded) :
    Enumerated segment.count segment.drawing (segment.take ·) := by
  cases segment with
  | finite elements =>
    refine .through Count.noConfusion (fun k => List.length_take) ?_
    rw [Segment.take, List.take_length, Segment.drawing]
  | infinite start =>
    refine .forever rfl fun k => ?_
    rw [Segment.take, List.length_map, Number.length_ascending]
  | range start finish =>
    obtain ⟨n, -, counted, ends⟩ := Segment.range_measures bounded.1 bounded.2
    refine .through (counted ▸ Count.noConfusion) ends ?_
    -- Whether there is a first element is known as soon as one is asked for.
    have one := ends 1
    rw [Segment.take, Number.upTo] at one
    rw [Segment.drawing]
    split at one
    · rename_i ordered
      cases n with
      | zero => cases one
      | succ n =>
        rw [if_pos ordered, Segment.take, Number.upTo, if_pos ordered]
        rfl
    · rename_i inverted
      obtain rfl : n = 0 := by simpa using one.symm
      rw [if_neg inverted]
      rfl

theorem Sequence.RangesBounded.enumerated : ∀ {s : Sequence}, s.RangesBounded →
    Enumerated s.count s.drawing (s.take ·)
  | .single _ _, bounded => Segment.RangesBounded.enumerated bounded
  | .joined head _ tail, bounded => by
    rcases bounded.1.enumerated with ⟨infinite, endless⟩ | @⟨m, finite, ends, drawn⟩
    · refine .forever (Count.plus_eq_infinite.mpr (.inl infinite)) fun k => ?_
      rw [Sequence.take, List.length_append, endless, Nat.sub_self, tail.take_zero]
      rfl
    · rcases Sequence.RangesBounded.enumerated bounded.2 with
        ⟨infinite, endless⟩ | @⟨n, finite', ends', drawn'⟩
      · refine .forever (Count.plus_eq_infinite.mpr (.inr infinite)) fun k => ?_
        rw [Sequence.take, List.length_append, endless, ends]
        omega
      · have all : head.take (m + n) = head.take m := by
          have part := head.take_take m (m + n)
          rw [Nat.min_eq_left (Nat.le_add_right m n)] at part
          rw [← part, List.take_of_length_le]
          rw [ends]
          exact Nat.min_le_right ..
        refine .through (n := m + n) ?_ (fun k => ?_) ?_
        · rw [Sequence.count, Ne, Count.plus_eq_infinite, not_or]
          exact ⟨finite, finite'⟩
        · rw [Sequence.take, List.length_append, ends, ends']
          omega
        · rw [Sequence.drawing, drawn, drawn', Sequence.take, all, ends, Nat.min_self,
            Nat.add_sub_cancel_left, Value.drawingAll_append]

/-- Where a walk through values comes to: something that is no sequence, or one that never ends. -/
inductive Leaf where
  | plain (value : Value)
  | endless

/-- The leaves of values from left to right. Those of a sequence that ends are those of its
elements; one that never ends is not entered. -/
inductive Walk : List Value → List Leaf → Prop where
  | done : Walk [] []
  | plain {value : Value} {rest : List Value} {later : List Leaf}
      (noSequence : ∀ s, value ≠ .sequence s) (next : Walk rest later) :
      Walk (value :: rest) (.plain value :: later)
  | endless {s : Sequence} {rest : List Value} {later : List Leaf} (never : s.NeverEnds)
      (next : Walk rest later) : Walk (.sequence s :: rest) (.endless :: later)
  | within {s : Sequence} {n : Nat} {rest : List Value} {inner later : List Leaf}
      (ends : s.EndsAfter n) (first : Walk (s.take n) inner) (next : Walk rest later) :
      Walk (.sequence s :: rest) (inner ++ later)

namespace Walk

variable {values : List Value} {leaves : List Leaf}

/-- A walk can only be gone in one way. -/
theorem unique {others : List Leaf} (one : Walk values leaves) (two : Walk values others) :
    others = leaves := by
  induction one generalizing others with
  | done =>
    cases two
    rfl
  | plain noSequence _ ih =>
    cases two with
    | plain _ next => rw [ih next]
    | endless => exact absurd rfl (noSequence _)
    | within => exact absurd rfl (noSequence _)
  | endless never _ ih =>
    cases two with
    | plain noSequence => exact absurd rfl (noSequence _)
    | endless _ next => rw [ih next]
    | within ends => exact absurd ends (never.not_endsAfter _)
  | within ends _ _ ihFirst ihNext =>
    cases two with
    | plain noSequence => exact absurd rfl (noSequence _)
    | endless never => exact absurd ends (never.not_endsAfter _)
    | within ends' first next =>
      obtain rfl := ends'.unique ends
      rw [ihFirst first, ihNext next]

/-- Walks through each of the values make one through all of them. -/
theorem exists_of_forall (walks : ∀ value ∈ values, ∃ leaves, Walk [value] leaves) :
    ∃ leaves, Walk values leaves := by
  induction values with
  | nil => exact ⟨[], .done⟩
  | cons value rest ih =>
    rw [List.forall_mem_cons] at walks
    obtain ⟨⟨leaves, first⟩, walks⟩ := walks
    obtain ⟨later, next⟩ := ih walks
    cases first with
    | plain noSequence => exact ⟨_, .plain noSequence next⟩
    | endless never => exact ⟨_, .endless never next⟩
    | within ends first => exact ⟨_, .within ends first next⟩

end Walk

-- The induction is on the value: an element is met by a walk of its own.
mutual

theorem Value.exists_walk (value : Value) (bounded : value.RangesBounded) :
    ∃ leaves, Walk [value] leaves := by
  cases value with
  | number | string | boolean | undefined | figure =>
    exact ⟨_, .plain (fun _ => Value.noConfusion) .done⟩
  | sequence s =>
    have walks := s.exists_walk bounded
    rcases Sequence.RangesBounded.enumerated bounded with ⟨-, never⟩ | @⟨n, -, ends, -⟩
    · exact ⟨_, .endless never .done⟩
    · obtain ⟨leaves, first⟩ := Walk.exists_of_forall (walks n)
      exact ⟨_, .within ends first .done⟩
termination_by structural value

theorem Value.exists_walkEach (values : List Value) (bounded : Value.AllRangesBounded values) :
    ∀ value ∈ values, ∃ leaves, Walk [value] leaves := by
  cases values with
  | nil => exact List.forall_mem_nil _
  | cons first rest =>
    have one := first.exists_walk bounded.1
    have others := Value.exists_walkEach rest bounded.2
    exact List.forall_mem_cons.mpr ⟨one, others⟩
termination_by structural values

theorem Segment.exists_walk (segment : Segment) (bounded : segment.RangesBounded) (n : Nat) :
    ∀ element ∈ segment.take n, ∃ leaves, Walk [element] leaves := by
  intro element taken
  cases segment with
  | finite elements =>
    exact Value.exists_walkEach elements bounded element (List.mem_of_mem_take taken)
  | infinite | range =>
    obtain ⟨x, -, rfl⟩ := List.mem_map.mp taken
    exact ⟨_, .plain (fun _ => Value.noConfusion) .done⟩
termination_by structural segment

theorem Sequence.exists_walk (s : Sequence) (bounded : s.RangesBounded) (n : Nat) :
    ∀ element ∈ s.take n, ∃ leaves, Walk [element] leaves := by
  intro element taken
  cases s with
  | single head => exact head.exists_walk bounded n element taken
  | joined head _ tail =>
    rcases List.mem_append.mp taken with first | later
    · exact head.exists_walk bounded.1 n element first
    · exact tail.exists_walk bounded.2 _ element later
termination_by structural s

end

namespace Leaf

def ofFigure (figure : Figure) : Leaf := .plain (.figure figure)

/-- Figures of the plane can be drawn, and nothing else. -/
def IsDrawable (leaf : Leaf) : Prop := ∃ f : Figure, f.isPositional = true ∧ leaf = ofFigure f

/-- What is wrong with a leaf that cannot be drawn. -/
def fault : Leaf → EvalFault
  | plain value => .notDrawable value.kind
  | endless => .infiniteDrawing

/-- The figures in front are drawn, in order. The first leaf that cannot be drawn ends that. -/
inductive Shown : List Leaf → Drawing → Prop where
  | all {figures : List Figure} (positional : ∀ f ∈ figures, f.isPositional = true) :
      Shown (figures.map ofFigure) ⟨figures, none⟩
  | part {figures : List Figure} {leaf : Leaf} {rest : List Leaf}
      (positional : ∀ f ∈ figures, f.isPositional = true) (refused : ¬leaf.IsDrawable) :
      Shown (figures.map ofFigure ++ leaf :: rest) ⟨figures, some leaf.fault⟩

namespace Shown

variable {leaves later : List Leaf} {drawing next : Drawing}

theorem append (shown : Shown leaves drawing) (followed : Shown later next) :
    Shown (leaves ++ later) (drawing.andThen next) := by
  cases shown with
  | @all figures positional =>
    cases followed with
    | @all more positional' =>
      rw [← List.map_append]
      exact .all (List.forall_mem_append.mpr ⟨positional, positional'⟩)
    | @part more leaf rest positional' refused =>
      rw [← List.append_assoc, ← List.map_append]
      exact .part (List.forall_mem_append.mpr ⟨positional, positional'⟩) refused
  | @part figures leaf rest positional refused =>
    rw [List.append_assoc, List.cons_append]
    exact .part positional refused

/-- Drawing ends well if there is nothing that cannot be drawn. -/
theorem stopped_eq_none_iff (shown : Shown leaves drawing) :
    drawing.stopped = none ↔ ∀ leaf ∈ leaves, leaf.IsDrawable := by
  cases shown with
  | all positional =>
    exact iff_of_true rfl (List.forall_mem_map.mpr fun f present => ⟨f, positional f present, rfl⟩)
  | part _ refused =>
    refine iff_of_false (Option.some_ne_none _) fun drawable => refused (drawable _ ?_)
    exact List.mem_append_right _ List.mem_cons_self

theorem stop {leaf : Leaf} (refused : ¬leaf.IsDrawable) : Shown [leaf] (.stop leaf.fault) :=
  .part (List.forall_mem_nil _) refused

theorem plain {value : Value} (noSequence : ∀ s, value ≠ .sequence s) :
    Shown [.plain value] value.drawing := by
  have refused (other : ∀ f : Figure, value = .figure f → f.isPositional = false) :
      Shown [.plain value] (.stop (.notDrawable value.kind)) := by
    refine Shown.stop ?_
    rintro ⟨f, positional, same⟩
    rw [other f (Leaf.plain.inj same)] at positional
    cases positional
  cases value with
  | sequence s => exact absurd rfl (noSequence s)
  | figure f =>
    rw [Value.drawing]
    split
    · rename_i positional
      exact .all (List.forall_mem_singleton.mpr positional)
    · rename_i measure
      refine refused fun g same => ?_
      rw [← Value.figure.inj same]
      exact Bool.eq_false_iff.mpr measure
  | _ => exact refused fun _ => Value.noConfusion

end Shown

end Leaf

/-- Drawing values one after the other draws the leaves of a walk through them. -/
theorem Walk.shown {values : List Value} {leaves : List Leaf} (walk : Walk values leaves)
    (bounded : ∀ value ∈ values, value.RangesBounded) :
    Leaf.Shown leaves (Value.drawingAll values) := by
  induction walk with
  | done => exact .all (List.forall_mem_nil _)
  | plain noSequence _ ih =>
    rw [List.forall_mem_cons] at bounded
    exact (Leaf.Shown.plain noSequence).append (ih bounded.2)
  | @endless s _ _ never _ ih =>
    rw [List.forall_mem_cons] at bounded
    have drawn : (Value.sequence s).drawing = .stop .infiniteDrawing := by
      rcases bounded.1.enumerated with ⟨infinite, -⟩ | @⟨n, -, ends, -⟩
      · rw [Value.drawing, Sequence.isInfinite, if_pos (decide_eq_true infinite)]
      · exact absurd ends (never.not_endsAfter n)
    have refused : ¬Leaf.endless.IsDrawable := fun ⟨_, _, same⟩ => nomatch same
    rw [Value.drawingAll, drawn]
    exact (Leaf.Shown.stop refused).append (ih bounded.2)
  | @within s n _ _ _ ends _ _ ihFirst ihNext =>
    rw [List.forall_mem_cons] at bounded
    have drawn : (Value.sequence s).drawing = Value.drawingAll (s.take n) := by
      rcases bounded.1.enumerated with ⟨-, never⟩ | @⟨m, finite, ends', drawn⟩
      · exact absurd ends (Sequence.NeverEnds.not_endsAfter never n)
      · rw [Value.drawing, Sequence.isInfinite, if_neg (by simpa using finite), drawn,
          Sequence.EndsAfter.unique ends' ends]
    rw [Value.drawingAll, drawn]
    exact (ihFirst fun _ => bounded.1.of_mem_take).append (ihNext bounded.2)

/-- How a drawing on a line ends. -/
def Drawing.outcome (drawing : Drawing) (line : Nat) : Except Stop Unit :=
  match drawing.stopped with
  | some fault => .error (.failed ⟨fault, line⟩)
  | none => .ok ()

theorem Drawing.andThen_nothing (drawing : Drawing) : drawing.andThen .nothing = drawing := by
  obtain ⟨figures, _ | fault⟩ := drawing
  · simp [andThen, nothing]
  · rfl

/-- The state in which the host has been shown figures in the current color. -/
def Context.showing (context : Context) (figures : List Figure) (label : Option String) : Context :=
  { context with
    log := (figures.map (.drawn · context.scope.color label)).reverse ++ context.log }

namespace Evaluation

theorem drawFigures_run (label : Option String) (figures : List Figure) (context : Context) :
    (drawFigures label figures).run context = (.ok (), context.showing figures label) := by
  induction figures generalizing context with
  | nil => rfl
  | cons first rest ih =>
    let shown : Context :=
      { context with log := .drawn first context.scope.color label :: context.log }
    change (drawFigures label rest).run shown = _
    rw [ih, Context.showing, Context.showing, List.map_cons, List.reverse_cons, List.append_assoc]
    rfl

theorem drawValue_run (value : Value) (label : Option String) (line : Nat) (context : Context) :
    (drawValue value label line).run context =
      (value.drawing.outcome line, context.showing value.drawing.figures label) := by
  simp only [drawValue]
  rw [run_bind, drawFigures_run, Drawing.outcome]
  dsimp only
  cases value.drawing.stopped <;> rfl

/-- Whatever is nested in a value, drawing it goes through its leaves from left to right and shows
the figures up to the first leaf that cannot be drawn. Nothing else changes. -/
theorem drawValue_walks {value : Value} (bounded : value.RangesBounded) (label : Option String)
    (line : Nat) (context : Context) :
    ∃ leaves drawing, Walk [value] leaves ∧ (∀ others, Walk [value] others → others = leaves) ∧
      Leaf.Shown leaves drawing ∧
      (drawing.stopped = none ↔ ∀ leaf ∈ leaves, leaf.IsDrawable) ∧
      (drawValue value label line).run context =
        (drawing.outcome line, context.showing drawing.figures label) := by
  obtain ⟨leaves, walk⟩ := value.exists_walk bounded
  have shown := walk.shown (List.forall_mem_singleton.mpr bounded)
  rw [Value.drawingAll, Value.drawingAll, Drawing.andThen_nothing] at shown
  exact ⟨leaves, value.drawing, walk, fun _ => walk.unique, shown, shown.stopped_eq_none_iff,
    drawValue_run value label line context⟩

/-- Points in nested sequences, an empty one among them, and then a range of numbers. -/
theorem drawValue_walks_nested :
    let p : Value := .point ⟨0, 0⟩
    let points : Value := .sequence (.joined (.finite [p]) (some (.figure .point))
      (.single (.finite [p, p]) (some (.figure .point))))
    let nested : Value := .sequence (.single
      (.finite [points, .sequence .empty, .sequence (.range 1 3), points]) (some .sequence))
    nested.RangesBounded ∧ ∃ leaves drawing, Walk [nested] leaves ∧ Leaf.Shown leaves drawing ∧
      (drawValue nested none 1).run (.create {} {} .none) =
        (drawing.outcome 1, (Context.create {} {} .none).showing drawing.figures none) := by
  intro p points nested
  have range : Number.isBound 1 = true ∧ Number.isBound 3 = true := by decide +kernel
  have bounded : nested.RangesBounded := by
    simp [nested, points, p, Value.point, Value.RangesBounded, Value.AllRangesBounded,
      Segment.RangesBounded, Sequence.RangesBounded, Sequence.empty, Sequence.range, range]
  obtain ⟨leaves, drawing, walk, -, shown, -, ran⟩ :=
    drawValue_walks bounded none 1 (.create {} {} .none)
  exact ⟨bounded, leaves, drawing, walk, shown, ran⟩

end Evaluation

end GSharp
