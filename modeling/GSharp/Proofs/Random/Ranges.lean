import GSharp.Proofs.Number.Bounded
import GSharp.Proofs.Number.Finite
import GSharp.Proofs.Value.Closure

namespace GSharp

/-- A range that the generator is to draw from. -/
inductive Request where
  /-- The integers from zero up to a number, drawn from one word. -/
  | integers32 (count : Nat)
  /-- The integers from zero up to a number, drawn from two words. -/
  | integers64 (count : Nat)
  /-- The numbers from the one up to but not including the other. -/
  | below (low high : Float)
  /-- The numbers between the two, both included. -/
  | within (low high : Float)

namespace Request

abbrev Drawn : Request → Type
  | integers32 _ | integers64 _ => Nat
  | below _ _ | within _ _ => Float

/-- The draw from the range. -/
def draw : (request : Request) → Generator.Sampling request.Drawn
  | integers32 count => Generator.below32 count
  | integers64 count => Generator.below64 count
  | below low high => Generator.between low high
  | within low high => Generator.within low high

/-- There is a number in the range, and its bounds are numbers. -/
def InOrder : Request → Prop
  | integers32 count | integers64 count => 0 < count
  | below low high => low.isFinite = true ∧ high.isFinite = true ∧ low < high
  | within low high => low.isFinite = true ∧ high.isFinite = true ∧ low ≤ high

/-- The distance of the bounds is a number too. -/
def IsMeasurable : Request → Prop
  | integers32 _ | integers64 _ => True
  | below low high | within low high => (high - low).isFinite = true

/-- There is nothing in the range, or its distance is infinite, as it is measured for the draw:
where both bounds are included, it is spread over the fractions that there are. -/
def IsRefused : Request → Prop
  | integers32 count | integers64 count => count = 0
  | below low high => ¬(low < high ∧ (high - low).isFinite = true)
  | within low high =>
    ¬(low ≤ high ∧ ((high - low) / Generator.greatestFraction).isFinite = true)

/-- What the generator asks of a range. -/
structure Accepted (request : Request) : Prop where
  inOrder : request.InOrder
  measurable : request.IsMeasurable
  drawable : ¬request.IsRefused

/-- The draws that are stopped are those from the ranges that are refused. -/
theorem draw_eq_error_iff (request : Request) (generator : Generator) :
    (∃ text, request.draw generator = .error text) ↔ request.IsRefused := by
  cases request with
  | integers32 count | integers64 count => exact Generator.below_eq_error_iff _ _ count generator
  | below low high =>
    simp only [draw, Generator.between, IsRefused]
    split
    · exact iff_of_true ⟨_, rfl⟩ fun accepted => absurd accepted.1 ‹_›
    · split
      · exact iff_of_true ⟨_, rfl⟩ fun accepted => absurd accepted.2 ‹_›
      · exact iff_of_false nofun (not_not_intro ⟨not_not.mp ‹_›, not_not.mp ‹_›⟩)
  | within low high =>
    simp only [draw, Generator.within, IsRefused]
    split
    · exact iff_of_true ⟨_, rfl⟩ fun accepted => absurd accepted.1 ‹_›
    · split
      · exact iff_of_true ⟨_, rfl⟩ fun accepted => absurd accepted.2 ‹_›
      · exact iff_of_false nofun (not_not_intro ⟨not_not.mp ‹_›, not_not.mp ‹_›⟩)

theorem draw_ne_error (request : Request) (accepted : ¬request.IsRefused) (generator : Generator)
    (text : String) : request.draw generator ≠ .error text := fun stopped =>
  accepted ((request.draw_eq_error_iff generator).mp ⟨text, stopped⟩)

instance : DecidablePred InOrder
  | integers32 count | integers64 count => inferInstanceAs (Decidable (0 < count))
  | below low high =>
    inferInstanceAs (Decidable (low.isFinite = true ∧ high.isFinite = true ∧ low < high))
  | within low high =>
    inferInstanceAs (Decidable (low.isFinite = true ∧ high.isFinite = true ∧ low ≤ high))

instance : DecidablePred IsMeasurable
  | integers32 _ | integers64 _ => inferInstanceAs (Decidable True)
  | below low high | within low high =>
    inferInstanceAs (Decidable ((high - low).isFinite = true))

/-- A range that a figure may be sampled from. Only that of a line, which goes as far to the one
side as to the other, may be too long to measure. What the generator gives up on is asked for only
where the canvas is set against the distance of two points. -/
structure Suits (figure : Figure) (request : Request) : Prop where
  inOrder : request.InOrder
  measurable : figure.kind ≠ .line → request.IsMeasurable
  centered : figure.kind = .line → ∃ reach, request = within (-reach) reach
  drawable : figure.kind ∉ [.line, .ray] → ¬request.IsRefused

end Request

/-- A library, and the ranges that it has drawn from, the latest first. -/
abbrev Ledger := Library × List Request

/-- Draws that put down their ranges. -/
abbrev Asking := ExceptT Stop (StateM Ledger)

namespace Asking

variable {α : Type}

/-- Puts down a range, and draws from it. -/
def asking (request : Request) : Asking request.Drawn := fun (library, asked) =>
  let (outcome, after) := (Library.draw request.draw).run library
  (outcome, after, request :: asked)

/-- Puts down a range that is not refused, and draws from it. -/
def asked (request : Request) (accepted : ¬request.IsRefused) : StateM Ledger request.Drawn :=
  fun (library, asked) =>
    let (value, after) := Library.step (request.draw.always (request.draw_ne_error accepted)) library
    (value, after, request :: asked)

def integer (count : Nat) (positive : 0 < count) : StateM Ledger Nat :=
  asked (.integers32 count) (Nat.ne_of_gt positive)

def amount : StateM Ledger Nat := do
  return (← asked (.integers64 18) (Nat.succ_ne_zero 17)) + 2

def coordinate (side : Nat) : StateM Ledger Nat :=
  integer (max side 1) (Library.zero_lt_max_one side)

def point : StateM Ledger Point := do
  let (library, _) ← get
  let x ← coordinate library.width
  let y ← coordinate library.height
  return ⟨Number.ofNat x, Number.ofNat y⟩

def measure : StateM Ledger Measure := do
  let (library, _) ← get
  let length ← coordinate (min library.width library.height / 2)
  return .of (Number.ofNat length)

def figure (kind : FigureKind) : StateM Ledger Figure :=
  match kind with
  | .point => return .point (← point)
  | .line => return .line (← point) (← point)
  | .segment => return .segment (← point) (← point)
  | .ray => return .ray (← point) (← point)
  | .circle => return .circle ⟨← point, ← measure⟩
  | .arc => return .arc ⟨← point, ← point, ← point, ← measure⟩
  | .measure => return .measure (← measure)

def figures (kind : FigureKind) : Nat → StateM Ledger (List Figure)
  | 0 => return []
  | n + 1 => do
    let first ← figure kind
    let rest ← figures kind n
    return first :: rest

def sequence (kind : FigureKind) : StateM Ledger Sequence := do
  let n ← amount
  let figures ← figures kind n
  return .single (.finite (figures.map .figure)) (some (.figure kind))

def sample (lower upper : Float) (line : Nat) : Asking Float :=
  if !lower.isFinite || !upper.isFinite || lower > upper then
    throw (.failed ⟨.invalidArgument "points" .unboundedFigure, line⟩)
  else asking (.within lower upper)

def along (first second : Point) (lower upper : Float) (line : Nat) : Asking Point := do
  let direction := second - first
  if direction.length == 0 then return first
  let t ← sample lower upper line
  return first + direction.scale t

def pointOn (figure : Figure) (line : Nat) : Asking (Option Point) := do
  match figure with
  | .point p => return some p
  | .segment first second => return some (← along first second 0 1 line)
  | .ray origin through =>
    let (library, _) ← get
    let reach := library.extent / origin.distance through
    return some (← along origin through 0 reach line)
  | .line first second =>
    let (library, _) ← get
    let reach := library.extent / first.distance second
    return some (← along first second (-reach) reach line)
  | .circle c =>
    let angle ← asking (.below 0 Plane.fullTurn)
    return some (Library.onCircle c angle)
  | .arc a =>
    let (start, sweep) := a.span
    let angle ← sample 0 sweep line
    return some (Library.onCircle a.circle (start + angle))
  | .measure _ => return none

end Asking

/-- Ranges put down and all else the same: the one draws as the other does, from ranges that have
the property. -/
def Asks {β : Type} (P : Request → Prop) (asking : StateM Ledger β) (draw : StateM Library β) :
    Prop :=
  ∀ library asked, ∃ requests,
    asking (library, asked) = ((draw library).1, (draw library).2, requests ++ asked) ∧
      ∀ request ∈ requests, P request

namespace Asks

variable {α β : Type} {P : Request → Prop}

theorem pure (value : β) : Asks P (pure value) (pure value) :=
  fun _ _ => ⟨[], rfl, List.forall_mem_nil _⟩

theorem asked (request : Request) (accepted : ¬request.IsRefused) (holds : P request) :
    Asks P (Asking.asked request accepted)
      (Library.step (request.draw.always (request.draw_ne_error accepted))) :=
  fun _ _ => ⟨[request], rfl, List.forall_mem_singleton.mpr holds⟩

theorem getThen {next : Library → StateM Ledger β} {next' : Library → StateM Library β}
    (asks : ∀ library, Asks P (next library) (next' library)) :
    Asks P (do let (library, _) ← get; next library) (do let library ← get; next' library) :=
  fun library asked => asks library library asked

theorem bind {first : StateM Ledger α} {first' : StateM Library α} {next : α → StateM Ledger β}
    {next' : α → StateM Library β} (start : Asks P first first')
    (rest : ∀ value, Asks P (next value) (next' value)) :
    Asks P (first >>= next) (first' >>= next') := by
  intro library asked
  obtain ⟨earlier, begun, sound⟩ := start library asked
  obtain ⟨later, ended, others⟩ := rest (first' library).1 (first' library).2 (earlier ++ asked)
  refine ⟨later ++ earlier, ?_, List.forall_mem_append.mpr ⟨others, sound⟩⟩
  change next (first (library, asked)).1 (first (library, asked)).2 = _
  rw [begun, ended, List.append_assoc]
  rfl

end Asks

namespace Asking

open Request

theorem integer_asks {count : Nat} (positive : 0 < count) :
    Asks Accepted (integer count positive) (Library.integer count positive) :=
  .asked (.integers32 count) (Nat.ne_of_gt positive) ⟨positive, trivial, Nat.ne_of_gt positive⟩

theorem coordinate_asks (side : Nat) :
    Asks Accepted (coordinate side) (Library.coordinate side) := integer_asks _

theorem amount_asks : Asks Accepted amount (Library.step Library.amount) := by
  rw [Library.step_amount_eq]
  have full : ¬(integers64 18).IsRefused := Nat.succ_ne_zero 17
  exact .bind (.asked (.integers64 18) full ⟨Nat.succ_pos 17, trivial, full⟩) fun _ => .pure _

theorem point_asks : Asks Accepted point Library.point :=
  .getThen fun _ => .bind (coordinate_asks _) fun _ => .bind (coordinate_asks _) fun _ => .pure _

theorem measure_asks : Asks Accepted measure Library.measure :=
  .getThen fun _ => .bind (coordinate_asks _) fun _ => .pure _

theorem figure_asks (kind : FigureKind) : Asks Accepted (figure kind) (Library.figure kind) := by
  cases kind with
  | point => exact .bind point_asks fun _ => .pure _
  | line | segment | ray => exact .bind point_asks fun _ => .bind point_asks fun _ => .pure _
  | circle => exact .bind point_asks fun _ => .bind measure_asks fun _ => .pure _
  | arc =>
    exact .bind point_asks fun _ => .bind point_asks fun _ => .bind point_asks fun _ =>
      .bind measure_asks fun _ => .pure _
  | measure => exact .bind measure_asks fun _ => .pure _

theorem figures_asks (kind : FigureKind) (n : Nat) :
    Asks Accepted (figures kind n) (Library.figures kind n) := by
  induction n with
  | zero => exact .pure _
  | succ n ih => exact .bind (figure_asks kind) fun _ => .bind ih fun _ => .pure _

theorem sequence_asks (kind : FigureKind) :
    Asks Accepted (sequence kind) (Library.sequence kind) :=
  .bind amount_asks fun n => .bind (figures_asks kind n) fun _ => .pure _

end Asking

/-- A draw that may end before its time. It crashes if and only if the generator refuses one of the
ranges. -/
def AsksOrStops {α : Type} (P : Request → Prop) (asking : Asking α) (draw : Draw α) : Prop :=
  ∀ library asked, ∃ requests,
    asking.run (library, asked) =
      ((draw.run library).1, (draw.run library).2, requests ++ asked) ∧
    (∀ request ∈ requests, P request) ∧
    ((∃ reason, (draw.run library).1 = .error (.crashed reason)) ↔
      ∃ request ∈ requests, request.IsRefused)

namespace AsksOrStops

variable {α β : Type} {P : Request → Prop}

theorem done (value : α) : AsksOrStops P (pure value) (pure value) :=
  fun _ _ => ⟨[], rfl, List.forall_mem_nil _, ⟨nofun, nofun⟩⟩

theorem fail (error : EvalError) :
    AsksOrStops P (throw (.failed error) : Asking α) (throw (.failed error)) :=
  fun _ _ => ⟨[], rfl, List.forall_mem_nil _, ⟨nofun, nofun⟩⟩

theorem getThen {next : Library → Asking α} {next' : Library → Draw α}
    (asks : ∀ library, AsksOrStops P (next library) (next' library)) :
    AsksOrStops P (do let (library, _) ← get; next library) (do let library ← get; next' library) :=
  fun library asked => asks library library asked

theorem andThen {first : Asking α} {first' : Draw α} {next : α → Asking β} {next' : α → Draw β}
    (start : AsksOrStops P first first') (rest : ∀ value, AsksOrStops P (next value) (next' value)) :
    AsksOrStops P (first >>= next) (first' >>= next') := by
  intro library asked
  obtain ⟨earlier, begun, sound, crashed⟩ := start library asked
  change ∃ requests,
    ExceptT.bindCont next (first.run (library, asked)).1 (first.run (library, asked)).2 =
      ((ExceptT.bindCont next' (first'.run library).1 (first'.run library).2).1,
        (ExceptT.bindCont next' (first'.run library).1 (first'.run library).2).2,
        requests ++ asked) ∧ _ ∧
    ((∃ reason, (ExceptT.bindCont next' (first'.run library).1 (first'.run library).2).1 =
      .error (.crashed reason)) ↔ _)
  rw [begun]
  cases outcome : (first'.run library).1 with
  | error stop =>
    rw [outcome] at crashed
    refine ⟨earlier, rfl, sound, Iff.trans (exists_congr fun reason => ?_) crashed⟩
    exact ⟨fun same => congrArg _ (Except.error.inj same),
      fun same => congrArg _ (Except.error.inj same)⟩
  | ok value =>
    -- Nothing was refused before, so what is refused is asked for by the rest.
    have accepted : ¬∃ request ∈ earlier, request.IsRefused := by
      rw [← crashed, outcome]
      nofun
    obtain ⟨later, ended, others, crashed⟩ :=
      rest value (first'.run library).2 (earlier ++ asked)
    refine ⟨later ++ earlier, ?_, List.forall_mem_append.mpr ⟨others, sound⟩, ?_⟩
    · rw [List.append_assoc]
      exact ended
    · simp only [List.mem_append, or_and_right, exists_or, accepted, or_false]
      exact crashed

theorem asking (request : Request) (holds : P request) :
    AsksOrStops P (Asking.asking request) (Library.draw request.draw) := by
  intro library asked
  refine ⟨[request], rfl, List.forall_mem_singleton.mpr holds, ?_⟩
  simp only [List.mem_singleton, exists_eq_left, ← request.draw_eq_error_iff library.generator]
  simp only [Library.draw, ExceptT.run]
  cases request.draw library.generator with
  | error text => exact iff_of_true ⟨_, rfl⟩ ⟨text, rfl⟩
  | ok drawn =>
    constructor
    · rintro ⟨reason, crashed⟩
      cases crashed
    · rintro ⟨text, stopped⟩
      cases stopped

end AsksOrStops

namespace Asking

open Request
open Number

/-- The bounds that are not handed to the generator are the ones out of order. -/
theorem inOrder_iff {lower upper : Float} : (within lower upper).InOrder ↔
    ¬(!lower.isFinite || !upper.isFinite || lower > upper) = true := by
  simp only [InOrder, Bool.or_eq_true, Bool.not_eq_true', decide_eq_true_eq, not_or,
    Bool.not_eq_false, and_assoc]
  exact and_congr_right fun left => and_congr_right fun right => Number.le_iff_not_lt left right

/-- Bounds that are out of order are refused. All others are handed to the generator. -/
theorem sample_asks (lower upper : Float) (line : Nat) {P : Request → Prop}
    (holds : (within lower upper).InOrder → P (.within lower upper)) :
    AsksOrStops P (sample lower upper line) (Library.sample lower upper line) := by
  unfold sample Library.sample
  split
  · exact .fail _
  · rename_i checked
    exact .asking (.within lower upper) (holds (inOrder_iff.mpr checked))

theorem along_asks (first second : Point) (lower upper : Float) (line : Nat) {P : Request → Prop}
    (holds : (within lower upper).InOrder → P (.within lower upper)) :
    AsksOrStops P (along first second lower upper line)
      (Library.along first second lower upper line) := by
  simp only [along, Library.along]
  split
  · exact .done _
  · exact .andThen (sample_asks lower upper line holds) fun _ => .done _

theorem isMeasurable_of_inOrder {upper : Float} (ordered : (within 0 upper).InOrder) :
    (within 0 upper).IsMeasurable := by
  change (upper - 0).isFinite = true
  rw [Number.sub_zero]
  exact ordered.2.1

/-- A range from zero that stays far below the largest numbers is never given up on. -/
theorem not_isRefused_of_below {upper : Float} {top : Int} (below : Number.Below top (parts upper))
    (least : -1000 ≤ top) (far : top < 900) (ordered : 0 ≤ upper) : ¬(within 0 upper).IsRefused := by
  have field : exponentField Generator.greatestFraction = 1022 := by decide +kernel
  have divisor : parts Generator.greatestFraction = _ := parts_normal (by omega) (by omega)
  rw [field] at divisor
  have spread := div_below below divisor (by omega) (Int.le_refl _) (by omega) (by omega)
  refine not_not_intro ⟨ordered, ?_⟩
  rw [Number.sub_zero]
  exact isFinite_of_below spread

theorem circle_suits (c : Circle) : (below 0 Plane.fullTurn).Suits (.circle c) where
  inOrder := by
    refine ⟨?_, ?_, ?_⟩ <;> decide +kernel
  measurable _ := by
    change (Plane.fullTurn - 0).isFinite = true
    decide +kernel
  centered := nofun
  drawable _ := not_not_intro (by decide +kernel)

theorem segment_suits (first second : Point) (ordered : (within 0 1).InOrder) :
    (within 0 1).Suits (.segment first second) where
  inOrder := ordered
  measurable _ := isMeasurable_of_inOrder ordered
  centered := nofun
  drawable _ := not_not_intro (by decide +kernel)

theorem ray_suits (origin through : Point) {reach : Float} (ordered : (within 0 reach).InOrder) :
    (within 0 reach).Suits (.ray origin through) where
  inOrder := ordered
  measurable _ := isMeasurable_of_inOrder ordered
  centered := nofun
  drawable other := absurd (by simp [Figure.kind]) other

theorem line_suits (first second : Point) {reach : Float}
    (ordered : (within (-reach) reach).InOrder) :
    (within (-reach) reach).Suits (.line first second) where
  inOrder := ordered
  measurable other := absurd rfl other
  centered _ := ⟨reach, rfl⟩
  drawable other := absurd (by simp [Figure.kind]) other

/-- The sweep of an arc is not far from a full turn, unless its points have no directions. -/
theorem sweep_below (a : Arc) (finite : a.span.2.isFinite = true) :
    Number.Below (-47) (parts a.span.2) := by
  have field : exponentField Plane.fullTurn = 1025 := by decide +kernel
  have turn : parts Plane.fullTurn = _ := parts_normal (by omega) (by omega)
  rw [field] at turn
  unfold Arc.span at finite ⊢
  dsimp only at finite ⊢
  split at finite
  · rename_i short
    rw [if_pos short, turn]
    exact (by decide : ((1025 : Nat) : Int) - 1075 ≤ -47)
  · rename_i long
    rw [if_neg long]
    rcases euclideanRemainder_below _ turn (by decide) (by decide) with below | nan
    · exact below
    · rw [nan] at finite
      exact absurd finite (by decide +kernel)

theorem arc_suits (a : Arc) (ordered : (within 0 a.span.2).InOrder) :
    (within 0 a.span.2).Suits (.arc a) where
  inOrder := ordered
  measurable _ := isMeasurable_of_inOrder ordered
  centered := nofun
  drawable _ := not_isRefused_of_below (sweep_below a ordered.2.1) (by decide) (by decide) ordered.2.2

theorem pointOn_asks (figure : Figure) (line : Nat) :
    AsksOrStops (Request.Suits figure) (pointOn figure line) (Library.pointOn figure line) := by
  cases figure with
  | point | measure => exact .done _
  | segment first second =>
    exact .andThen (along_asks _ _ _ _ _ (segment_suits _ _)) fun _ => .done _
  | ray origin through =>
    exact .getThen fun _ => .andThen (along_asks _ _ _ _ _ (ray_suits _ _)) fun _ => .done _
  | line first second =>
    exact .getThen fun _ => .andThen (along_asks _ _ _ _ _ (line_suits _ _)) fun _ => .done _
  | circle c => exact .andThen (.asking (.below 0 Plane.fullTurn) (circle_suits c)) fun _ => .done _
  | arc a => exact .andThen (sample_asks _ _ _ (arc_suits a)) fun _ => .done _

end Asking

namespace Library

/-- What random figures and points are drawn from, on every canvas and from every state of the
generator: integers from ranges that are not empty, and numbers from bounds that are finite and in
order. The generator refuses none of the ranges for a figure or a sequence, and a point on a figure
crashes if and only if it refuses one of those. -/
theorem draws_in_order (kind : FigureKind) (shape : Figure) (line : Nat) :
    Asks Request.Accepted (Asking.figure kind) (figure kind) ∧
      Asks Request.Accepted (Asking.sequence kind) (sequence kind) ∧
      AsksOrStops (Request.Suits shape) (Asking.pointOn shape line) (pointOn shape line) :=
  ⟨Asking.figure_asks kind, Asking.sequence_asks kind, Asking.pointOn_asks shape line⟩

/-- The ends of the stretch that a line is sampled from may be finite and still too far apart. -/
theorem pointOn_crashes :
    let library := create 100 100 0
    let figure : Figure := .line ⟨0, 0⟩ ⟨1e-306, 0⟩
    ((pointOn figure 1).run library).1 =
        .error (.crashed (some "Uniform::new_inclusive: range overflow")) ∧
      ∃ request ∈ ((Asking.pointOn figure 1).run (library, [])).2.2,
        request.InOrder ∧ ¬request.IsMeasurable := by
  have crashed : ((pointOn (.line ⟨0, 0⟩ ⟨1e-306, 0⟩) 1).run (create 100 100 0)).1 =
      .error (.crashed (some "Uniform::new_inclusive: range overflow")) := by decide +kernel
  refine ⟨crashed, ?_⟩
  decide +kernel

end Library

end GSharp
