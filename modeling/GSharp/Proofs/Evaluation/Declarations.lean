import GSharp.Proofs.Evaluation.Balance
import GSharp.Proofs.Scope.Entry
import GSharp.Proofs.Value.Joining

namespace GSharp

/-- A multiple assignment may declare more than one name, and so may an import. -/
def Statement.isSingle : Statement → Bool
  | .assignMany _ _ _ | .importFile _ _ => false
  | .expression _ _ | .assign _ _ _ | .function _ _ _ _ | .draw _ _ _ | .print _ _ _ | .color _ _
  | .restore _ | .random _ _ _ _ => true

/-- The name that a single instruction declares, if there is any. -/
def Statement.declared? : Statement → Option String
  | .assign name _ _ | .random _ _ name _ => Scope.shown? name
  | .function name _ _ _ => some name
  | .expression _ _ | .assignMany _ _ _ | .importFile _ _ | .draw _ _ _ | .print _ _ _ | .color _ _
  | .restore _ => none

namespace Context

/-- What every instruction keeps is kept, and the active frame makes the declaration. -/
structure Declares (name? : Option String) (before after : Context) : Prop
    extends Extends before after where
  active : before.scope.active.Declares name? after.scope.active

/-- Either the declaration was made, or the computation failed and left all frames and the call
depth as they were. -/
inductive AllOrNothing {α : Type} (name? : Option String) (before : Context) :
    Except Stop α × Context → Prop where
  | done {value : α} {after : Context} (declares : before.Declares name? after) :
      AllOrNothing name? before (.ok value, after)
  | failed {stop : Stop} {after : Context} (balanced : before.Balanced after) :
      AllOrNothing name? before (.error stop, after)

variable {name? : Option String} {before reached after : Context}

theorem Balanced.declares (balanced : before.Balanced after) : before.Declares none after where
  toExtends := balanced.toExtends
  active := ⟨fun _ absent => (nomatch absent), fun _ _ => balanced.active ▸ rfl⟩

theorem Balanced.thenDeclares (balanced : before.Balanced reached)
    (declares : reached.Declares name? after) : before.Declares name? after where
  toExtends := trans_of Extends balanced.toExtends declares.toExtends
  active := balanced.active ▸ declares.active

end Context

open Context

namespace Evaluation

/-- From every state the computation makes its declaration, or else changes no frame. -/
def Atomic {α : Type} (name? : Option String) (computation : Evaluation α) : Prop :=
  ∀ context : Context, context.AllOrNothing name? (computation.run context)

namespace Atomic

variable {α β : Type} {name? : Option String}

theorem of_balanced {computation : Evaluation α} (balanced : Preserves Balanced computation.run) :
    Atomic none computation := by
  intro context
  have kept : context.Balanced (computation.run context).2 := balanced context
  rcases ended : computation.run context with ⟨_ | _, _⟩ <;> rw [ended] at kept
  · exact .failed kept
  · exact .done kept.declares

theorem andThen {first : Evaluation α} {next : α → Evaluation β}
    (start : Preserves Balanced first.run) (rest : ∀ value, Atomic name? (next value)) :
    Atomic name? (first >>= next) := by
  intro context
  have kept : context.Balanced (first.run context).2 := start context
  rw [run_bind]
  rcases ended : first.run context with ⟨_ | value, reached⟩ <;> rw [ended] at kept
  · exact .failed kept
  · have concluded : reached.AllOrNothing name? ((next value).run reached) := rest value reached
    dsimp only
    generalize (next value).run reached = ran at concluded ⊢
    cases concluded with
    | done declares => exact .done (kept.thenDeclares declares)
    | failed balanced => exact .failed (trans_of Balanced kept balanced)

/-- What the computation gives may be changed. -/
theorem thenDone {computation : Evaluation α} (atomic : Atomic name? computation)
    (change : α → β) : Atomic name? (computation >>= fun value => pure (change value)) := by
  intro context
  have concluded : context.AllOrNothing name? (computation.run context) := atomic context
  rw [run_bind]
  generalize computation.run context = ran at concluded ⊢
  cases concluded with
  | done declares => exact .done declares
  | failed balanced => exact .failed balanced

end Atomic

section UpdateScope

variable {update : Scope → Except EvalError Scope} {context : Context}

theorem updateScope_of_ok {after : Scope} (updated : update context.scope = .ok after) :
    (updateScope update).run context = (.ok (), { context with scope := after }) := by
  have unfolded : (updateScope update).run context =
      (ofExcept (update context.scope) >>= setScope).run context := rfl
  rw [unfolded, updated]
  rfl

theorem updateScope_of_error {error : EvalError} (updated : update context.scope = .error error) :
    (updateScope update).run context = (.error (.failed error), context) := by
  have unfolded : (updateScope update).run context =
      (ofExcept (update context.scope) >>= setScope).run context := rfl
  rw [unfolded, updated]
  rfl

theorem updateScope_atomic {name? : Option String}
    (outer : ∀ scope after, update scope = .ok after → after.outer = scope.outer)
    (active : ∀ scope after, update scope = .ok after →
      scope.active.Declares name? after.active) : Atomic name? (updateScope update) := by
  intro context
  cases updated : update context.scope with
  | error error =>
    rw [updateScope_of_error updated]
    exact .failed (refl_of Balanced context)
  | ok after =>
    rw [updateScope_of_ok updated]
    exact .done
      { toExtends := setScope_extends context (outer _ _ updated)
        active := active _ _ updated }

end UpdateScope

theorem setConstant_atomic (name : String) (value : Value) (line : Nat) :
    Atomic (Scope.shown? name) (updateScope fun scope => scope.setConstant name value line) :=
  updateScope_atomic (fun _ _ => Scope.setConstant_outer) fun _ _ => Scope.setConstant_declares

theorem declare_atomic (function : FunctionDef) :
    Atomic (some function.name) (updateScope fun scope => scope.declare function) :=
  updateScope_atomic (fun _ _ => Scope.declare_outer) fun _ _ => Scope.declare_declares

end Evaluation

open Evaluation

theorem Statement.eval_atomic {beyond : Beyond} (kept : beyond.Balanced) {statement : Statement}
    (single : statement.isSingle = true) :
    Atomic statement.declared? (statement.eval beyond) := by
  cases statement with
  | expression value _ =>
    exact .thenDone (.of_balanced (Expr.eval_balanced kept value)) _
  | assign name value line =>
    refine .andThen (Expr.eval_balanced kept value) fun value => ?_
    exact .thenDone (setConstant_atomic name value line) _
  | assignMany => cases single
  | function name parameters body line =>
    refine .andThen (ofExcept_preserves _) fun _ => ?_
    exact .thenDone (declare_atomic ⟨name, parameters, body, line⟩) _
  | importFile => cases single
  | draw value label line =>
    refine .andThen (Expr.eval_balanced kept value) fun value => ?_
    exact .thenDone (.of_balanced (drawValue_balanced value label line)) _
  | print value _ _ =>
    refine .andThen (Expr.eval_balanced kept value) fun value => ?_
    exact .thenDone (.of_balanced (print_balanced _)) _
  | color color _ =>
    exact .of_balanced (.getThen fun context => setScope_balanced context rfl rfl)
  | restore _ =>
    exact .of_balanced (.getThen fun context =>
      setScope_balanced context Scope.restoreColor_active Scope.restoreColor_outer)
  | random kind isSequence name line =>
    refine .andThen (randomValue_balanced kind isSequence) fun value => ?_
    exact .thenDone (setConstant_atomic name value line) _

/-- An instruction that fails leaves every frame and the call depth as they were, wherever it
failed; one that succeeds declares its name, if it has one, and changes the entry of no other. -/
theorem Context.eval_allOrNothing (context : Context) {statement : Statement}
    (single : statement.isSingle = true) :
    context.AllOrNothing statement.declared? ((statement.eval context.beyond).run context) :=
  statement.eval_atomic (Beyond.ofBounds_balanced _ _) single context

/-- A block that declares a name of its own, and a name that turns out to be taken after it. -/
theorem Context.eval_allOrNothing_taken :
    let context : Context :=
      { create {} {} .none with
        scope := { active := { constants := [("x", .undefined)], reserved := ["x"] } } }
    let block : Expr := .block [.assign "y" (.undefined 2) 2] (.constant "y" 2) 2
    let statement : Statement := .assign "x" block 2
    statement.isSingle = true ∧ ∃ after,
      (statement.eval context.beyond).run context =
        (.error (.failed ⟨.constantRedeclaration "x", 2⟩), after) ∧ context.Balanced after := by
  intro context block statement
  have single : statement.isSingle = true := rfl
  have concluded := context.eval_allOrNothing single
  have ended : ((statement.eval context.beyond).run context).1 =
      .error (.failed ⟨.constantRedeclaration "x", 2⟩) := by rfl
  generalize (statement.eval context.beyond).run context = ran at concluded ended
  cases concluded with
  | done => cases ended
  | failed balanced =>
    cases ended
    exact ⟨single, _, rfl, balanced⟩

namespace Frame

/-- The name at the place cannot be bound. It is claimed already, or stands further to the left as
well, and is not the discarded one. -/
def Refuses (frame : Frame) (names : List String) (place : Nat) : Prop :=
  ∃ name, names[place]? = some name ∧ name ≠ Scope.discard ∧
    (name ∈ frame.reserved ∨ name ∈ names.take place)

/-- So many names are bound to the elements at their places, but for the discarded one. Nothing else
changes. -/
structure Assigns (names : List String) (element : Nat → Value) (count : Nat)
    (before after : Frame) : Prop where
  own : ∀ place < count, ∀ name, names[place]? = some name → name ≠ Scope.discard →
    after.entry name = (before.entry name).bindConstant (element place)
  others : ∀ name, name = Scope.discard ∨ name ∉ names.take count →
    after.entry name = before.entry name

/-- Either all names can be bound and are, or those to the left of the first one that cannot. -/
inductive Assignment (names : List String) (element : Nat → Value) (line : Nat) (before : Frame) :
    Except Stop Unit → Frame → Prop where
  | all {after : Frame} (free : ∀ place, ¬before.Refuses names place)
      (assigns : before.Assigns names element names.length after) :
      Assignment names element line before (.ok ()) after
  | part {after : Frame} {place : Nat} {name : String} (found : names[place]? = some name)
      (refused : before.Refuses names place)
      (first : ∀ earlier < place, ¬before.Refuses names earlier)
      (assigns : before.Assigns names element place after) :
      Assignment names element line before
        (.error (.failed ⟨.constantRedeclaration name, line⟩)) after

/-- The frame after one name of an assignment. -/
def assign (frame : Frame) (name : String) (value : Value) : Frame :=
  if name = Scope.discard then frame else frame.bindConstant name value

section Step

variable {frame after : Frame} {name other : String} {names : List String} {value : Value}
  {element : Nat → Value} {place count line : Nat}

theorem entry_assign (shown : name ≠ Scope.discard) :
    (frame.assign name value).entry name = (frame.entry name).bindConstant value := by
  rw [assign, if_neg shown, entry_bindConstant]

theorem entry_assign_of_ne (untouched : other = Scope.discard ∨ other ≠ name) :
    (frame.assign name value).entry other = frame.entry other := by
  rw [assign]
  split
  · rfl
  · rename_i shown
    refine entry_bindConstant_of_ne ?_ value
    rcases untouched with rfl | different
    · exact Ne.symm shown
    · exact different

theorem refuses_cons_zero :
    frame.Refuses (name :: names) 0 ↔ name ≠ Scope.discard ∧ name ∈ frame.reserved := by
  simp [Refuses]

/-- Once a name is bound it is refused further to the right, as any other name that is claimed. -/
theorem refuses_cons_succ :
    frame.Refuses (name :: names) (place + 1) ↔
      (frame.assign name value).Refuses names place := by
  unfold Refuses assign
  refine exists_congr fun other => and_congr_right fun _ => and_congr_right fun shown => ?_
  split
  · rename_i discarded
    have different : other ≠ name := discarded ▸ shown
    simp [different]
  · simp [bindConstant, or_left_comm, or_assoc]

/-- What is assigned further to the right does not touch a name that was bound. -/
theorem Assigns.cons
    (assigns : (frame.assign name (element 0)).Assigns names (fun place => element (place + 1))
      count after)
    (free : ∀ place < count, ¬frame.Refuses (name :: names) (place + 1)) :
    frame.Assigns (name :: names) element (count + 1) after := by
  have absent (shown : name ≠ Scope.discard) : name ∉ names.take count := by
    intro later
    obtain ⟨place, found⟩ := List.mem_iff_getElem?.mp later
    rw [List.getElem?_take] at found
    split at found
    · rename_i before
      exact free place before ⟨name, found, shown, .inr (by simp)⟩
    · cases found
  refine ⟨fun place before bound found shown => ?_, fun other untouched => ?_⟩
  · cases place with
    | zero =>
      obtain rfl : name = bound := by simpa using found
      rw [assigns.others name (.inr (absent shown)), entry_assign shown]
    | succ place =>
      have before := Nat.lt_of_succ_lt_succ before
      have found : names[place]? = some bound := by simpa using found
      have different : bound ≠ name := by
        rintro rfl
        exact free place before ⟨bound, found, shown, .inr (by simp)⟩
      rw [assigns.own place before bound found shown, entry_assign_of_ne (.inr different)]
  · rw [List.take_succ_cons, List.mem_cons, not_or] at untouched
    rw [assigns.others other (untouched.imp_right And.right),
      entry_assign_of_ne (untouched.imp_right And.left)]

theorem Assignment.cons {outcome : Except Stop Unit}
    (assignment : (frame.assign name (element 0)).Assignment names
      (fun place => element (place + 1)) line outcome after)
    (free : ¬frame.Refuses (name :: names) 0) :
    frame.Assignment (name :: names) element line outcome after := by
  have fromRest {place : Nat} : (∀ earlier < place,
      ¬(frame.assign name (element 0)).Refuses names earlier) →
        ∀ earlier < place + 1, ¬frame.Refuses (name :: names) earlier := by
    rintro later (_ | earlier) before
    · exact free
    · exact mt refuses_cons_succ.mp (later earlier (Nat.lt_of_succ_lt_succ before))
  cases assignment with
  | all others assigns =>
    refine .all ?_ (assigns.cons fun place _ => mt refuses_cons_succ.mp (others place))
    rintro (_ | place)
    · exact free
    · exact mt refuses_cons_succ.mp (others place)
  | part found refused first assigns =>
    exact .part found (refuses_cons_succ.mpr refused) (fromRest first)
      (assigns.cons fun earlier before => mt refuses_cons_succ.mp (first earlier before))

end Step

end Frame

theorem Scope.setConstant_eq_assign (scope : Scope) (name : String) (value : Value) (line : Nat) :
    scope.setConstant name value line =
      if name ≠ discard ∧ name ∈ scope.active.reserved then
        .error ⟨.constantRedeclaration name, line⟩
      else .ok { scope with active := scope.active.assign name value } := by
  rw [setConstant_eq, Frame.assign]
  by_cases discarded : name = discard
  · simp [discarded]
  · simp [discarded]

namespace Evaluation

/-- Going through the names, an assignment changes the active frame alone. -/
theorem assignEach_run (line : Nat) (names : List String) {values : List Value}
    {element : Nat → Value}
    (same : ∀ place < names.length, values[place]?.getD .undefined = element place)
    (context : Context) : ∃ outcome frame,
      (assignEach line names values).run context =
        (outcome, { context with scope := { context.scope with active := frame } }) ∧
      context.scope.active.Assignment names element line outcome frame := by
  induction names generalizing values element context with
  | nil =>
    refine ⟨.ok (), context.scope.active, rfl, .all ?_ ⟨?_, fun _ _ => rfl⟩⟩
    · simp [Frame.Refuses]
    · simp
  | cons name names ih =>
    have first : values.head?.getD .undefined = element 0 := by
      simpa [List.head?_eq_getElem?] using same 0 (Nat.succ_pos _)
    have bound := context.scope.setConstant_eq_assign name (element 0) line
    rw [assignEach, run_bind, first]
    by_cases refused : name ≠ Scope.discard ∧ name ∈ context.scope.active.reserved
    · rw [if_pos refused] at bound
      rw [updateScope_of_error bound]
      have found : (name :: names)[0]? = some name := rfl
      refine ⟨_, context.scope.active, rfl, .part found ?_ ?_ ⟨?_, fun _ _ => rfl⟩⟩
      · exact Frame.refuses_cons_zero.mpr refused
      · exact fun _ before => absurd before (Nat.not_lt_zero _)
      · exact fun _ before => absurd before (Nat.not_lt_zero _)
    · rw [if_neg refused] at bound
      rw [updateScope_of_ok bound]
      have rest (place : Nat) (before : place < names.length) :
          values.tail[place]?.getD .undefined = element (place + 1) := by
        simpa using same (place + 1) (Nat.succ_lt_succ before)
      obtain ⟨outcome, frame, ran, assignment⟩ := ih rest
        { context with
          scope := { context.scope with active := context.scope.active.assign name (element 0) } }
      exact ⟨outcome, frame, ran, assignment.cons (mt Frame.refuses_cons_zero.mp refused)⟩

end Evaluation

namespace Context

/-- What becomes of a multiple assignment, by what becomes of its value. The names are bound in the
frame that the value leaves active, to the elements of the sequence, and to nothing past its end. -/
inductive AssignsMany (names : List String) (line : Nat) :
    Except Stop Value × Context → Except Stop (Option Value) × Context → Prop where
  | failed {stop : Stop} {reached : Context} :
      AssignsMany names line (.error stop, reached) (.error stop, reached)
  | mismatch {value : Value} {reached : Context} (other : ∀ s, value ≠ .sequence s) :
      AssignsMany names line (.ok value, reached)
        (.error (.failed ⟨.expectedSequence value.kind, line⟩), reached)
  | assigned {s : Sequence} {reached : Context} {outcome : Except Stop Unit} {frame : Frame}
      (assignment : reached.scope.active.Assignment names
        (fun place => (s.element? place).getD .undefined) line outcome frame) :
      AssignsMany names line (.ok (.sequence s), reached)
        (outcome.map fun _ => none,
          { reached with scope := { reached.scope with active := frame } })

/-- However long the sequence is, if it ends at all, the names of a multiple assignment are bound
from left to right, up to the first one that cannot be bound. The value changes no frame. -/
theorem assignMany_assigns (context : Context) (names : List String) (value : Expr) (line : Nat) :
    context.Balanced ((value.eval context.beyond).run context).2 ∧
      AssignsMany names line ((value.eval context.beyond).run context)
        (((Statement.assignMany names value line).eval context.beyond).run context) := by
  refine ⟨(frames_balanced context).1 value, ?_⟩
  rw [Statement.eval, run_bind]
  rcases (value.eval context.beyond).run context with ⟨stop | value, reached⟩
  · exact .failed
  dsimp only
  by_cases fits : ∃ s, value = .sequence s
  · obtain ⟨s, rfl⟩ := fits
    obtain ⟨outcome, frame, ran, assignment⟩ := assignEach_run line names
      (fun place before => congrArg (·.getD .undefined) (s.getElem?_take before)) reached
    have rest : (ofExcept ((Value.sequence s).asSequence line) >>= fun elements => do
          assignEach line names (elements.take names.length)
          return none : Evaluation (Option Value)).run reached =
        (outcome.map fun _ => none,
          { reached with scope := { reached.scope with active := frame } }) := by
      change (assignEach line names (s.take names.length) >>= fun _ => pure none).run reached = _
      rw [run_bind, ran]
      cases outcome <;> rfl
    rw [rest]
    exact .assigned assignment
  · have other : value.asSequence line = .error ⟨.expectedSequence value.kind, line⟩ := by
      cases value with
      | sequence s => exact absurd ⟨s, rfl⟩ fits
      | _ => rfl
    rw [other]
    exact .mismatch (not_exists.mp fits)

end Context

end GSharp
