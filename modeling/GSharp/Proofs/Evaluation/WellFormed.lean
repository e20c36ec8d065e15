import GSharp.Proofs.Evaluation.Erasure
import GSharp.Proofs.Scope.WellFormed
import GSharp.Proofs.Syntax.Soundness
import GSharp.Proofs.Value.Closure

namespace GSharp

open Evaluation

def Event.WellFormed : Event → Prop
  | .drawn figure _ _ => figure.WellFormed
  | .printed _ | .reported _ => True

/-- A state that only well-formed values can be reached from. -/
structure Context.WellFormed (context : Context) : Prop where
  scope : context.scope.WellFormed
  library : context.library.WellFormed
  log : ∀ event ∈ context.log, event.WellFormed

theorem Context.create_wellFormed (host : Host) (settings : Settings) (files : Files) :
    (Context.create host settings files).WellFormed where
  scope := Scope.wellFormed_initial
  library := Library.create_wellFormed ..
  log := List.forall_mem_nil _

namespace Evaluation

variable {α : Type} {P : α → Prop}

theorem ofExcept_wellFormed {result : Except EvalError α} (gives : Gives P result) :
    Ensures Context.WellFormed P (ofExcept result) := by
  cases result with
  | ok value => exact .done (gives value rfl)
  | error error => exact .throw _

theorem fail_wellFormed (fault : EvalFault) (line : Nat) :
    Ensures Context.WellFormed P (fail fault line) := .throw _

theorem draw_wellFormed {draw : Draw α} (ensures : Ensures Library.WellFormed P draw) :
    Ensures Context.WellFormed P (Evaluation.draw draw) := fun context wellFormed =>
  have drawn := ensures context.library wellFormed.library
  ⟨{ wellFormed with library := drawn.1 }, drawn.2⟩

theorem setScope_wellFormed {scope : Scope} (wellFormed : scope.WellFormed) :
    Keeps Context.WellFormed (setScope scope) :=
  .modify fun _ before => { before with scope := wellFormed }

theorem updateScope_wellFormed {update : Scope → Except EvalError Scope}
    (kept : ∀ scope, scope.WellFormed → Gives Scope.WellFormed (update scope)) :
    Keeps Context.WellFormed (updateScope update) :=
  .getThen fun context wellFormed =>
    .andThen (ofExcept_wellFormed (kept context.scope wellFormed.scope)) fun _ =>
      setScope_wellFormed

theorem setConstant_wellFormed (name : String) {value : Value} (wellFormed : value.WellFormed)
    (line : Nat) : Keeps Context.WellFormed
      (updateScope fun scope => scope.setConstant name value line) :=
  updateScope_wellFormed fun _ before => before.setConstant name wellFormed line

theorem emit_wellFormed {event : Event} (wellFormed : event.WellFormed) :
    Keeps Context.WellFormed (emit event) :=
  .modify fun _ before =>
    { before with log := List.forall_mem_cons.mpr ⟨wellFormed, before.log⟩ }

theorem bindArguments_wellFormed (names : List String) {values : List Value}
    (wellFormed : ∀ value ∈ values, value.WellFormed) :
    Keeps Context.WellFormed (bindArguments names values) := by
  induction names generalizing values with
  | nil => exact .done trivial
  | cons name names ih =>
    cases values with
    | nil => exact .done trivial
    | cons value values =>
      rw [List.forall_mem_cons] at wellFormed
      exact .getThen fun context before =>
        .andThen (setScope_wellFormed (before.scope.setArgument name wellFormed.1)) fun _ _ =>
          ih wellFormed.2

theorem assignEach_wellFormed (line : Nat) (names : List String) {values : List Value}
    (wellFormed : ∀ value ∈ values, value.WellFormed) :
    Keeps Context.WellFormed (assignEach line names values) := by
  induction names generalizing values with
  | nil => exact .done trivial
  | cons name names ih =>
    cases values with
    | nil =>
      have undefined : Value.undefined.WellFormed := trivial
      exact .andThen (setConstant_wellFormed name undefined line) fun _ _ => ih wellFormed
    | cons value values =>
      rw [List.forall_mem_cons] at wellFormed
      exact .andThen (setConstant_wellFormed name wellFormed.1 line) fun _ _ => ih wellFormed.2

theorem drawFigures_wellFormed (label : Option String) {figures : List Figure}
    (wellFormed : ∀ f ∈ figures, f.WellFormed) :
    Keeps Context.WellFormed (drawFigures label figures) := by
  induction figures with
  | nil => exact .done trivial
  | cons first rest ih =>
    rw [List.forall_mem_cons] at wellFormed
    exact .getThen fun _ _ => .andThen (emit_wellFormed wellFormed.1) fun _ _ => ih wellFormed.2

theorem drawValue_wellFormed {value : Value} (wellFormed : value.WellFormed) (label : Option String)
    (line : Nat) : Keeps Context.WellFormed (drawValue value label line) := by
  refine .andThen (drawFigures_wellFormed label wellFormed.drawn) fun _ _ => ?_
  split
  · exact fail_wellFormed _ _
  · exact .done trivial

theorem print_wellFormed (text : String) :
    Keeps Context.WellFormed (print text) := by
  refine .getThen fun context _ => ?_
  split
  · exact .throw _
  · exact emit_wellFormed trivial

theorem randomValue_wellFormed (kind : FigureKind) (isSequence : Bool) :
    Ensures Context.WellFormed Value.WellFormed (randomValue kind isSequence) := by
  refine draw_wellFormed ?_
  cases isSequence with
  | true =>
    exact .lift (.map _ (Library.sequence_steady kind)) (fun _ _ kept => kept.wellFormed)
      (.map (Library.sequence_returns kind) fun _ drawn => drawn.1)
  | false =>
    exact .lift (.map _ (Library.figure_steady kind)) (fun _ _ kept => kept.wellFormed)
      (.map (Library.figure_returns kind) fun _ drawn => drawn.1)

end Evaluation

def Note.WellFormed : Note → Prop
  | .gave value => value.WellFormed
  | .reached context => context.WellFormed
  | .entered caller arguments => caller.WellFormed ∧ ∀ value ∈ arguments, value.WellFormed
  | .loaded _ => True

/-- What every moment of a watched run has: a well-formed state, and such notes of the past. -/
structure Watched.WellFormed (watched : Watched) : Prop where
  context : watched.1.WellFormed
  notes : ∀ note ∈ watched.2, note.WellFormed

namespace Traced

variable {α : Type} {P : α → Prop}

theorem note_wellFormed {note : Note} (wellFormed : note.WellFormed) :
    Keeps Watched.WellFormed (Traced.note note) :=
  note_ensures fun _ _ before =>
    { before with notes := List.forall_mem_cons.mpr ⟨wellFormed, before.notes⟩ }

theorem lift_wellFormed {body : Evaluation α} (ensures : Ensures Context.WellFormed P body) :
    Ensures Watched.WellFormed P (Traced.lift body) := fun watched before =>
  have after := ensures watched.1 before.context
  ⟨⟨after.1, List.forall_mem_cons.mpr ⟨after.1, before.notes⟩⟩, after.2⟩

theorem giving_wellFormed {body : Traced Value}
    (ensures : Ensures Watched.WellFormed Value.WellFormed body) :
    Ensures Watched.WellFormed Value.WellFormed (Traced.giving body) :=
  giving_ensures (fun _ _ _ wellFormed before =>
    { before with notes := List.forall_mem_cons.mpr ⟨wellFormed, before.notes⟩ }) ensures

theorem inFrame_wellFormed {body : Traced α} (ensures : Ensures Watched.WellFormed P body) :
    Ensures Watched.WellFormed P (Traced.inFrame body) :=
  between_ensures
    (fun _ _ before =>
      { before with context := { before.context with scope := before.context.scope.enter } })
    (fun _ _ before =>
      { before with context := { before.context with scope := before.context.scope.exit } })
    ensures

theorem inCall_wellFormed {body : Traced α} (ensures : Ensures Watched.WellFormed P body) :
    Ensures Watched.WellFormed P (Traced.inCall body) :=
  between_ensures (fun _ _ before => { before with context := { before.context with } })
    (fun _ _ before => { before with context := { before.context with } }) ensures

end Traced

/-- The ways out of a tree keep a run well formed, if what they evaluate could have been written. -/
structure Ways.WellFormed (ways : Ways) : Prop where
  body : ∀ context evalBody, ways.body? context = some evalBody →
    ∀ body : Expr, body.isCanonical = true →
      Ensures Watched.WellFormed Value.WellFormed (evalBody body)
  program : ∀ program : Program, Statement.allCanonical program = true →
    Keeps Watched.WellFormed (ways.program program)

namespace Traced

variable {ways : Ways} (sound : ways.WellFormed)

include sound

theorem callDeclared_wellFormed (name : String) {arguments : List Value}
    (wellFormed : ∀ value ∈ arguments, value.WellFormed) (line : Nat) :
    Ensures Watched.WellFormed Value.WellFormed
      (Traced.callDeclared ways name arguments line) := by
  refine .getThen fun ⟨context, notes⟩ seen => ?_
  dsimp only
  split
  · exact lift_wellFormed (fail_wellFormed _ _)
  · rename_i function found
    split
    · exact lift_wellFormed (fail_wellFormed _ _)
    · split
      · exact lift_wellFormed (fail_wellFormed _ _)
      · rename_i evalBody entered
        have canonical := seen.context.scope.function? found
        have bound := bindArguments_wellFormed function.parameters wellFormed
        refine .andThen (note_wellFormed ⟨seen.context, wellFormed⟩) fun _ _ => ?_
        exact inCall_wellFormed <| inFrame_wellFormed <| .andThen (lift_wellFormed bound) fun _ _ =>
          sound.body context evalBody entered function.body canonical

theorem call_wellFormed (name : String) {arguments : List Value}
    (wellFormed : ∀ value ∈ arguments, value.WellFormed) (line : Nat) :
    Ensures Watched.WellFormed Value.WellFormed (Traced.call ways name arguments line) := by
  unfold Traced.call
  split
  · exact lift_wellFormed (draw_wellFormed (Builtin.apply_wellFormed _ wellFormed line))
  · exact callDeclared_wellFormed sound name wellFormed line

theorem importFile_wellFormed (path : String) (line : Nat) :
    Keeps Watched.WellFormed (Traced.importFile ways path line) := by
  refine .getThen fun ⟨context, notes⟩ _ => ?_
  dsimp only
  split
  · exact lift_wellFormed (fail_wellFormed _ _)
  · split
    · exact .done trivial
    · split
      · exact lift_wellFormed (fail_wellFormed _ _)
      · refine .andThen (note_wellFormed trivial) fun _ _ => ?_
        refine .andThen (lift_wellFormed (.modify fun _ before => { before with })) fun _ _ => ?_
        split
        · exact lift_wellFormed (fail_wellFormed _ _)
        · split
          · exact lift_wellFormed (fail_wellFormed _ _)
          · refine .andThen (sound.program _ (Parse.ofTokens_canonical _ _)) fun errors _ => ?_
            split
            · exact lift_wellFormed (fail_wellFormed _ _)
            · exact .done trivial

end Traced

open Traced

theorem Value.wellFormed_of_mem_none : ∀ value ∈ (none : Option Value), value.WellFormed :=
  fun _ absent => nomatch absent

-- The induction is on the tree. Only ranges ask for more than well-formed parts: their bounds are
-- those that can be written.
mutual

theorem Expr.trace_wellFormed {ways : Ways} (sound : ways.WellFormed) (e : Expr)
    (canonical : e.isCanonical = true) :
    Ensures Watched.WellFormed Value.WellFormed (e.trace ways) := by
  cases e with
  | literal value => exact giving_wellFormed (.done (by cases value <;> trivial))
  | undefined => exact giving_wellFormed (.done trivial)
  | infinite start => exact giving_wellFormed (.done (Sequence.infinite_wellFormed canonical))
  | range start finish =>
    simp only [Expr.isCanonical, Bool.and_eq_true] at canonical
    exact giving_wellFormed (.done (Sequence.range_wellFormed canonical.1 canonical.2))
  | constant name line =>
    refine giving_wellFormed (lift_wellFormed (.getThen fun _ seen => ?_))
    exact ofExcept_wellFormed (seen.scope.get name line)
  | group inner => exact giving_wellFormed (Expr.trace_wellFormed sound inner canonical)
  | unary op operand line =>
    simp only [Expr.isCanonical, Bool.and_eq_true] at canonical
    have operandSound := Expr.trace_wellFormed sound operand canonical.2
    refine giving_wellFormed (.andThen operandSound fun value _ => ?_)
    exact lift_wellFormed (ofExcept_wellFormed (op.apply_wellFormed value line))
  | binary op left right line =>
    simp only [Expr.isCanonical, Bool.and_eq_true] at canonical
    have leftSound := Expr.trace_wellFormed sound left canonical.1.2
    have rightSound := Expr.trace_wellFormed sound right canonical.2
    refine giving_wellFormed (.andThen leftSound fun _ first => .andThen rightSound fun _ second => ?_)
    exact lift_wellFormed (ofExcept_wellFormed (op.apply_wellFormed first second line))
  | conditional condition positive negative =>
    simp only [Expr.isCanonical, Bool.and_eq_true] at canonical
    have conditionSound := Expr.trace_wellFormed sound condition canonical.1.1
    refine giving_wellFormed (.andThen conditionSound fun value _ => ?_)
    refine .andThen (lift_wellFormed (ofExcept_wellFormed (.anything _))) fun chosen _ => ?_
    cases chosen with
    | true => exact Expr.trace_wellFormed sound positive canonical.1.2
    | false => exact Expr.trace_wellFormed sound negative canonical.2
  | block instructions body =>
    simp only [Expr.isCanonical, Bool.and_eq_true] at canonical
    have before := Statement.traceAll_wellFormed sound instructions canonical.1.2
    have last := Expr.trace_wellFormed sound body canonical.2
    exact giving_wellFormed (inFrame_wellFormed (.andThen before fun _ _ => last))
  | call name arguments line =>
    have argumentsSound := Expr.traceAll_wellFormed sound arguments canonical
    exact giving_wellFormed <| .andThen argumentsSound fun _ wellFormed =>
      call_wellFormed sound name wellFormed line
  | figure kind arguments line =>
    have argumentsSound := Expr.traceAll_wellFormed sound arguments canonical
    refine giving_wellFormed (.andThen argumentsSound fun _ wellFormed => ?_)
    exact lift_wellFormed (draw_wellFormed (Builtin.apply_wellFormed _ wellFormed line))
  | sequence elements line =>
    have elementsSound := Expr.traceAll_wellFormed sound elements canonical
    refine giving_wellFormed (.andThen elementsSound fun _ wellFormed => ?_)
    refine lift_wellFormed (ofExcept_wellFormed ?_)
    exact .map (Sequence.ofList_wellFormed wellFormed line) fun _ => id
termination_by structural e

theorem Expr.traceAll_wellFormed {ways : Ways} (sound : ways.WellFormed) (es : List Expr)
    (canonical : Expr.allCanonical es = true) :
    Ensures Watched.WellFormed (fun values => ∀ value ∈ values, value.WellFormed)
      (Expr.traceAll ways es) := by
  cases es with
  | nil => exact .done (List.forall_mem_nil _)
  | cons first rest =>
    simp only [Expr.allCanonical, Bool.and_eq_true] at canonical
    have firstSound := Expr.trace_wellFormed sound first canonical.1
    have restSound := Expr.traceAll_wellFormed sound rest canonical.2
    refine .andThen firstSound fun _ wellFormed => .andThen restSound fun _ others => ?_
    exact .done (List.forall_mem_cons.mpr ⟨wellFormed, others⟩)
termination_by structural es

theorem Statement.trace_wellFormed {ways : Ways} (sound : ways.WellFormed) (statement : Statement)
    (canonical : statement.isCanonical = true) :
    Ensures Watched.WellFormed (fun given => ∀ value ∈ given, value.WellFormed)
      (statement.trace ways) := by
  cases statement with
  | expression value =>
    refine .andThen (Expr.trace_wellFormed sound value canonical) fun _ wellFormed => .done ?_
    exact fun _ same => Option.some.inj same ▸ wellFormed
  | assign name value line =>
    refine .andThen (Expr.trace_wellFormed sound value canonical) fun _ wellFormed => ?_
    refine .andThen (lift_wellFormed (setConstant_wellFormed name wellFormed line)) fun _ _ => ?_
    exact .done Value.wellFormed_of_mem_none
  | assignMany names value line =>
    simp only [Statement.isCanonical, Bool.and_eq_true] at canonical
    refine .andThen (Expr.trace_wellFormed sound value canonical.2) fun value wellFormed => ?_
    have asked := ofExcept_wellFormed (wellFormed.asSequence line)
    refine .andThen (lift_wellFormed asked) fun s elements => ?_
    have taken : ∀ value ∈ s.take names.length, value.WellFormed := fun _ => elements.of_mem_take
    exact .andThen (lift_wellFormed (assignEach_wellFormed line names taken)) fun _ _ =>
      .done Value.wellFormed_of_mem_none
  | function name parameters body line =>
    simp only [Statement.isCanonical, Bool.and_eq_true] at canonical
    refine lift_wellFormed (.andThen (ofExcept_wellFormed (.anything _)) fun _ _ => ?_)
    refine .andThen (updateScope_wellFormed fun _ before => ?_) fun _ _ =>
      .done Value.wellFormed_of_mem_none
    exact before.declare canonical.2
  | importFile path line =>
    exact .andThen (importFile_wellFormed sound path line) fun _ _ =>
      .done Value.wellFormed_of_mem_none
  | draw value label line =>
    refine .andThen (Expr.trace_wellFormed sound value canonical) fun _ wellFormed => ?_
    exact .andThen (lift_wellFormed (drawValue_wellFormed wellFormed label line)) fun _ _ =>
      .done Value.wellFormed_of_mem_none
  | print value =>
    refine .andThen (Expr.trace_wellFormed sound value canonical) fun _ _ => ?_
    exact .andThen (lift_wellFormed (print_wellFormed _)) fun _ _ =>
      .done Value.wellFormed_of_mem_none
  | color color =>
    refine lift_wellFormed (.getThen fun _ seen => ?_)
    exact .andThen (setScope_wellFormed (seen.scope.pushColor color)) fun _ _ =>
      .done Value.wellFormed_of_mem_none
  | restore =>
    refine lift_wellFormed (.getThen fun _ seen => ?_)
    exact .andThen (setScope_wellFormed seen.scope.restoreColor) fun _ _ =>
      .done Value.wellFormed_of_mem_none
  | random kind isSequence name line =>
    refine .andThen (lift_wellFormed (randomValue_wellFormed kind isSequence)) fun _ wellFormed => ?_
    exact .andThen (lift_wellFormed (setConstant_wellFormed name wellFormed line)) fun _ _ =>
      .done Value.wellFormed_of_mem_none
termination_by structural statement

theorem Statement.traceAll_wellFormed {ways : Ways} (sound : ways.WellFormed)
    (instructions : List Statement) (canonical : Statement.allCanonical instructions = true) :
    Keeps Watched.WellFormed (Statement.traceAll ways instructions) := by
  cases instructions with
  | nil => exact .done trivial
  | cons first rest =>
    simp only [Statement.allCanonical, Bool.and_eq_true] at canonical
    have firstSound := Statement.trace_wellFormed sound first canonical.1
    exact .andThen firstSound fun _ _ => Statement.traceAll_wellFormed sound rest canonical.2
termination_by structural instructions

end

theorem Program.trace_wellFormed {ways : Ways} (sound : ways.WellFormed) (program : Program)
    (canonical : Statement.allCanonical program = true) :
    Ensures Watched.WellFormed (fun result => ∀ value ∈ result.1, value.WellFormed)
      (program.trace ways) := by
  induction program with
  | nil => exact .done Value.wellFormed_of_mem_none
  | cons first rest ih =>
    simp only [Statement.allCanonical, Bool.and_eq_true] at canonical
    refine .andThen (attempt_ensures (Statement.trace_wellFormed sound first canonical.1))
      fun outcome given => ?_
    refine .andThen (ih canonical.2) fun later others => ?_
    cases outcome with
    | ok value =>
      -- The value of the program is its last one, from here or from a later instruction.
      refine .done fun v chosen => ?_
      rcases Option.or_eq_some_iff.mp chosen with last | ⟨-, only⟩
      · exact others v last
      · exact given value rfl v only
    | error error => exact .done others

namespace Ways

theorem checked_wellFormed {evalBody : Expr → Traced Value}
    {program : Program → Traced (List EvalError)}
    (bodies : ∀ body : Expr, body.isCanonical = true →
      Ensures Watched.WellFormed Value.WellFormed (evalBody body))
    (programs : ∀ p : Program, Statement.allCanonical p = true →
      Keeps Watched.WellFormed (program p)) :
    (checked evalBody program).WellFormed where
  body _ _ entered body canonical := by
    obtain ⟨-, rfl⟩ := checked_body?_eq_some.mp entered
    exact bodies body canonical
  program := programs

theorem clocked_wellFormed (expired : Option String) (time : Nat) :
    (clocked expired time).WellFormed := by
  induction time with
  | zero => exact checked_wellFormed (fun _ _ => .throw _) fun _ _ => .throw _
  | succ time ih =>
    refine checked_wellFormed (fun body => body.trace_wellFormed ih) fun program canonical => ?_
    exact .andThen (program.trace_wellFormed ih canonical) fun _ _ => .done trivial

end Ways

theorem Program.watch_wellFormed (expired : Option String) (spare : Nat) {program : Program}
    (canonical : Statement.allCanonical program = true) {watched : Watched}
    (wellFormed : watched.WellFormed) :
    (program.watch expired spare watched).2.WellFormed ∧
      Gives (fun result => ∀ value ∈ result.1, value.WellFormed)
        (program.watch expired spare watched).1 :=
  program.trace_wellFormed (Ways.clocked_wellFormed expired _) canonical watched wellFormed

theorem Program.watchAll_wellFormed (expired : Option String) (spare : Nat)
    {programs : List Program}
    (canonical : ∀ program ∈ programs, Statement.allCanonical program = true) {watched : Watched}
    (wellFormed : watched.WellFormed) :
    (Program.watchAll expired spare programs watched).WellFormed := by
  induction programs generalizing watched with
  | nil => exact wellFormed
  | cons program rest ih =>
    rw [List.forall_mem_cons] at canonical
    exact ih canonical.2 (Program.watch_wellFormed expired spare canonical.1 wellFormed).1

/-- The program that can be read in a source. -/
def Program.ofSource (source : String) : Program := (parse (scan source).tokens).program

theorem Program.ofSource_canonical (source : String) :
    Statement.allCanonical (ofSource source) = true := Parse.ofTokens_canonical true _

/-- The state after running sources one after the other. -/
def Context.after (context : Context) (sources : List String) : Context :=
  (sources.map Program.ofSource).foldl (fun context program => (context.run program).2) context

/-- Whatever sources are run one after the other, with whatever files, seed and canvas, everything
they make is well formed. So is every value that an expression gives or a function is passed,
everything bound in a frame of any state on the way, every figure shown, and what a run gives. -/
theorem Context.values_wellFormed (host : Host) (settings : Settings) (files : Files)
    (sources : List String) (expired : Option String) (spare : Nat) :
    ∃ notes, Program.watchAll expired spare (sources.map Program.ofSource)
        (Context.create host settings files, []) =
          ((Context.create host settings files).after sources, notes) ∧
      (∀ note ∈ notes, note.WellFormed) ∧
      ((Context.create host settings files).after sources).WellFormed ∧
      ∀ source value errors,
        (((Context.create host settings files).after sources).run (.ofSource source)).1 =
          .ok (some value, errors) → value.WellFormed := by
  have start : Watched.WellFormed (Context.create host settings files, []) :=
    ⟨Context.create_wellFormed host settings files, List.forall_mem_nil _⟩
  have readable : ∀ program ∈ sources.map Program.ofSource, Statement.allCanonical program = true :=
    List.forall_mem_map.mpr fun source _ => Program.ofSource_canonical source
  have sound := Program.watchAll_wellFormed expired spare readable start
  have same : (Program.watchAll expired spare _ _).1 =
      (Context.create host settings files).after sources :=
    Program.watchAll_context expired spare (sources.map Program.ofSource)
      (Context.create host settings files, [])
  refine ⟨_, Prod.ext same rfl, sound.notes, same ▸ sound.context, ?_⟩
  intro source value errors given
  have last := Program.watch_wellFormed expired spare (Program.ofSource_canonical source) sound
  rw [← same, ← Program.watch_eq_run expired spare] at given
  exact last.2 _ given value rfl

end GSharp
