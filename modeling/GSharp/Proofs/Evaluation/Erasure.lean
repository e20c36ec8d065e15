import GSharp.Proofs.Evaluation.Balance
import GSharp.Proofs.Evaluation.Trace

namespace GSharp

open Context

namespace Context

/-- The number of texts that a key not imported yet leads to. -/
def pending (context : Context) : Nat :=
  context.files.texts.countP fun entry => entry.1 ∉ context.imported

/-- The calls that may still nest. -/
def callsLeft (context : Context) : Nat := context.settings.maxCallDepth - context.callDepth

theorem Extends.pending_le {before after : Context} (extended : Extends before after) :
    after.pending ≤ before.pending := by
  unfold pending
  rw [extended.files]
  refine List.countP_mono_left fun entry _ fresh => ?_
  simp only [decide_eq_true_eq] at fresh ⊢
  exact fun known => fresh (extended.imported.subset known)

theorem Extends.callsLeft_eq {before after : Context} (extended : Extends before after) :
    after.callsLeft = before.callsLeft := by
  unfold callsLeft
  rw [extended.settings, extended.callDepth]

theorem countP_lt_of_lookup {entries : List (String × String)} {imported : List String}
    {key text : String} (fresh : key ∉ imported) (read : entries.lookup key = some text) :
    entries.countP (fun entry => entry.1 ∉ key :: imported) <
      entries.countP fun entry => entry.1 ∉ imported := by
  induction entries with
  | nil => cases read
  | cons entry rest ih =>
    by_cases same : entry.1 = key
    · have fewer : rest.countP (fun entry => entry.1 ∉ key :: imported) ≤
          rest.countP fun entry => entry.1 ∉ imported :=
        List.countP_mono_left fun entry _ new => by simp_all
      rw [List.countP_cons_of_neg (by simp [same]), List.countP_cons_of_pos (by simp [same, fresh])]
      omega
    · have later : rest.lookup key = some text := by
        rw [List.lookup_cons, beq_false_of_ne (Ne.symm same)] at read
        exact read
      by_cases known : entry.1 ∈ imported
      · rw [List.countP_cons_of_neg (by simp [known]), List.countP_cons_of_neg (by simp [known])]
        exact ih later
      · rw [List.countP_cons_of_pos (by simp [known, same]),
          List.countP_cons_of_pos (by simp [known])]
        exact Nat.succ_lt_succ (ih later)

/-- A file that is read for the first time is pending no more. -/
theorem pending_imported {context : Context} {key text : String} (fresh : key ∉ context.imported)
    (read : context.files.texts.lookup key = some text) :
    pending { context with imported := key :: context.imported } < context.pending :=
  countP_lt_of_lookup fresh read

theorem Files.lookup_of_read {files : Files} {key text : String}
    (read : files.read key = .ok text) : files.texts.lookup key = some text := by
  unfold Files.read at read
  cases found : files.texts.lookup key with
  | none => simp [found] at read
  | some content => simpa [found] using read

/-- What is left to a state: as many calls, and at most so many files. -/
structure Within (files calls : Nat) (context : Context) : Prop where
  pending : context.pending ≤ files
  callsLeft : context.callsLeft = calls

theorem Within.kept {files calls : Nat} {before after : Context}
    (within : Within files calls before) (extended : Extends before after) : Within files calls after :=
  ⟨Nat.le_trans extended.pending_le within.pending, extended.callsLeft_eq.trans within.callsLeft⟩

end Context

/-- Forgetting the notes of the one gives the other, from every state that meets a condition. -/
def Erases {α : Type} (I : Context → Prop) (traced : Traced α) (body : Evaluation α) : Prop :=
  ∀ context notes, I context →
    (traced.run (context, notes)).1 = (body.run context).1 ∧
      (traced.run (context, notes)).2.1 = (body.run context).2

namespace Erases

variable {α β : Type} {I J : Context → Prop}

theorem strengthen {traced : Traced α} {body : Evaluation α} (erases : Erases J traced body)
    (weaker : ∀ context, I context → J context) : Erases I traced body :=
  fun context notes holds => erases context notes (weaker context holds)

theorem lift (body : Evaluation α) : Erases I (Traced.lift body) body :=
  fun _ _ _ => ⟨rfl, rfl⟩

theorem done (value : α) : Erases I (pure value) (pure value) := fun _ _ _ => ⟨rfl, rfl⟩

theorem noted {traced : Traced α} {body : Evaluation α} (note : Note)
    (erases : Erases I traced body) : Erases I (do Traced.note note; traced) body :=
  fun context notes holds => erases context (note :: notes) holds

/-- What follows a look at the state may rely on the state seen. -/
theorem getThen {next : Context → Traced α} {next' : Context → Evaluation α}
    (erases : ∀ seen, I seen → Erases (· = seen) (next seen) (next' seen)) :
    Erases I (do let (context, _) ← get; next context) (do let context ← get; next' context) :=
  fun context notes holds => erases context holds context notes rfl

theorem andThen {first : Traced α} {first' : Evaluation α} {next : α → Traced β}
    {next' : α → Evaluation β} (start : Erases I first first')
    (kept : ∀ context, I context → J (first'.run context).2)
    (rest : ∀ value, Erases J (next value) (next' value)) :
    Erases I (first >>= next) (first' >>= next') := by
  intro context notes holds
  obtain ⟨result, state⟩ := start context notes holds
  have holdsAfter := kept context holds
  change
    (ExceptT.bindCont next (first.run (context, notes)).1 (first.run (context, notes)).2).1 =
      (ExceptT.bindCont next' (first'.run context).1 (first'.run context).2).1 ∧
    (ExceptT.bindCont next (first.run (context, notes)).1 (first.run (context, notes)).2).2.1 =
      (ExceptT.bindCont next' (first'.run context).1 (first'.run context).2).2
  rw [result]
  cases (first'.run context).1 with
  | error stop => exact ⟨rfl, state⟩
  | ok value =>
    have := rest value (first'.run context).2 (first.run (context, notes)).2.2 holdsAfter
    rw [← state] at this ⊢
    exact this

theorem giving {traced : Traced Value} {body : Evaluation Value} (erases : Erases I traced body) :
    Erases I (Traced.giving traced) body := by
  have same : Erases I (traced >>= fun value => do Traced.note (.gave value); return value)
      (body >>= pure) :=
    .andThen (J := fun _ => True) erases (fun _ _ => trivial) fun value => .noted _ (.done value)
  rwa [bind_pure] at same

theorem attempt {traced : Traced α} {body : Evaluation α} (erases : Erases I traced body) :
    Erases I (Traced.attempt traced) (Evaluation.attempt body) := by
  intro context notes holds
  obtain ⟨result, state⟩ := erases context notes holds
  simp only [ExceptT.run] at result state
  simp only [ExceptT.run, Traced.attempt, Evaluation.attempt]
  rcases outcome : traced (context, notes) with ⟨ended, after, noted⟩
  rcases outcome' : body context with ⟨ended', after'⟩
  rw [outcome, outcome'] at result state
  subst result state
  rcases ended with (_ | _) | _ <;> exact ⟨rfl, rfl⟩

section Between

variable {traced : Traced α} {body : Evaluation α}

theorem inFrame (erases : Erases J traced body)
    (entered : ∀ context, I context → J { context with scope := context.scope.enter }) :
    Erases I (Traced.inFrame traced) (Evaluation.inFrame body) := by
  intro context notes holds
  obtain ⟨result, state⟩ := erases _ notes (entered context holds)
  exact ⟨result, congrArg (fun after => { after with scope := after.scope.exit }) state⟩

theorem inCall (erases : Erases J traced body)
    (entered : ∀ context, I context → J { context with callDepth := context.callDepth + 1 }) :
    Erases I (Traced.inCall traced) (Evaluation.inCall body) := by
  intro context notes holds
  obtain ⟨result, state⟩ := erases _ notes (entered context holds)
  exact ⟨result, congrArg (fun after => { after with callDepth := after.callDepth - 1 }) state⟩

end Between

end Erases

open Evaluation

/-- Ways and a way out lead to the same, where so many files and calls are left. -/
structure Simulates (ways : Ways) (beyond : Beyond) (files calls : Nat) : Prop where
  balanced : beyond.Balanced
  body : ∀ context, Within files calls context →
    Option.Rel (fun evalBody evalBody' => ∀ body,
      Erases (Within files (calls - 1)) (evalBody body) (evalBody' body))
      (ways.body? context) beyond.body?
  program : ∀ program, Erases (fun context => context.pending < files ∧ Within files calls context)
    (ways.program program) (beyond.program program)

section Simulated

variable {ways : Ways} {beyond : Beyond} {files calls : Nat}

/-- What follows a step that keeps what every instruction keeps has as much left. -/
theorem Erases.extending {α β : Type} {first : Traced α} {first' : Evaluation α}
    {next : α → Traced β} {next' : α → Evaluation β}
    (start : Erases (Within files calls) first first') (extended : Preserves Extends first'.run)
    (rest : ∀ value, Erases (Within files calls) (next value) (next' value)) :
    Erases (Within files calls) (first >>= next) (first' >>= next') :=
  .andThen start (fun context within => within.kept (extended context)) rest

theorem Context.Within.called {context : Context} (within : Within files calls context) :
    Within files (calls - 1) { context with callDepth := context.callDepth + 1 } :=
  ⟨within.pending, by rw [← within.callsLeft]; exact Nat.sub_succ ..⟩

variable (simulates : Simulates ways beyond files calls)

include simulates

theorem Simulates.expr (e : Expr) : Preserves Extends (e.eval beyond).run :=
  extends_of_balanced (Expr.eval_balanced simulates.balanced e)

theorem Simulates.exprs (es : List Expr) : Preserves Extends (Expr.evalAll beyond es).run :=
  extends_of_balanced (Expr.evalAll_balanced simulates.balanced es)

theorem callDeclared_erases (name : String) (arguments : List Value) (line : Nat) :
    Erases (Within files calls) (Traced.callDeclared ways name arguments line)
      (callDeclared beyond name arguments line) := by
  refine .getThen fun context within => ?_
  cases context.scope.function? name with
  | none => exact .lift _
  | some function =>
    by_cases mismatch : arguments.length ≠ function.parameters.length
    · simp only [if_pos mismatch]
      exact .lift _
    · simp only [if_neg mismatch]
      have entries := simulates.body context within
      revert entries
      cases ways.body? context <;> cases beyond.body? <;> intro entries
      case none.none => exact .lift _
      case some.some evalBody evalBody' =>
        have erases := Option.rel_some_some.mp entries function.body
        have bound : Erases (Within files (calls - 1))
            (do
              Traced.lift (bindArguments function.parameters arguments)
              evalBody function.body)
            (do
              bindArguments function.parameters arguments
              evalBody' function.body) :=
          .extending (.lift _) (bindArguments_extends _ _) fun _ => erases
        have framed : Erases (Within files (calls - 1)) (Traced.inFrame _) (inFrame _) :=
          bound.inFrame fun _ within => ⟨within.pending, within.callsLeft⟩
        refine .noted _ (framed.inCall ?_)
        rintro _ rfl
        exact within.called
      all_goals cases entries

theorem call_erases (name : String) (arguments : List Value) (line : Nat) :
    Erases (Within files calls) (Traced.call ways name arguments line)
      (call beyond name arguments line) := by
  unfold Traced.call call
  cases Builtin.ofName? name with
  | some builtin => exact .lift _
  | none => exact callDeclared_erases simulates name arguments line

/-- A file is run only if it was pending before, so there is a file less to come inside it. -/
theorem importFile_erases (path : String) (line : Nat) :
    Erases (Within files calls) (Traced.importFile ways path line)
      (importFile beyond path line) := by
  refine .getThen fun context within => ?_
  cases context.files.resolve path with
  | error fault => exact .lift _
  | ok key =>
    by_cases known : key ∈ context.imported
    · simp only [if_pos known]
      exact .done _
    · simp only [if_neg known]
      cases read : context.files.read key with
      | error fault => exact .lift _
      | ok source =>
        have fewer : pending { context with imported := key :: context.imported } < files :=
          Nat.lt_of_lt_of_le (pending_imported known (Files.lookup_of_read read)) within.pending
        refine .noted _ (.andThen (J := fun context => context.pending < files ∧
          Within files calls context) (.lift _) ?_ fun _ => ?_)
        · rintro _ rfl
          exact ⟨fewer, Nat.le_of_lt fewer, within.callsLeft⟩
        · split
          · exact .lift _
          · split
            · exact .lift _
            · refine .andThen (J := fun _ => True) (simulates.program _) (fun _ _ => trivial)
                fun errors => ?_
              split
              · exact .lift _
              · exact .done _

end Simulated

-- The induction is on the tree. That the state after a step has as much left is known from what
-- evaluation keeps.
mutual

theorem Expr.trace_erases {ways : Ways} {beyond : Beyond} {files calls : Nat}
    (simulates : Simulates ways beyond files calls) (e : Expr) :
    Erases (Within files calls) (e.trace ways) (e.eval beyond) := by
  cases e with
  | literal | undefined | infinite | range => exact .giving (.done _)
  | constant => exact .giving (.lift _)
  | group inner => exact .giving (Expr.trace_erases simulates inner)
  | unary op operand =>
    have erases := Expr.trace_erases simulates operand
    exact .giving (.extending erases (simulates.expr operand) fun _ => .lift _)
  | binary op left right =>
    have leftErases := Expr.trace_erases simulates left
    have rightErases := Expr.trace_erases simulates right
    refine .giving (.extending leftErases (simulates.expr left) fun _ => ?_)
    exact .extending rightErases (simulates.expr right) fun _ => .lift _
  | conditional condition positive negative =>
    have erases := Expr.trace_erases simulates condition
    refine .giving (.extending erases (simulates.expr condition) fun value => ?_)
    refine .extending (.lift _) (ofExcept_preserves _) fun chosen => ?_
    cases chosen with
    | true => exact Expr.trace_erases simulates positive
    | false => exact Expr.trace_erases simulates negative
  | block instructions body =>
    have before := Statement.traceAll_erases simulates instructions
    have last := Expr.trace_erases simulates body
    have extended := Statement.evalAll_extends simulates.balanced instructions
    refine .giving (.inFrame (.extending before extended fun _ => last) fun _ within => ?_)
    exact ⟨within.pending, within.callsLeft⟩
  | call name arguments line =>
    have erases := Expr.traceAll_erases simulates arguments
    refine .giving (.extending erases (simulates.exprs arguments) fun values => ?_)
    exact call_erases simulates name values line
  | figure kind arguments =>
    have erases := Expr.traceAll_erases simulates arguments
    exact .giving (.extending erases (simulates.exprs arguments) fun _ => .lift _)
  | sequence elements =>
    have erases := Expr.traceAll_erases simulates elements
    exact .giving (.extending erases (simulates.exprs elements) fun _ => .lift _)
termination_by structural e

theorem Expr.traceAll_erases {ways : Ways} {beyond : Beyond} {files calls : Nat}
    (simulates : Simulates ways beyond files calls) (es : List Expr) :
    Erases (Within files calls) (Expr.traceAll ways es) (Expr.evalAll beyond es) := by
  cases es with
  | nil => exact .done _
  | cons first rest =>
    have firstErases := Expr.trace_erases simulates first
    have restErases := Expr.traceAll_erases simulates rest
    refine .extending firstErases (simulates.expr first) fun _ => ?_
    exact .extending restErases (simulates.exprs rest) fun _ => .done _
termination_by structural es

theorem Statement.trace_erases {ways : Ways} {beyond : Beyond} {files calls : Nat}
    (simulates : Simulates ways beyond files calls) (statement : Statement) :
    Erases (Within files calls) (statement.trace ways) (statement.eval beyond) := by
  cases statement with
  | function | color | restore => exact .lift _
  | expression value =>
    have erases := Expr.trace_erases simulates value
    exact .extending erases (simulates.expr value) fun _ => .done _
  | assign name value line =>
    have erases := Expr.trace_erases simulates value
    refine .extending erases (simulates.expr value) fun _ => ?_
    exact .extending (.lift _) (setConstant_extends name _ line) fun _ => .done _
  | assignMany names value line =>
    have erases := Expr.trace_erases simulates value
    refine .extending erases (simulates.expr value) fun _ => ?_
    refine .extending (.lift _) (ofExcept_preserves _) fun _ => ?_
    exact .extending (.lift _) (assignEach_extends line names _) fun _ => .done _
  | importFile path line =>
    have extended := importFile_extends simulates.balanced path line
    exact .extending (importFile_erases simulates path line) extended fun _ => .done _
  | draw value label line =>
    have erases := Expr.trace_erases simulates value
    refine .extending erases (simulates.expr value) fun value => ?_
    have extended := extends_of_balanced (drawValue_balanced value label line)
    exact .extending (.lift _) extended fun _ => .done _
  | print value =>
    have erases := Expr.trace_erases simulates value
    refine .extending erases (simulates.expr value) fun _ => ?_
    exact .extending (.lift _) (extends_of_balanced (print_balanced _)) fun _ => .done _
  | random kind isSequence name line =>
    have extended := extends_of_balanced (randomValue_balanced kind isSequence)
    refine .extending (.lift _) extended fun _ => ?_
    exact .extending (.lift _) (setConstant_extends name _ line) fun _ => .done _
termination_by structural statement

theorem Statement.traceAll_erases {ways : Ways} {beyond : Beyond} {files calls : Nat}
    (simulates : Simulates ways beyond files calls) (instructions : List Statement) :
    Erases (Within files calls) (Statement.traceAll ways instructions)
      (Statement.evalAll beyond instructions) := by
  cases instructions with
  | nil => exact .done _
  | cons first rest =>
    have firstErases := Statement.trace_erases simulates first
    have extended := Statement.eval_extends simulates.balanced first
    exact .extending firstErases extended fun _ => Statement.traceAll_erases simulates rest
termination_by structural instructions

end

theorem Program.trace_erases {ways : Ways} {beyond : Beyond} {files calls : Nat}
    (simulates : Simulates ways beyond files calls) (program : Program) :
    Erases (Within files calls) (program.trace ways) (program.eval beyond) := by
  induction program with
  | nil => exact .done _
  | cons first rest ih =>
    refine .extending (.attempt (first.trace_erases simulates))
      (attempt_preserves (Statement.eval_extends simulates.balanced first)) fun outcome => ?_
    refine .extending ih (Program.eval_extends simulates.balanced rest) fun later => ?_
    cases outcome <;> exact .done _

namespace Beyond

theorem ofBounds_body?_zero (files : Nat) : (ofBounds files 0).body? = none := by
  cases files <;> rfl

theorem ofBounds_body?_succ (files calls : Nat) : (ofBounds files (calls + 1)).body? =
    some fun body => body.eval (ofBounds files calls) := by
  cases files <;> rfl

theorem ofBounds_program_succ (files calls : Nat) : (ofBounds (files + 1) calls).program =
    fun program => do return (← program.eval (ofBounds files calls)).2 := by
  cases calls <;> rfl

end Beyond

namespace Ways

variable {evalBody : Expr → Traced Value} {program : Program → Traced (List EvalError)}
  {files calls : Nat}

theorem checked_body?_eq_some {context : Context} {entered : Expr → Traced Value} :
    (checked evalBody program).body? context = some entered ↔
      context.callDepth < context.settings.maxCallDepth ∧ evalBody = entered := by
  unfold checked
  exact Option.ite_none_right_eq_some.trans (and_congr_right fun _ => Option.some_inj)

theorem checked_body?_of_none (context : Context) (left : context.callsLeft = 0) :
    (checked evalBody program).body? context = none :=
  if_neg (Nat.not_lt.mpr (Nat.le_of_sub_eq_zero left))

theorem checked_body?_of_some (context : Context) (left : context.callsLeft = calls + 1) :
    (checked evalBody program).body? context = some evalBody := by
  have room : 0 < context.settings.maxCallDepth - context.callDepth :=
    lt_of_lt_of_eq (Nat.succ_pos calls) left.symm
  exact if_pos (Nat.lt_of_sub_pos room)

/-- The check before a body lets through as many calls as are left, and the imports that are
repeated need no file at all. -/
theorem checked_simulates
    (bodies : ∀ fewer, calls = fewer + 1 → ∀ body : Expr,
      Erases (Within files fewer) (evalBody body) (body.eval (.ofBounds files fewer)))
    (programs : ∀ fewer, files = fewer + 1 → ∀ p : Program,
      Erases (Within fewer calls) (program p) do return (← p.eval (.ofBounds fewer calls)).2) :
    Simulates (checked evalBody program) (.ofBounds files calls) files calls where
  balanced := Beyond.ofBounds_balanced files calls
  body context within := by
    cases calls with
    | zero =>
      rw [checked_body?_of_none context within.callsLeft, Beyond.ofBounds_body?_zero]
      exact .none
    | succ fewer =>
      rw [checked_body?_of_some context within.callsLeft, Beyond.ofBounds_body?_succ]
      exact .some (bodies fewer rfl)
  program p := by
    cases files with
    | zero => exact fun _ _ left => absurd left.1 (Nat.not_lt_zero _)
    | succ fewer =>
      rw [Beyond.ofBounds_program_succ]
      exact (programs fewer rfl p).strengthen fun _ left =>
        ⟨Nat.le_of_lt_succ left.1, left.2.callsLeft⟩

/-- Each body takes a call and each file takes a file, so a tick for every one of them is enough. -/
theorem clocked_simulates (expired : Option String) {time : Nat} (enough : files + calls ≤ time) :
    Simulates (.clocked expired time) (.ofBounds files calls) files calls := by
  induction time generalizing files calls with
  | zero => exact checked_simulates (fun _ _ => by omega) fun _ _ => by omega
  | succ time ih =>
    refine checked_simulates (fun fewer same body => ?_) fun fewer same p => ?_
    · exact body.trace_erases (ih (by omega))
    · exact .extending (p.trace_erases (ih (by omega)))
        (Program.eval_extends (Beyond.ofBounds_balanced fewer calls) p) fun _ => .done _

end Ways

/-- The bodies and files that can be entered inside one another from a state on. -/
def Context.nesting (context : Context) : Nat := context.files.texts.length + context.callsLeft

theorem Context.within_nesting (context : Context) :
    context.Within context.files.texts.length context.callsLeft :=
  ⟨List.countP_le_length, rfl⟩

/-- A run that takes notes, by a clock with time for all that can nest, and some time to spare. -/
def Program.watch (expired : Option String) (spare : Nat) (program : Program) (watched : Watched) :
    Except Stop (Option Value × List EvalError) × Watched :=
  (program.trace (.clocked expired (watched.1.nesting + spare))).run watched

/-- The notes are all that a watched run adds, and no clock that is set to the nesting runs out. -/
theorem Program.watch_eq_run (expired : Option String) (spare : Nat) (program : Program)
    (watched : Watched) :
    ((program.watch expired spare watched).1, (program.watch expired spare watched).2.1) =
      watched.1.run program := by
  obtain ⟨context, notes⟩ := watched
  have simulates : Simulates (.clocked expired (context.nesting + spare)) context.beyond
      context.files.texts.length context.callsLeft :=
    Ways.clocked_simulates expired (Nat.le_add_right ..)
  have ⟨result, state⟩ := program.trace_erases simulates context notes context.within_nesting
  exact Prod.ext result state

/-- Watches programs that are run one after the other. -/
def Program.watchAll (expired : Option String) (spare : Nat) : List Program → Watched → Watched
  | [], watched => watched
  | program :: rest, watched => watchAll expired spare rest (program.watch expired spare watched).2

theorem Program.watchAll_context (expired : Option String) (spare : Nat) (programs : List Program)
    (watched : Watched) :
    (Program.watchAll expired spare programs watched).1 =
      programs.foldl (fun context program => (context.run program).2) watched.1 := by
  induction programs generalizing watched with
  | nil => rfl
  | cons program rest ih =>
    rw [watchAll, ih, List.foldl_cons, ← watch_eq_run expired spare]

end GSharp
