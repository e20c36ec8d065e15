import GSharp.Proofs.Evaluation.Termination
import GSharp.Proofs.Scope.Permanence

namespace GSharp

open Context Evaluation

namespace Context

/-- The scope stays settled at its depth, and its outermost frame loses nothing. -/
abbrev Advances (depth : Nat) (before after : Context) : Prop :=
  before.scope.Advances depth after.scope

instance (depth : Nat) : IsPreorder Context (Advances depth) where
  refl context := refl_of (Scope.Advances depth) context.scope
  trans _ _ _ first second := trans_of (Scope.Advances depth) first second

end Context

namespace Evaluation

variable {α : Type} {depth : Nat}

theorem advances_of_balanced {body : Evaluation α} (balanced : Preserves Balanced body.run) :
    Preserves (Advances depth) body.run :=
  balanced.weaken fun _ _ kept => Scope.advances_of_frames depth kept.active kept.toExtends.outer

theorem updateScope_advances {update : Scope → Except EvalError Scope}
    (advances : ∀ scope after, scope.Settled depth → update scope = .ok after →
      scope.Advances depth after) : Preserves (Advances depth) (updateScope update).run := by
  refine .getThen fun context => ?_
  cases updated : update context.scope with
  | error error => exact refl_of (Advances depth) context
  | ok after =>
    exact
      { settled := fun settled => (advances _ _ settled updated).settled settled
        retains := fun settled => (advances _ _ settled updated).retains settled }

theorem setConstant_advances (name : String) (value : Value) (line : Nat) :
    Preserves (Advances depth)
      (updateScope fun scope => scope.setConstant name value line).run :=
  updateScope_advances fun _ _ settled => settled.setConstant

theorem bindArguments_advances (names : List String) (values : List Value) :
    Preserves (Advances (depth + 1)) (bindArguments names values).run := by
  induction names generalizing values with
  | nil => exact .done _
  | cons name names ih =>
    cases values with
    | nil => exact .done _
    | cons value values =>
      have bound : Preserves (Advances (depth + 1))
          (do setScope ((← get).scope.setArgument name value) : Evaluation Unit).run :=
        .getThen fun context =>
          { settled := fun settled => (settled.setArgument name value).settled settled
            retains := fun settled => (settled.setArgument name value).retains settled }
      rw [bindArguments, ← bind_assoc]
      exact .andThen bound fun _ => ih values

/-- A declaration that comes through the check is of no built-in name. -/
theorem declare_advances (function : FunctionDef) (line : Nat) :
    Preserves (Advances depth) (do
      ofExcept (Builtin.checkName function.name line)
      updateScope fun scope => scope.declare function
      return none : Evaluation (Option Value)).run := by
  cases taken : Builtin.ofName? function.name with
  | some builtin =>
    rw [Builtin.checkName, taken]
    exact .throw _
  | none =>
    rw [Builtin.checkName, taken]
    exact .andThen (.done _) fun _ =>
      .andThen (updateScope_advances fun _ _ settled => settled.declare taken) fun _ => .done _

end Evaluation

/-- The state that a note is about. -/
def Note.state? : Note → Option Context
  | .reached context => some context
  | .entered caller _ => some caller
  | _ => none

/-- The states on the way, the latest first. -/
def statesSeen (notes : List Note) : List Context := notes.filterMap Note.state?

/-- What holds at every moment: the scope is settled, so were all scopes on the way, and none of the
outermost frames has lost what was there at the start or earlier on the way. -/
structure Permanent (start : Frame) (depth : Nat) (watched : Watched) : Prop where
  settled : watched.1.scope.Settled depth
  retains : start.Retains watched.1.scope.root
  seen : ∀ context ∈ statesSeen watched.2, ∃ depth, context.scope.Settled depth
  ordered : (watched.1 :: statesSeen watched.2).Pairwise fun later earlier =>
    earlier.scope.root.Retains later.scope.root

section Steps

variable {α : Type} {P : α → Prop} {start : Frame} {depth depth' : Nat}

namespace Permanent

variable {before after context : Context} {notes : List Note}

/-- A step to another settled scope, if its outermost frame has lost nothing. -/
theorem move (permanent : Permanent start depth (before, notes))
    (settled : after.scope.Settled depth')
    (kept : before.scope.root.Retains after.scope.root) :
    Permanent start depth' (after, notes) where
  settled := settled
  retains := trans_of Frame.Retains permanent.retains kept
  seen := permanent.seen
  ordered := by
    obtain ⟨latest, earlier⟩ := List.pairwise_cons.mp permanent.ordered
    refine List.pairwise_cons.mpr ⟨fun context seen => ?_, earlier⟩
    exact trans_of Frame.Retains (latest context seen) kept

theorem advance (permanent : Permanent start depth (before, notes))
    (advances : before.Advances depth after) : Permanent start depth (after, notes) :=
  permanent.move (advances.settled permanent.settled) (advances.retains permanent.settled)

theorem note {note : Note} (permanent : Permanent start depth (context, notes))
    (present : ∀ state ∈ note.state?, state = context) :
    Permanent start depth (context, note :: notes) := by
  cases about : note.state? with
  | none =>
    have same : statesSeen (note :: notes) = statesSeen notes := List.filterMap_cons_none about
    exact { permanent with seen := same ▸ permanent.seen, ordered := same ▸ permanent.ordered }
  | some state =>
    obtain rfl := present state about
    have more : statesSeen (note :: notes) = state :: statesSeen notes :=
      List.filterMap_cons_some about
    have latest := (List.pairwise_cons.mp permanent.ordered).1
    exact
      { permanent with
        seen := more ▸
          List.forall_mem_cons.mpr ⟨⟨depth, permanent.settled⟩, permanent.seen⟩
        ordered := more ▸ List.pairwise_cons.mpr
          ⟨List.forall_mem_cons.mpr ⟨refl_of Frame.Retains _, latest⟩, permanent.ordered⟩ }

end Permanent

theorem lift_permanent {body : Evaluation α} (advances : Preserves (Advances depth) body.run) :
    Keeps (Permanent start depth) (Traced.lift body) := fun watched permanent =>
  ⟨(permanent.advance (advances watched.1)).note fun _ same => (Option.some.inj same).symm,
    .anything _⟩

theorem inCall_permanent {body : Traced α} (kept : Keeps (Permanent start depth) body) :
    Keeps (Permanent start depth) (Traced.inCall body) :=
  Traced.between_ensures
    (fun _ _ permanent => permanent.move permanent.settled (refl_of Frame.Retains _))
    (fun _ _ permanent => permanent.move permanent.settled (refl_of Frame.Retains _)) kept

/-- Inside a frame there is one more of them, and the outermost one is the same. -/
theorem inFrame_permanent {body : Traced α} (kept : Keeps (Permanent start (depth + 1)) body) :
    Keeps (Permanent start depth) (Traced.inFrame body) := by
  intro (context, notes) permanent
  let opened : Context := { context with scope := context.scope.enter }
  have entered : context.scope.root.Retains opened.scope.root := by
    rw [show opened.scope.root = context.scope.root from Scope.enter_root _]
    exact refl_of Frame.Retains _
  obtain ⟨inside, -⟩ := kept (opened, notes) (permanent.move permanent.settled.enter entered)
  obtain ⟨settled, same⟩ := inside.settled.exit
  exact ⟨inside.move settled (same ▸ refl_of Frame.Retains _), .anything _⟩

end Steps

/-- The ways out of a tree do not lose a name either, however deep they are taken. -/
structure Ways.Lasting (ways : Ways) (start : Frame) : Prop where
  body : ∀ context evalBody, ways.body? context = some evalBody →
    ∀ depth body, Keeps (Permanent start depth) (evalBody body)
  program : ∀ depth program, Keeps (Permanent start depth) (ways.program program)

namespace Traced

variable {ways : Ways} {start : Frame} (lasting : ways.Lasting start) {depth : Nat}

include lasting

theorem callDeclared_permanent (name : String) (arguments : List Value) (line : Nat) :
    Keeps (Permanent start depth) (Traced.callDeclared ways name arguments line) := by
  refine .getThenFrom fun ⟨context, notes⟩ permanent => ?_
  dsimp only
  split
  · exact lift_permanent (fail_preserves _ _) _ permanent
  · rename_i function _
    split
    · exact lift_permanent (fail_preserves _ _) _ permanent
    · split
      · exact lift_permanent (fail_preserves _ _) _ permanent
      · rename_i evalBody entered
        have bound : Keeps (Permanent start (depth + 1)) _ :=
          lift_permanent (bindArguments_advances function.parameters arguments)
        have body := lasting.body context evalBody entered (depth + 1) function.body
        have called : Keeps (Permanent start depth) _ :=
          inCall_permanent (inFrame_permanent (.andThen bound fun _ _ => body))
        have noted : Permanent start depth (context, .entered context arguments :: notes) :=
          permanent.note fun _ same => (Option.some.inj same).symm
        exact called _ noted

theorem call_permanent (name : String) (arguments : List Value) (line : Nat) :
    Keeps (Permanent start depth) (Traced.call ways name arguments line) := by
  unfold Traced.call
  split
  · exact lift_permanent (advances_of_balanced (draw_balanced (Builtin.apply_steady _ _ _)))
  · exact callDeclared_permanent lasting name arguments line

theorem importFile_permanent (path : String) (line : Nat) :
    Keeps (Permanent start depth) (Traced.importFile ways path line) := by
  refine .getThen fun ⟨context, notes⟩ _ => ?_
  dsimp only
  split
  · exact lift_permanent (fail_preserves _ _)
  · split
    · exact .done trivial
    · split
      · exact lift_permanent (fail_preserves _ _)
      · refine .andThen (note_ensures fun _ _ permanent => permanent.note nofun) fun _ _ => ?_
        refine .andThen (lift_permanent (.modify fun context => ?_)) fun _ _ => ?_
        · exact refl_of (Scope.Advances depth) context.scope
        split
        · exact lift_permanent (fail_preserves _ _)
        · split
          · exact lift_permanent (fail_preserves _ _)
          · refine .andThen (lasting.program depth _) fun errors _ => ?_
            split
            · exact lift_permanent (fail_preserves _ _)
            · exact .done trivial

end Traced

open Traced

theorem Ways.Lasting.upholds {ways : Ways} {start : Frame} (lasting : ways.Lasting start) :
    ways.Upholds Advances (Permanent start) where
  preorder _ := inferInstance
  balanced depth _ _ kept := Scope.advances_of_frames depth kept.active kept.toExtends.outer
  constant _ := setConstant_advances
  function _ := declare_advances
  lift := lift_permanent
  gave _ _ _ _ permanent := permanent.note nofun
  inFrame := inFrame_permanent
  call _ := call_permanent lasting
  importFile _ := importFile_permanent lasting

namespace Ways

variable {start : Frame}

theorem checked_lasting {evalBody : Expr → Traced Value}
    {program : Program → Traced (List EvalError)}
    (bodies : ∀ depth body, Keeps (Permanent start depth) (evalBody body))
    (programs : ∀ depth p, Keeps (Permanent start depth) (program p)) :
    (checked evalBody program).Lasting start where
  body _ _ entered := by
    obtain ⟨-, rfl⟩ := checked_body?_eq_some.mp entered
    exact bodies
  program := programs

theorem clocked_lasting (expired : Option String) (time : Nat) :
    (clocked expired time).Lasting start := by
  induction time with
  | zero => exact checked_lasting (fun _ _ => .throw _) fun _ _ => .throw _
  | succ time ih =>
    exact checked_lasting (fun depth body => body.trace_keeps ih.upholds depth) fun depth program =>
      .andThen (program.trace_keeps ih.upholds depth) fun _ _ => .done trivial

end Ways

theorem Program.watch_permanent (expired : Option String) (spare : Nat) (program : Program)
    {start : Frame} {depth : Nat} {watched : Watched} (permanent : Permanent start depth watched) :
    Permanent start depth (program.watch expired spare watched).2 :=
  (program.trace_keeps (Ways.clocked_lasting expired _).upholds depth watched permanent).1

theorem Program.watchAll_permanent (expired : Option String) (spare : Nat) {start : Frame}
    {depth : Nat} (programs : List Program) {watched : Watched}
    (permanent : Permanent start depth watched) :
    Permanent start depth (Program.watchAll expired spare programs watched) := by
  induction programs generalizing watched with
  | nil => exact permanent
  | cons program rest ih => exact ih (program.watch_permanent expired spare permanent)

theorem Permanent.start {context : Context} {depth : Nat} (settled : context.scope.Settled depth) :
    Permanent context.scope.root depth (context, []) where
  settled := settled
  retains := refl_of Frame.Retains _
  seen := List.forall_mem_nil _
  ordered := List.pairwise_singleton ..

/-- The outcome of an instruction does not bear on the state that the others lead to. -/
theorem Program.eval_cons_state (beyond : Beyond) (first : Statement) (rest : Program)
    (context : Context) : ((Program.eval beyond (first :: rest)).run context).2 =
      match (attempt (first.eval beyond)).run context with
      | (.ok _, reached) => ((rest.eval beyond).run reached).2
      | (.error _, reached) => reached := by
  rw [Program.eval, run_bind]
  rcases (attempt (first.eval beyond)).run context with ⟨_ | outcome, reached⟩
  · rfl
  · simp only [run_bind]
    rcases (rest.eval beyond).run reached with ⟨_ | _, _⟩
    · rfl
    · cases outcome <;> rfl

/-- Unless it crashes, a program is run by running the first part of it and then the second. -/
theorem Program.eval_append_state (beyond : Beyond) (first second : Program) (context : Context) :
    ((Program.eval beyond (first ++ second)).run context).2 =
        ((first.eval beyond).run context).2 ∨
      ((Program.eval beyond (first ++ second)).run context).2 =
        ((second.eval beyond).run ((first.eval beyond).run context).2).2 := by
  induction first generalizing context with
  | nil => exact .inr rfl
  | cons instruction rest ih =>
    rw [List.cons_append, eval_cons_state, eval_cons_state]
    rcases (attempt (instruction.eval beyond)).run context with ⟨_ | _, reached⟩
    · exact .inl rfl
    · exact ih reached

theorem pairwise_inits {α : Type} (l : List α) : l.inits.Pairwise (· <+: ·) := by
  induction l with
  | nil => exact List.pairwise_singleton ..
  | cons a l ih =>
    rw [List.inits_cons, List.pairwise_cons, List.pairwise_map]
    refine ⟨fun part _ => part.nil_prefix, ih.imp fun shorter => ?_⟩
    exact List.cons_prefix_cons.mpr ⟨rfl, shorter⟩

namespace Context

theorem run_advances (context : Context) (program : Program) :
    context.Advances 0 (context.run program).2 := by
  have watched (settled : context.scope.Settled 0) :
      Permanent context.scope.root 0 (program.watch none 0 (context, [])).2 :=
    program.watch_permanent none 0 (.start settled)
  have same : (program.watch none 0 (context, [])).2.1 = (context.run program).2 :=
    congrArg Prod.snd (Program.watch_eq_run none 0 program (context, []))
  exact
    { settled := fun settled => same ▸ (watched settled).settled
      retains := fun settled => same ▸ (watched settled).retains }

theorem Extends.beyond_eq {before after : Context} (extended : Extends before after) :
    after.beyond = before.beyond := by
  unfold beyond
  rw [extended.files, extended.settings, extended.callDepth]

/-- Running on leads further than stopping between two instructions. -/
theorem run_append_advances (context : Context) (first second : Program) :
    Advances 0 (context.run first).2 (context.run (first ++ second)).2 := by
  have extended := context.run_extends first
  rcases first.eval_append_state context.beyond second context with stopped | wentOn
  · have same : (context.run (first ++ second)).2 = (context.run first).2 := stopped
    rw [same]
    exact refl_of (Advances 0) _
  · have same : (context.run (first ++ second)).2 = ((context.run first).2.run second).2 := by
      unfold run
      rw [show beyond (first.eval context.beyond context).2 = context.beyond from
        extended.beyond_eq]
      exact wentOn
    rw [same]
    exact run_advances _ second

/-- The states between the instructions of programs that are run one after the other, those before
the first and after the last instruction of each included. -/
def moments (context : Context) : List Program → List Context
  | [] => []
  | program :: rest =>
    program.inits.map (fun begun => (context.run begun).2) ++ (context.run program).2.moments rest

theorem moments_advance (context : Context) (programs : List Program) :
    (∀ moment ∈ context.moments programs, context.Advances 0 moment) ∧
      (context.moments programs).Pairwise (Advances 0) := by
  induction programs generalizing context with
  | nil => exact ⟨List.forall_mem_nil _, .nil⟩
  | cons program rest ih =>
    obtain ⟨later, ordered⟩ := ih (context.run program).2
    refine ⟨?_, List.pairwise_append.mpr ⟨?_, ordered, ?_⟩⟩
    · refine List.forall_mem_append.mpr ⟨?_, fun moment present => ?_⟩
      · exact List.forall_mem_map.mpr fun begun _ => context.run_advances begun
      · exact trans_of (Advances 0) (context.run_advances program) (later moment present)
    · rw [List.pairwise_map]
      refine (pairwise_inits program).imp ?_
      rintro begun _ ⟨second, rfl⟩
      exact context.run_append_advances begun second
    · refine List.forall_mem_map.mpr fun begun present moment after => ?_
      obtain ⟨second, same⟩ := (List.mem_inits _ _).mp present
      have finished := context.run_append_advances begun second
      rw [same] at finished
      exact trans_of (Advances 0) finished (later moment after)

/-- In every frame that can be reached the discarded name stands for nothing, and functions have
names of their own. -/
def NamesApart (context : Context) : Prop :=
  (∀ line, context.scope.get Scope.discard line =
    .error ⟨.unknownConstant Scope.discard, line⟩) ∧
    ∀ frame ∈ context.scope.active :: context.scope.outer,
      frame.value? Scope.discard = none ∧
        ∀ name, (Builtin.ofName? name).isSome = true → frame.functions.find? name = none

theorem namesApart {context : Context} {depth : Nat} (settled : context.scope.Settled depth) :
    context.NamesApart :=
  ⟨settled.get_discard, fun frame present =>
    have lawful := settled.lawful frame present
    ⟨lawful.discarded, fun _ => lawful.function?_builtin⟩⟩

end Context

theorem Builtin.ofName?_name (builtin : Builtin) : ofName? builtin.name = some builtin := by
  cases builtin <;> decide

/-- Whatever programs are run one after the other, what a name once stands for between two
instructions it stands for between any later two, be it a value or a function. The same goes for the
outermost frame at any two moments on the way, inside blocks, calls and imported files as well. The
discarded name never stands for anything, and a built-in name always calls the built-in function. -/
theorem Context.names_permanent (host : Host) (settings : Settings) (files : Files)
    (programs : List Program) (expired : Option String) (spare : Nat) :
    (∀ moment ∈ (create host settings files).moments programs,
      moment.scope.outer = [] ∧ moment.NamesApart) ∧
    ((create host settings files).moments programs).Pairwise (fun before after =>
      (∀ name line value, before.scope.get name line = .ok value →
        after.scope.get name line = .ok value) ∧
      ∀ name function, before.scope.function? name = some function →
        after.scope.function? name = some function) ∧
    (∃ notes, Program.watchAll expired spare programs (create host settings files, []) =
        (programs.foldl (fun context program => (context.run program).2)
          (create host settings files), notes) ∧
      (∀ context ∈ statesSeen notes, context.NamesApart) ∧
      (statesSeen notes).Pairwise fun later earlier =>
        earlier.scope.root.Retains later.scope.root) ∧
    ∀ beyond (builtin : Builtin) arguments line,
      Evaluation.call beyond builtin.name arguments line =
        draw (builtin.apply arguments line) := by
  obtain ⟨advances, ordered⟩ := (create host settings files).moments_advance programs
  have settled (moment : Context)
      (present : moment ∈ (create host settings files).moments programs) :
      moment.scope.Settled 0 := (advances moment present).settled Scope.settled_initial
  have root {moment : Context} (outermost : moment.scope.Settled 0) :
      moment.scope.root = moment.scope.active := by
    rw [Scope.root, List.length_eq_zero_iff.mp outermost.outer]
    rfl
  refine ⟨fun moment present => ?_, ?_, ?_, fun beyond builtin arguments line => ?_⟩
  · have outermost := settled moment present
    exact ⟨List.length_eq_zero_iff.mp outermost.outer, namesApart outermost⟩
  · refine ordered.imp_of_mem fun {before after} first second advance => ?_
    have retains := advance.retains (settled before first)
    rw [root (settled before first), root (settled after second)] at retains
    refine ⟨fun name line value found => ?_, retains.functions⟩
    exact Scope.get_eq_ok.mpr (retains.values name value (Scope.get_eq_ok.mp found))
  · have initial : (create host settings files).scope.Settled 0 := Scope.settled_initial
    have permanent := Program.watchAll_permanent expired spare programs (.start initial)
    refine ⟨_, Prod.ext (Program.watchAll_context expired spare programs _) rfl, ?_,
      (List.pairwise_cons.mp permanent.ordered).2⟩
    intro context seen
    obtain ⟨depth, settled⟩ := permanent.seen context seen
    exact namesApart settled
  · rw [Evaluation.call, Builtin.ofName?_name]

end GSharp
