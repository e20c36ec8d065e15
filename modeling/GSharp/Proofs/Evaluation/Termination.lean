import GSharp.Proofs.Evaluation.Erasure
import GSharp.Proofs.Evaluation.Upkeep
import GSharp.Proofs.Value.Enumeration

namespace GSharp

open Context Evaluation

/-- The key of a file that was run. -/
def Note.key? : Note → Option String
  | .loaded key => some key
  | _ => none

/-- The keys of the files that were run, the latest first. -/
def keysLoaded (notes : List Note) : List String := notes.filterMap Note.key?

/-- A body is entered only while calls are left. -/
def Note.HasRoom : Note → Prop
  | .entered caller _ => caller.callDepth < caller.settings.maxCallDepth
  | _ => True

/-- What holds of the notes at every moment of a life that began with some files imported. Every
file run since is counted as imported, so that it cannot be run again. -/
structure Orderly (imported : List String) (watched : Watched) : Prop where
  known : imported ⊆ watched.1.imported
  counted : keysLoaded watched.2 ⊆ watched.1.imported
  once : (keysLoaded watched.2).Nodup
  new : ∀ key ∈ keysLoaded watched.2, key ∉ imported
  room : ∀ note ∈ watched.2, note.HasRoom

/-- The ways out of a tree keep a run orderly, and bodies are entered only where calls are left. -/
structure Ways.Careful (ways : Ways) (imported : List String) : Prop where
  room : ∀ context evalBody, ways.body? context = some evalBody →
    context.callDepth < context.settings.maxCallDepth
  body : ∀ context evalBody, ways.body? context = some evalBody →
    ∀ body, Keeps (Orderly imported) (evalBody body)
  program : ∀ program, Keeps (Orderly imported) (ways.program program)

section Steps

variable {α : Type} {imported : List String}

theorem Orderly.grow {before after : Context} {notes : List Note}
    (orderly : Orderly imported (before, notes)) (grown : before.imported ⊆ after.imported) :
    Orderly imported (after, notes) :=
  { orderly with
    known := List.Subset.trans orderly.known grown
    counted := List.Subset.trans orderly.counted grown }

theorem Orderly.note {context : Context} {notes : List Note} {note : Note}
    (orderly : Orderly imported (context, notes)) (plain : note.key? = none) (room : note.HasRoom) :
    Orderly imported (context, note :: notes) := by
  have same : keysLoaded (note :: notes) = keysLoaded notes := List.filterMap_cons_none plain
  exact
    { known := orderly.known
      counted := same ▸ orderly.counted
      once := same ▸ orderly.once
      new := same ▸ orderly.new
      room := List.forall_mem_cons.mpr ⟨room, orderly.room⟩ }

/-- A file that is run was not imported before, and is from then on. -/
theorem Orderly.load {context : Context} {notes : List Note} {key : String}
    (orderly : Orderly imported (context, notes)) (fresh : key ∉ context.imported) :
    Orderly imported
      ({ context with imported := key :: context.imported }, .loaded key :: notes) where
  known := List.subset_cons_of_subset key orderly.known
  counted := List.cons_subset.mpr
    ⟨List.mem_cons_self, List.subset_cons_of_subset key orderly.counted⟩
  once := List.nodup_cons.mpr ⟨fun loaded => fresh (orderly.counted loaded), orderly.once⟩
  new := List.forall_mem_cons.mpr ⟨fun known => fresh (orderly.known known), orderly.new⟩
  room := List.forall_mem_cons.mpr ⟨trivial, orderly.room⟩

theorem note_orderly {note : Note} (plain : note.key? = none) (room : note.HasRoom) :
    Keeps (Orderly imported) (Traced.note note) :=
  Traced.note_ensures fun _ _ orderly => orderly.note plain room

/-- A step that only adds to what is imported leads to a state as orderly as before. -/
theorem lift_orderly {body : Evaluation α} (extended : Preserves Extends body.run) :
    Keeps (Orderly imported) (Traced.lift body) := fun watched orderly =>
  ⟨(orderly.grow (extended watched.1).imported.subset).note rfl trivial, .anything _⟩

/-- Frames and depth are no matter of imports. -/
theorem between_orderly {enter leave : Context → Context} {body : Traced α}
    (entering : ∀ context, (enter context).imported = context.imported)
    (leaving : ∀ context, (leave context).imported = context.imported)
    (orderly : Keeps (Orderly imported) body) :
    Keeps (Orderly imported) (Traced.between enter leave body) :=
  Traced.between_ensures
    (fun _ _ before => before.grow (by rw [entering]; exact List.Subset.refl _))
    (fun _ _ before => before.grow (by rw [leaving]; exact List.Subset.refl _)) orderly

end Steps

section Ways

variable {ways : Ways} {imported : List String} (careful : ways.Careful imported)

include careful

theorem callDeclared_orderly (name : String) (arguments : List Value) (line : Nat) :
    Keeps (Orderly imported) (Traced.callDeclared ways name arguments line) := by
  refine .getThen fun ⟨context, notes⟩ _ => ?_
  dsimp only
  split
  · exact lift_orderly (fail_preserves _ _)
  · rename_i function _
    split
    · exact lift_orderly (fail_preserves _ _)
    · split
      · exact lift_orderly (fail_preserves _ _)
      · rename_i evalBody entered
        have body := careful.body context evalBody entered function.body
        have bound : Keeps (Orderly imported) _ :=
          lift_orderly (bindArguments_extends function.parameters arguments)
        exact .andThen (note_orderly rfl (careful.room context evalBody entered)) fun _ _ =>
          between_orderly (fun _ => rfl) (fun _ => rfl) <|
            between_orderly (fun _ => rfl) (fun _ => rfl) (.andThen bound fun _ _ => body)

theorem call_orderly (name : String) (arguments : List Value) (line : Nat) :
    Keeps (Orderly imported) (Traced.call ways name arguments line) := by
  unfold Traced.call
  split
  · exact lift_orderly (extends_of_balanced (draw_balanced (Builtin.apply_steady _ _ _)))
  · exact callDeclared_orderly careful name arguments line

theorem importFile_orderly (path : String) (line : Nat) :
    Keeps (Orderly imported) (Traced.importFile ways path line) := by
  refine .getThenFrom fun ⟨context, notes⟩ before => ?_
  dsimp only
  split
  · exact lift_orderly (fail_preserves _ _) _ before
  · split
    · exact Ensures.done trivial _ before
    · rename_i fresh
      split
      · exact lift_orderly (fail_preserves _ _) _ before
      · -- Between the note and the change a file is run that is not counted, so both are one step.
        rw [← bind_assoc]
        refine Ensures.andThenFrom ⟨(before.load fresh).note rfl trivial, .anything _⟩ fun _ _ => ?_
        split
        · exact lift_orderly (fail_preserves _ _)
        · split
          · exact lift_orderly (fail_preserves _ _)
          · refine .andThen (careful.program _) fun errors _ => ?_
            split
            · exact lift_orderly (fail_preserves _ _)
            · exact .done trivial

end Ways

/-- A step without notes only adds to what is imported, and so leads from orderly to orderly. -/
theorem Ways.Careful.upholds {ways : Ways} {imported : List String}
    (careful : ways.Careful imported) :
    ways.Upholds (fun _ => Extends) fun _ => Orderly imported where
  preorder _ := inferInstance
  balanced _ _ _ kept := kept.toExtends
  constant _ := setConstant_extends
  function _ _ _ :=
    .andThen (ofExcept_preserves _) fun _ =>
      .andThen (updateScope_extends fun _ _ => Scope.declare_outer) fun _ => .done _
  lift := lift_orderly
  gave _ _ _ _ orderly := orderly.note rfl trivial
  inFrame kept := between_orderly (fun _ => rfl) (fun _ => rfl) kept
  call _ := call_orderly careful
  importFile _ := importFile_orderly careful

namespace Ways

variable {imported : List String}

/-- The check before a body is all that room for it asks. -/
theorem checked_careful {evalBody : Expr → Traced Value}
    {program : Program → Traced (List EvalError)}
    (bodies : ∀ body, Keeps (Orderly imported) (evalBody body))
    (programs : ∀ p, Keeps (Orderly imported) (program p)) :
    (checked evalBody program).Careful imported where
  room _ _ entered := (checked_body?_eq_some.mp entered).1
  body _ _ entered body := by
    obtain ⟨-, rfl⟩ := checked_body?_eq_some.mp entered
    exact bodies body
  program := programs

theorem clocked_careful (expired : Option String) (time : Nat) :
    (clocked expired time).Careful imported := by
  induction time with
  | zero => exact checked_careful (fun _ => .throw _) fun _ => .throw _
  | succ time ih =>
    exact checked_careful (fun body => body.trace_keeps ih.upholds 0) fun program =>
      .andThen (program.trace_keeps ih.upholds 0) fun _ _ => .done trivial

end Ways

theorem Orderly.start (context : Context) : Orderly context.imported (context, []) where
  known := List.Subset.refl _
  counted := List.nil_subset _
  once := List.nodup_nil
  new := List.forall_mem_nil _
  room := List.forall_mem_nil _

theorem Program.watch_orderly (expired : Option String) (spare : Nat) (program : Program)
    {imported : List String} {watched : Watched} (orderly : Orderly imported watched) :
    Orderly imported (program.watch expired spare watched).2 :=
  (program.trace_keeps (Ways.clocked_careful expired _).upholds 0 watched orderly).1

theorem Program.watchAll_orderly (expired : Option String) (spare : Nat) {imported : List String}
    (programs : List Program) {watched : Watched} (orderly : Orderly imported watched) :
    Orderly imported (Program.watchAll expired spare programs watched) := by
  induction programs generalizing watched with
  | nil => exact orderly
  | cons program rest ih =>
    exact ih (program.watch_orderly expired spare orderly)

/-- Whatever the programs, the files and the settings are, evaluation ends. By a clock that runs
down with every body and file entered it goes as it goes without one, and the clock never runs out.
A body is entered only where the depth allows it, and no file is run twice in the life of a state.
What is printed, taken apart, counted or drawn of a sequence is a first part of it. -/
theorem Context.run_ends (context : Context) (programs : List Program) (expired : Option String)
    (spare : Nat) :
    (∀ (program : Program) (watched : Watched),
      ((program.watch expired spare watched).1, (program.watch expired spare watched).2.1) =
        watched.1.run program) ∧
    (∃ notes, Program.watchAll expired spare programs (context, []) =
        (programs.foldl (fun context program => (context.run program).2) context, notes) ∧
      (∀ caller arguments, .entered caller arguments ∈ notes →
        caller.callDepth < caller.settings.maxCallDepth) ∧
      (keysLoaded notes).Nodup ∧ ∀ key ∈ keysLoaded notes, key ∉ context.imported) ∧
    ∀ s : Sequence,
      (Value.sequence s).text =
        Sequence.shown ((s.take (Sequence.shownLimit + 1)).map Value.text) ∧
      (∀ n, (s.take n).length ≤ n) ∧
      (∃ n, s.drawing = Value.drawingAll (s.take n)) ∧
      (s.isInfinite → (Value.sequence s).drawing = .stop .infiniteDrawing ∧
        ∀ line, Builtin.countOf s line = .ok .undefined) := by
  refine ⟨Program.watch_eq_run expired spare, ?_, fun s => ⟨?_, ?_, s.drawing_eq_take, ?_⟩⟩
  · have orderly := Program.watchAll_orderly expired spare programs (.start context)
    refine ⟨_, Prod.ext (Program.watchAll_context expired spare programs (context, [])) rfl, ?_,
      orderly.once, orderly.new⟩
    exact fun _ _ entered => orderly.room _ entered
  · rw [Value.text, s.texts_eq_map]
  · exact fun n => s.length_take_le n
  · intro endless
    refine ⟨if_pos endless, fun line => ?_⟩
    rw [Builtin.countOf, of_decide_eq_true endless]

end GSharp
