import GSharp.Proofs.Evaluation.Lockstep
import GSharp.Run

namespace GSharp

open Evaluation

/-- The functions that draw from the library. -/
def Builtin.drawing : List Builtin := [randoms, samples, points]

/-- What asks for chance: a random declaration, and a call to a function that draws. -/
def Act.AsksChance : Act → Prop
  | .random => True
  | .call name => name ∈ Builtin.drawing.map Builtin.name
  | .importFile _ => False

/-- The programs that a run of a program can come to: itself, and those in the files imported by one
of them, if they can be read without errors. -/
inductive Files.Reaches (files : Files) (start : Program) : Program → Prop
  | start : Reaches files start start
  | imported {program : Program} {path key source : String}
      (reached : Reaches files start program)
      (imports : .importFile path ∈ Statement.actsAll program)
      (resolved : files.resolve path = .ok key) (read : files.read key = .ok source)
      (spelled : (scan source).errors = [])
      (formed : (parse (scan source).tokens).errors = []) :
      Reaches files start (parse (scan source).tokens).program

/-- Neither the program nor any that it can come to asks for chance. -/
def Files.LeavesNothingToChance (files : Files) (start : Program) : Prop :=
  ∀ program, files.Reaches start program →
    ∀ act ∈ Statement.actsAll program, ¬act.AsksChance

/-- Any two libraries, and what the programs do that can be come to. -/
def Terms.unasked (files : Files) (start : Program) : Terms where
  files
  alike _ _ := True
  allowed act := ∃ program, files.Reaches start program ∧ act ∈ Statement.actsAll program
  alarm _ := False
  strict := False

/-- Only the functions that draw look at the library. -/
theorem Builtin.apply_blind {files : Files} {start : Program} {builtin : Builtin}
    (quiet : builtin ∉ drawing) (arguments : List Value) (line : Nat) :
    (Terms.unasked files start).Blind (builtin.apply arguments line) := by
  intro one two _
  refine ⟨?_, trivial⟩
  unfold apply
  split
  · exact absurd (by decide) quiet
  · exact absurd (by decide) quiet
  · exact absurd (by decide) quiet
  · cases builtin.pure? arguments line with
    | none => rfl
    | some result => cases result <;> rfl

namespace Terms

variable {files : Files} {start : Program}

theorem unasked_sound (free : files.LeavesNothingToChance start) :
    (unasked files start).Sound where
  calls builtin allowed := by
    obtain ⟨program, reached, asked⟩ := allowed
    exact Builtin.apply_blind fun draws =>
      free program reached _ asked (List.mem_map_of_mem draws)
  figures kind := Builtin.apply_blind (by cases kind <;> decide)
  random allowed := by
    obtain ⟨program, reached, asked⟩ := allowed
    exact absurd trivial (free program reached _ asked)
  imports path key source allowed resolved read spelled formed := by
    obtain ⟨program, reached, imports⟩ := allowed
    exact fun _ within => ⟨_, .imported reached imports resolved read spelled formed, within⟩

end Terms

namespace Context

/-- The state with another library, as it comes from another seed and another canvas. -/
def withChance (context : Context) (library : Library) (width height : Nat) (seed : UInt64) :
    Context :=
  { context with
    library
    host := { context.host with width, height }
    settings := { context.settings with seed } }

/-- A program that leaves nothing to chance leads to the same end, and shows the same on the way. -/
theorem run_withChance (context : Context) {program : Program}
    (free : context.files.LeavesNothingToChance program)
    (covered : (Terms.unasked context.files program).CoversAll context.scope) (library : Library)
    (width height : Nat) (seed : UInt64) :
    ((context.withChance library width height seed).run program).1 = (context.run program).1 ∧
      ((context.withChance library width height seed).run program).2.log =
        (context.run program).2.log := by
  have inStep : (Terms.unasked context.files program).InStep context
      (context.withChance library width height seed) :=
    { scope := rfl
      library := trivial
      refusal := rfl
      log := rfl
      callDepth := rfl
      imported := rfl
      filesOne := rfl
      filesTwo := rfl
      covered }
  have sound := Terms.unasked_sound free
  have allowed : (Terms.unasked context.files program).Allows (Statement.actsAll program) :=
    fun _ within => ⟨program, .start, within⟩
  have matched : (Terms.unasked context.files program).Matches context.beyond context.beyond :=
    Beyond.ofBounds_matches sound _ _
  rcases program.eval_follow sound matched allowed _ _ inStep with
    ⟨same, inStep⟩ | ⟨⟨_, alarm, _⟩, _⟩
  · exact ⟨same.symm, inStep.log⟩
  · exact alarm.elim

end Context

/-- A source that leaves nothing to chance, whatever it imports, is run to the same end from any
seed and on any canvas, and the host is shown the same figures and texts in the same order. -/
theorem run_eq_of_seed_canvas (source : String) (host : Host) (settings : Settings) (files : Files)
    (free : files.LeavesNothingToChance (parse (scan source).tokens).program)
    (width height : Nat) (seed : UInt64) :
    run source { host with width, height } { settings with seed } files =
      run source host settings files := by
  have start : Context.create { host with width, height } { settings with seed } files =
      (Context.create host settings files).withChance (.create width height seed) width height
        seed := rfl
  have covered : (Terms.unasked files (parse (scan source).tokens).program).CoversAll {} :=
    List.forall_mem_singleton.mpr (List.forall_mem_nil _)
  obtain ⟨same, log⟩ := (Context.create host settings files).run_withChance free covered
    (.create width height seed) width height seed
  unfold run
  simp only [start, same, log]

/-- A file that declares a function, under the one path that leads to it. -/
def oneFile : Files where
  resolve path := if path = "same" then .ok "same" else .error .notFound
  texts := [("same", "f(x) = x;")]
  fault _ := .notFound

theorem declaring_acts : Statement.actsAll (parse (scan "f(x) = x;").tokens).program = [] := by
  have tokens : (scan "f(x) = x;").tokens =
      [⟨.identifier "f", "f", 1⟩, ⟨.sign .leftParen, "(", 1⟩, ⟨.identifier "x", "x", 1⟩,
        ⟨.sign .rightParen, ")", 1⟩, ⟨.sign .equals, "=", 1⟩, ⟨.identifier "x", "x", 1⟩,
        ⟨.sign .semicolon, ";", 1⟩, ⟨.endOfInput, "", 1⟩] := by decide +kernel
  rw [tokens]
  cbv

theorem importing_acts :
    Statement.actsAll (parse (scan "import \"same\"; f(3);").tokens).program =
      [.importFile "same", .call "f"] := by
  have tokens : (scan "import \"same\"; f(3);").tokens =
      [⟨.keyword .importWord, "import", 1⟩, ⟨.string "same", "\"same\"", 1⟩,
        ⟨.sign .semicolon, ";", 1⟩, ⟨.identifier "f", "f", 1⟩, ⟨.sign .leftParen, "(", 1⟩,
        ⟨.number 3, "3", 1⟩, ⟨.sign .rightParen, ")", 1⟩, ⟨.sign .semicolon, ";", 1⟩,
        ⟨.endOfInput, "", 1⟩] := by decide +kernel
  rw [tokens]
  cbv

/-- The file imports nothing in turn, so there are only two programs to come to. -/
theorem oneFile_leavesNothingToChance :
    oneFile.LeavesNothingToChance (parse (scan "import \"same\"; f(3);").tokens).program := by
  intro program reached
  have acts : Statement.actsAll program = [.importFile "same", .call "f"] ∨
      Statement.actsAll program = [] := by
    induction reached with
    | start => exact .inl importing_acts
    | @imported _ path key source _ imports resolved read _ _ ih =>
      rcases ih with importing | nothing
      · rw [importing] at imports
        obtain rfl : path = "same" := by simpa using imports
        obtain rfl : "same" = key := Except.ok.inj resolved
        obtain rfl : "f(x) = x;" = source := Except.ok.inj read
        exact .inr declaring_acts
      · rw [nothing] at imports
        cases imports
  have unasked : ¬(Act.call "f").AsksChance := by
    simp only [Act.AsksChance]
    decide
  rcases acts with importing | nothing
  · rw [importing]
    exact List.forall_mem_cons.mpr ⟨id, List.forall_mem_singleton.mpr unasked⟩
  · rw [nothing]
    exact List.forall_mem_nil _

/-- Nor does the outcome of a call to an imported function hang on the seed or the canvas. -/
theorem run_eq_of_seed_canvas_oneFile :
    oneFile.LeavesNothingToChance (parse (scan "import \"same\"; f(3);").tokens).program ∧
      run "import \"same\"; f(3);" { width := 300, height := 0 } { seed := 7 } oneFile =
        run "import \"same\"; f(3);" {} {} oneFile :=
  ⟨oneFile_leavesNothingToChance,
    run_eq_of_seed_canvas _ {} {} oneFile oneFile_leavesNothingToChance 300 0 7⟩

end GSharp
