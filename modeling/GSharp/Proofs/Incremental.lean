import GSharp.Proofs.Evaluation.Continuation
import GSharp.Proofs.Syntax.Continuation
import GSharp.Proofs.Syntax.WellFormed
import GSharp.Proofs.Token.Concatenation
import GSharp.Run

namespace GSharp

variable {R : Nat → Nat → Prop}

/-- How the lines of a second part go with those of the whole. What it says itself stands further
down there; the functions that it found in scope are where they were. A line number of both kinds
may go either way. -/
def Moved (scope : Scope) (tokens : List Token) (lines : Nat) (line line' : Nat) : Prop :=
  line' = line ∧ line ∈ scope.lines ∨ line' = line + lines ∧ ∃ token ∈ tokens, token.line = line

/-- The whole is read without errors, as what is read of the first part and then what is read of the
second, further down. -/
theorem parse_scan_append {first second : String} (scanned : (scan first).errors = [])
    (formed : (parse (scan first).tokens).errors = []) (scanned' : (scan second).errors = [])
    (formed' : (parse (scan second).tokens).errors = [])
    (noImport : ∀ statement ∈ Program.ofSource second, statement.isImport = false)
    (lowered : ∀ token ∈ (scan second).tokens, R token.line (token.line + lineCount first)) :
    (scan (first ++ "\n" ++ second)).errors = [] ∧
      (parse (scan (first ++ "\n" ++ second)).tokens).errors = [] ∧
      ∃ moved, Program.ofSource (first ++ "\n" ++ second) = Program.ofSource first ++ moved ∧
        (Program.ofSource second).Forall₂ (Statement.Alike R) moved := by
  have finished : ∀ error ∈ (scan first).errors, error.fault ≠ .unfinishedString := by
    simp [scanned]
  have cut := scan_append second finished
  obtain ⟨body, last, tokens, kind, real⟩ := scan_ends first
  rw [tokens] at formed
  rw [tokens, List.dropLast_concat] at cut
  obtain ⟨importsAllowed, parsed⟩ := Parse.parse_append real kind formed
    ((scan second).tokens.map (.lowered (lineCount first)))
  have alike : (scan second).tokens.Forall₂ (Token.Alike R)
      ((scan second).tokens.map (.lowered (lineCount first))) := by
    rw [List.forall₂_map_right_iff, List.forall₂_same]
    exact fun token present => ⟨rfl, rfl, lowered token present⟩
  obtain ⟨programs, reports⟩ := Parse.ofTokens_alike importsAllowed alike
  rw [Parse.ofTokens_allowed formed' noImport] at programs reports
  have noErrors : (Parsed.ofTokens true (scan second).tokens).errors = [] := formed'
  rw [noErrors, List.forall₂_nil_left_iff] at reports
  refine ⟨by rw [cut, scanned, scanned']; rfl, by rw [cut, parsed]; exact reports, _, ?_,
    Statement.allAlike_of_noImport programs noImport⟩
  rw [Program.ofSource, Program.ofSource, cut, parsed, tokens]

/-- The end of a whole program, from the value and errors of its first part and the end of the
second. -/
abbrev AlikeEnds.After (R : Nat → Nat → Prop) (value : Option Value) (errors : List EvalError) :
    Except Stop (Option Value × List EvalError) → Except Stop (Option Value × List EvalError) →
      Prop :=
  AlikeEnds R fun later all => all.1 = later.1.or value ∧
    ∃ more, all.2 = errors ++ more ∧ later.2.Forall₂ (Located.Alike R) more

/-- What a step did as a whole, given what its two parts did. A crash of the first part is the end.
Otherwise the whole shows what the two show, and comes to the value of the second part, or else of
the first one, with the errors of both; and it leaves the state that the second one leaves. -/
structure Joined (R : Nat → Nat → Prop) (one two whole : SessionStep × Context) : Prop where
  lexicalErrors : whole.1.lexicalErrors = []
  syntaxErrors : whole.1.syntaxErrors = []
  crashed : ∀ stop, one.1.result = .error stop → whole = one
  events : ∀ ended, one.1.result = .ok ended → whole.1.events = one.1.events ++ two.1.events
  result : ∀ value errors, one.1.result = .ok (value, errors) →
    AlikeEnds.After R value errors two.1.result whole.1.result
  state : ∀ ended, one.1.result = .ok ended → two.2.Alike R one.2.log whole.2

namespace Context

/-- Unless the first part of a program crashes, the second part runs on from the state that it has
left, as it would if nothing had been shown yet. -/
theorem WellFormed.run_append {context : Context} (wellFormed : context.WellFormed)
    {first second moved : Program} (canonical : Statement.allCanonical first = true)
    (alike : second.Forall₂ (Statement.Alike R) moved) {reached : Context}
    (lines : ∀ line ∈ reached.scope.lines, R line line) :
    (∀ stop, context.run first = (.error stop, reached) →
      context.run (first ++ moved) = (.error stop, reached)) ∧
    ∀ value errors, context.run first = (.ok (value, errors), reached) →
      let two := ({ reached with log := [] } : Context).run second
      let whole := context.run (first ++ moved)
      AlikeEnds.After R value errors two.1 whole.1 ∧ two.2.Alike R reached.log whole.2 := by
  have parts : context.run (first ++ moved) =
      (do
        let before ← first.eval context.beyond
        let after ← moved.eval context.beyond
        return (after.1.or before.1, before.2 ++ after.2) : Evaluation _).run context := by
    rw [← Program.eval_append]
    rfl
  rw [run_bind] at parts
  constructor
  · intro stop ended
    have ended : (first.eval context.beyond).run context = (.error stop, reached) := ended
    rw [parts, ended]
  · intro value errors ended
    have after : (context.run first).2 = reached := congrArg Prod.snd ended
    have sound : reached.WellFormed := after ▸ wellFormed.run canonical
    have extended : Extends context reached := after ▸ context.run_extends first
    have ways : ({ reached with log := [] } : Context).beyond = context.beyond := extended.beyond_eq
    have ended : (first.eval context.beyond).run context = (.ok (value, errors), reached) := ended
    have sequel : Alongside (Alike R reached.log) R (Program.Agrees R)
        (second.eval context.beyond) (moved.eval context.beyond) :=
      Program.eval_alongside (Beyond.ofBounds_alike _ _) alike
    rw [parts, ended, Context.run, ways, ← bind_pure (second.eval context.beyond)]
    refine sequel.andThen (fun later all agrees => .done ?_) _ _ (sound.alike_self lines rfl)
    exact ⟨congrArg (Option.or · value) agrees.value, _, rfl, agrees.errors⟩

/-- The step of a source that is read as this program, without errors. -/
def stepOf (context : Context) (program : Program) : SessionStep × Context :=
  let after := ({ context with log := [] } : Context).run program
  (⟨[], [], after.1, after.2.log.reverse⟩, after.2)

theorem step_eq_stepOf (context : Context) {source : String} (scanned : (scan source).errors = [])
    (formed : (parse (scan source).tokens).errors = []) :
    context.step source = context.stepOf (.ofSource source) := by
  rw [stepOf, ← scanned, ← formed]
  rfl

/-- In any well-formed state, a program may be run in two steps. -/
theorem WellFormed.stepOf_append {context : Context} (wellFormed : context.WellFormed)
    {first second moved : Program} (canonical : Statement.allCanonical first = true)
    (alike : second.Forall₂ (Statement.Alike R) moved)
    (lines : ∀ line ∈ (context.stepOf first).2.scope.lines, R line line) :
    Joined R (context.stepOf first) ((context.stepOf first).2.stepOf second)
      (context.stepOf (first ++ moved)) := by
  let start : Context := { context with log := [] }
  have sound : start.WellFormed := { wellFormed with log := List.forall_mem_nil _ }
  rcases ran : start.run first with ⟨ended, reached⟩
  have one : context.stepOf first = (⟨[], [], ended, reached.log.reverse⟩, reached) := by
    rw [stepOf, ran]
  rw [one] at lines ⊢
  have parts := sound.run_append canonical alike lines
  rw [ran] at parts
  obtain ⟨crashed, wentOn⟩ := parts
  refine ⟨rfl, rfl, ?_, ?_, ?_, ?_⟩
  · rintro stop rfl
    rw [stepOf, crashed stop rfl]
  · rintro ⟨value, errors⟩ rfl
    have log := (wentOn value errors rfl).2.log
    exact (congrArg List.reverse log).trans (List.reverse_append ..)
  · rintro value errors rfl
    exact (wentOn value errors rfl).1
  · rintro ⟨value, errors⟩ rfl
    exact (wentOn value errors rfl).2

/-- In any well-formed state, a source that can be read in two parts may be run in two steps. The
second step may be that of the second source, and lines differ as `Moved` says; or that of its
program with every line lowered, and no line differs. -/
theorem WellFormed.step_append {context : Context} (wellFormed : context.WellFormed)
    {first second : String} (scanned : (scan first).errors = [])
    (formed : (parse (scan first).tokens).errors = []) (scanned' : (scan second).errors = [])
    (formed' : (parse (scan second).tokens).errors = [])
    (noImport : ∀ statement ∈ Program.ofSource second, statement.isImport = false) :
    let one := context.step first
    let whole := context.step (first ++ "\n" ++ second)
    Joined (Moved one.2.scope (scan second).tokens (lineCount first)) one (one.2.step second)
        whole ∧
      ∃ lowered, (Program.ofSource second).Forall₂
          (Statement.Alike fun line line' => line' = line + lineCount first) lowered ∧
        Joined Eq one (one.2.stepOf lowered) whole := by
  intro one whole
  have canonical := Program.ofSource_canonical first
  have onItsOwn : one = context.stepOf (.ofSource first) := step_eq_stepOf context scanned formed
  constructor
  · obtain ⟨lexical, grammatical, moved, program, alike⟩ :=
      parse_scan_append (R := Moved one.2.scope (scan second).tokens (lineCount first))
        scanned formed scanned' formed' noImport
        fun token present => .inr ⟨rfl, token, present, rfl⟩
    have entire : whole = context.stepOf (.ofSource first ++ moved) :=
      program ▸ step_eq_stepOf context lexical grammatical
    rw [step_eq_stepOf _ scanned' formed', entire]
    rw [onItsOwn] at alike ⊢
    exact wellFormed.stepOf_append canonical alike fun line present => .inl ⟨rfl, present⟩
  · obtain ⟨lexical, grammatical, lowered, program, alike⟩ :=
      parse_scan_append (R := fun line line' => line' = line + lineCount first)
        scanned formed scanned' formed' noImport fun _ _ => rfl
    have legal : ∀ statement ∈ lowered, statement.isImport = false :=
      Statement.noImport_of_allAlike alike
    have entire : whole = context.stepOf (.ofSource first ++ lowered) :=
      program ▸ step_eq_stepOf context lexical grammatical
    have tree := Program.ofSource_canonical (first ++ "\n" ++ second)
    rw [program, Statement.allCanonical_iff, List.forall_mem_append] at tree
    have same := Statement.allAlike_self lowered (Statement.allCanonical_iff.mpr tree.2) legal
      fun _ _ => rfl
    refine ⟨lowered, alike, ?_⟩
    rw [entire, onItsOwn]
    exact wellFormed.stepOf_append canonical same fun _ _ => rfl

/-- In a fresh state, two sources that can both be read, the second of which imports nothing, may be
run one after the other or as one, with a line break between them. All that differs are lines of the
second one, and none does if they are lowered first. -/
theorem create_step_append (host : Host) (settings : Settings) (files : Files)
    {first second : String} (scanned : (scan first).errors = [])
    (formed : (parse (scan first).tokens).errors = []) (scanned' : (scan second).errors = [])
    (formed' : (parse (scan second).tokens).errors = [])
    (noImport : ∀ statement ∈ Program.ofSource second, statement.isImport = false) :
    let one := (Context.create host settings files).step first
    let whole := (Context.create host settings files).step (first ++ "\n" ++ second)
    Joined (Moved one.2.scope (scan second).tokens (lineCount first)) one (one.2.step second)
        whole ∧
      ∃ lowered, (Program.ofSource second).Forall₂
          (Statement.Alike fun line line' => line' = line + lineCount first) lowered ∧
        Joined Eq one (one.2.stepOf lowered) whole :=
  (create_wellFormed host settings files).step_append scanned formed scanned' formed' noImport

/-- A constant, and then an instruction that tries to bind it once more. -/
theorem create_step_append_rebound :
    ((scan "a = 1;").errors = [] ∧ (parse (scan "a = 1;").tokens).errors = [] ∧
      ∀ statement ∈ Program.ofSource "a = 1;", statement.isImport = false) ∧
    let one := (Context.create {} {} .none).step "a = 1;"
    let whole := (Context.create {} {} .none).step ("a = 1;" ++ "\n" ++ "a = 1;")
    Joined (Moved one.2.scope (scan "a = 1;").tokens (lineCount "a = 1;")) one
        (one.2.step "a = 1;") whole ∧
      ∃ lowered, (Program.ofSource "a = 1;").Forall₂
          (Statement.Alike fun line line' => line' = line + lineCount "a = 1;") lowered ∧
        Joined Eq one (one.2.stepOf lowered) whole := by
  have scanned : (scan "a = 1;").errors = [] := by decide +kernel
  have tokens : (scan "a = 1;").tokens =
      [⟨.identifier "a", "a", 1⟩, ⟨.sign .equals, "=", 1⟩, ⟨.number 1, "1", 1⟩,
        ⟨.sign .semicolon, ";", 1⟩, ⟨.endOfInput, "", 1⟩] := by decide +kernel
  have formed : (parse (scan "a = 1;").tokens).errors = [] := by
    rw [tokens]
    cbv
  have program : Program.ofSource "a = 1;" = [.assign "a" (.literal (.number 1) 1) 1] := by
    rw [Program.ofSource, tokens]
    cbv
  have noImport : ∀ statement ∈ Program.ofSource "a = 1;", statement.isImport = false := by
    rw [program]
    exact List.forall_mem_singleton.mpr rfl
  exact ⟨⟨scanned, formed, noImport⟩,
    create_step_append {} {} .none scanned formed scanned formed noImport⟩

end Context

end GSharp
