import GSharp.Proofs.Evaluation.Continuation
import GSharp.Proofs.Syntax.Continuation
import GSharp.Proofs.Syntax.WellFormed
import GSharp.Run

namespace GSharp

open Evaluation

variable {R : Nat → Nat → Prop} {line line' : Nat}

/-- The same error, on lines that go together. -/
inductive Error.Alike (R : Nat → Nat → Prop) : Error → Error → Prop where
  | lexical {one two : Located LexicalFault} (alike : one.Alike R two) :
      Error.Alike R (.lexical one) (.lexical two)
  | grammatical {one two : SyntaxError} (alike : one.Alike R two) :
      Error.Alike R (.grammatical one) (.grammatical two)
  | evaluation {one two : EvalError} (alike : one.Alike R two) :
      Error.Alike R (.evaluation one) (.evaluation two)
  | host (message : String) : Error.Alike R (.host message) (.host message)

/-- The same value, errors that are alike one by one, or the same crash. -/
inductive Outcome.Alike (R : Nat → Nat → Prop) : Outcome → Outcome → Prop where
  | value (value : Value) : Outcome.Alike R (.value value) (.value value)
  | errors {one two : List Error} (alike : one.Forall₂ (Error.Alike R) two) :
      Outcome.Alike R (.errors one) (.errors two)
  | crashed (reason : Option String) : Outcome.Alike R (.crashed reason) (.crashed reason)

/-- Runs that show the same and end alike. -/
structure Run.Alike (R : Nat → Nat → Prop) (one two : Run) : Prop where
  events : two.events = one.events
  outcome : one.outcome.Alike R two.outcome

section Imports

variable (same : ∀ line, R line line)

include same

/-- From one state a computation ends in one way. -/
theorem Alongside.refl {σ α : Type} (computation : ExceptT Stop (StateM σ) α) :
    Alongside Eq R Eq computation computation := by
  rintro state _ rfl
  rcases computation.run state with ⟨_ | value, reached⟩
  · rename_i stop
    cases stop with
    | failed error => exact ⟨.failed ⟨rfl, same _⟩, rfl⟩
    | crashed reason => exact ⟨.crashed reason, rfl⟩
  · exact ⟨.ok rfl, rfl⟩

theorem Evaluation.importFile_alongside (beyond : Beyond) (path : String) (lines : R line line') :
    Alongside Eq R Eq (importFile beyond path line) (importFile beyond path line') := by
  simp only [importFile]
  refine .bind (.refl same _) fun context => ?_
  split
  · exact fail_alongside _ lines
  · split
    · exact .done rfl
    · split
      · exact fail_alongside _ lines
      · refine .bind (.refl same _) fun _ => ?_
        split
        · exact fail_alongside _ lines
        · split
          · exact fail_alongside _ lines
          · refine .bind (.refl same _) fun errors => ?_
            split
            · exact fail_alongside _ lines
            · exact .done rfl

theorem Program.imports_alongside (beyond : Beyond) {program program' : Program}
    (related : program.Forall₂ (Statement.Corresponds R true) program')
    (imports : ∀ statement ∈ program, statement.isImport = true) :
    Alongside Eq R (Program.Agrees R) (program.eval beyond) (program'.eval beyond) := by
  induction related with
  | nil => exact .done ⟨rfl, .nil⟩
  | cons first _ ih =>
    rw [List.forall_mem_cons] at imports
    refine Program.eval_cons_alongside ?_ (ih imports.2)
    cases first with
    | alike alike => cases alike <;> cases imports.1
    | importFile lines _ =>
      exact .bind (importFile_alongside same beyond _ lines) fun _ => .done rfl

end Imports

/-- The imports of two programs, and what is alike in them after those. -/
theorem Program.split_imports {program program' : Program}
    (related : program.Forall₂ (Statement.Corresponds R true) program')
    (importsFirst : program.Pairwise fun earlier later => later.isImport → earlier.isImport) :
    ∃ imports rest imports' rest', program = imports ++ rest ∧ program' = imports' ++ rest' ∧
      imports.Forall₂ (Statement.Corresponds R true) imports' ∧
      (∀ statement ∈ imports, statement.isImport = true) ∧
      rest.Forall₂ (Statement.Alike R) rest' := by
  induction related with
  | nil => exact ⟨[], [], [], [], rfl, rfl, .nil, List.forall_mem_nil _, .nil⟩
  | @cons statement _ others _ first related ih =>
    obtain ⟨before, ordered⟩ := List.pairwise_cons.mp importsFirst
    cases first with
    | importFile lines allowed =>
      obtain ⟨imports, rest, imports', rest', rfl, rfl, front, all, alike⟩ := ih ordered
      exact ⟨_ :: imports, rest, _ :: imports', rest', rfl, rfl,
        .cons (.importFile lines allowed) front, List.forall_mem_cons.mpr ⟨rfl, all⟩, alike⟩
    | alike first =>
      have noImport : ∀ other ∈ others, other.isImport = false := fun other later => by
        by_contra isImport
        have earlier := before other later (Bool.of_not_eq_false isImport)
        simp [first.noImport] at earlier
      exact ⟨[], _, [], _, rfl, rfl, .nil, List.forall_mem_nil _,
        .cons first (Statement.allAlike_of_noImport related noImport)⟩

/-- From a well-formed state, programs that differ in their lines at most are run to the same end,
and the hosts are shown the same. -/
theorem Context.run_alike (same : ∀ line, R line line) {context : Context}
    (wellFormed : context.WellFormed) {program program' : Program}
    (related : program.Forall₂ (Statement.Corresponds R true) program')
    (importsFirst : program.Pairwise fun earlier later => later.isImport → earlier.isImport)
    (canonical : Statement.allCanonical program = true) :
    AlikeEnds R (Program.Agrees R) (context.run program).1 (context.run program').1 ∧
      Context.Alike R [] (context.run program).2 (context.run program').2 := by
  obtain ⟨imports, rest, imports', rest', rfl, rfl, front, all, alike⟩ :=
    Program.split_imports related importsFirst
  have imported := Program.imports_alongside same context.beyond front all context context rfl
  have reached : ((imports.eval context.beyond).run context).2.WellFormed :=
    wellFormed.run <| Statement.allCanonical_iff.mpr fun statement present =>
      Statement.allCanonical_iff.mp canonical statement (List.mem_append_left _ present)
  change AlikeEnds R _ ((Program.eval _ (imports ++ rest)).run context).1
      ((Program.eval _ (imports' ++ rest')).run context).1 ∧
    Context.Alike R [] ((Program.eval _ (imports ++ rest)).run context).2
      ((Program.eval _ (imports' ++ rest')).run context).2
  rw [Program.eval_append, Program.eval_append, run_bind, run_bind]
  revert imported reached
  rcases (imports.eval context.beyond).run context with ⟨end₁, after⟩
  rcases (imports'.eval context.beyond).run context with ⟨end₂, after'⟩
  rintro ⟨ends, rfl⟩ reached
  have states : Context.Alike R [] after after :=
    reached.alike_self (fun line _ => same line) (List.append_nil _).symm
  cases ends with
  | failed alike => exact ⟨.failed alike, states⟩
  | crashed reason => exact ⟨.crashed reason, states⟩
  | ok agrees =>
    refine Alongside.andThen (Program.eval_alongside (Beyond.ofBounds_alike _ _) alike)
      (fun ended ended' agrees' => .done ?_) after after states
    exact ⟨congrArg₂ Option.or agrees'.value agrees.value,
      List.rel_append agrees.errors agrees'.errors⟩

/-- After the last token there is nothing more on either side. -/
theorem Reports.alike_of_nil (same : ∀ line, R line line) {one two : SyntaxError}
    (reports : Reports R [] one two) : one.Alike R two := by
  cases reports with
  | alike alike => exact alike
  | exhausted => exact ⟨rfl, same _⟩
  | noExpression last | expected last => cases last

/-- Sources whose tokens are alike are run alike. -/
theorem run_alike (same : ∀ line, R line line) {one two : String}
    (scanned : (scan one).errors = []) (scanned' : (scan two).errors = [])
    (tokens : (scan one).tokens.Forall₂ (Token.Alike R) (scan two).tokens)
    (host : Host) (settings : Settings) (files : Files) :
    (run one host settings files).Alike R (run two host settings files) := by
  obtain ⟨programs, reports⟩ :
      (parse (scan one).tokens).program.Forall₂ (Statement.Corresponds R true)
          (parse (scan two).tokens).program ∧
        (parse (scan one).tokens).errors.Forall₂ (Reports R []) (parse (scan two).tokens).errors :=
    Parse.ofTokens_alike true tokens
  have formed : (parse (scan two).tokens).errors.isEmpty =
      (parse (scan one).tokens).errors.isEmpty := by
    rw [Bool.eq_iff_iff, List.isEmpty_iff_length_eq_zero, List.isEmpty_iff_length_eq_zero]
    exact reports.length_eq ▸ Iff.rfl
  unfold run
  simp only [scanned, scanned', formed, List.isEmpty_nil, Bool.not_true, Bool.false_eq_true,
    if_false]
  split
  · refine ⟨rfl, .errors ?_⟩
    rw [List.forall₂_map_left_iff, List.forall₂_map_right_iff]
    exact reports.imp fun _ _ reported => .grammatical (reported.alike_of_nil same)
  · have ended := (Context.create host settings files).run_alike same
      (Context.create_wellFormed host settings files) programs
      (Parse.ofTokens_imports true _).2 (Parse.ofTokens_canonical true _)
    revert ended
    rcases (Context.create host settings files).run (parse (scan one).tokens).program with
      ⟨end₁, after₁⟩
    rcases (Context.create host settings files).run (parse (scan two).tokens).program with
      ⟨end₂, after₂⟩
    rintro ⟨ends, states⟩
    have events : after₂.log.reverse = after₁.log.reverse := by
      rw [states.log, List.append_nil]
    refine ⟨events, ?_⟩
    cases ends with
    | failed alike => exact .errors (.cons (.evaluation alike) .nil)
    | crashed reason => exact .crashed reason
    | @ok ended ended' agrees =>
      obtain ⟨value, errors⟩ := ended
      obtain ⟨_, errors'⟩ := ended'
      obtain ⟨rfl, alike⟩ := agrees
      cases alike with
      | nil => exact .value _
      | cons first rest =>
        refine .errors (.cons (.evaluation first) ?_)
        rw [List.forall₂_map_left_iff, List.forall₂_map_right_iff]
        exact rest.imp fun _ _ => .evaluation

/-- What a token says, wherever it stands. -/
def Token.spelling (token : Token) : TokenKind × String := (token.kind, token.lexeme)

/-- Two sources that are cut into the same tokens, in whatever layout, are run to the same value or
the same crash, or to the same errors in the same order; and the hosts are shown the same. Nothing
but the lines of the errors may differ. -/
theorem run_eq_of_spelling {one two : String} (scanned : (scan one).errors = [])
    (scanned' : (scan two).errors = [])
    (spelling : (scan two).tokens.map Token.spelling = (scan one).tokens.map Token.spelling)
    (host : Host) (settings : Settings) (files : Files) :
    (run one host settings files).Alike (fun _ _ => True) (run two host settings files) := by
  refine run_alike (fun _ => trivial) scanned scanned' ?_ host settings files
  have related : ((scan one).tokens.map Token.spelling).Forall₂ Eq
      ((scan two).tokens.map Token.spelling) := by rw [spelling, List.forall₂_eq_eq_eq]
  rw [List.forall₂_map_left_iff, List.forall₂_map_right_iff] at related
  exact related.imp fun token token' same =>
    ⟨(congrArg Prod.fst same).symm, (congrArg Prod.snd same).symm, trivial⟩

/-- A name that is not known is not known on a line of its own, after a comment. -/
theorem run_eq_of_spelling_commented :
    (scan "draw p;").errors = [] ∧ (scan "draw // it\n  p\n;").errors = [] ∧
      (scan "draw // it\n  p\n;").tokens.map Token.spelling =
        (scan "draw p;").tokens.map Token.spelling ∧
      (run "draw p;").Alike (fun _ _ => True) (run "draw // it\n  p\n;") := by
  have scanned : (scan "draw p;").errors = [] := by decide +kernel
  have scanned' : (scan "draw // it\n  p\n;").errors = [] := by decide +kernel
  have spelling : (scan "draw // it\n  p\n;").tokens.map Token.spelling =
      (scan "draw p;").tokens.map Token.spelling := by decide +kernel
  exact ⟨scanned, scanned', spelling, run_eq_of_spelling scanned scanned' spelling {} {} .none⟩

end GSharp
