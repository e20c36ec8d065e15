import GSharp.Proofs.Evaluation.Continuation
import GSharp.Proofs.Syntax.Recovery
import GSharp.Proofs.Syntax.WellFormed
import GSharp.Proofs.Token.Lines
import GSharp.Run

namespace GSharp

open Evaluation

/-- One of the lines, and the same on both sides. -/
def Among (lines : List Nat) (line line' : Nat) : Prop := line' = line ∧ line ∈ lines

/-- A program run beside itself: the two runs could not go together on any other lines than those
of its nodes and of the functions that are known already. -/
theorem Context.WellFormed.run_among {context : Context} (wellFormed : context.WellFormed)
    {program : Program} (canonical : Statement.allCanonical program = true)
    (noImport : ∀ statement ∈ program, statement.isImport = false) {lines : List Nat}
    (nodes : Statement.linesOfAll program ⊆ lines) (functions : context.scope.lines ⊆ lines) :
    AlikeEnds (Among lines) (Program.Agrees (Among lines)) (context.run program).1
      (context.run program).1 := by
  have alike : program.Forall₂ (Statement.Alike (Among lines)) program :=
    Statement.allAlike_self program canonical noImport fun _ present => ⟨rfl, nodes present⟩
  have states : Context.Alike (Among lines) [] context context :=
    wellFormed.alike_self (fun _ present => ⟨rfl, functions present⟩) (List.append_nil _).symm
  have ways : context.beyond.Alike (Among lines) [] context.beyond := Beyond.ofBounds_alike _ _
  exact (Program.eval_alongside ways alike context context states).1

/-- The error is on a line of the source. A syntax error is on the line of a token, and an error of
the evaluation is on the line of a node of the program. -/
inductive Error.PointsInto (source : String) : Error → Prop where
  | lexical {error : Located LexicalFault} (line : OnLine source error.line) :
      Error.PointsInto source (.lexical error)
  | grammatical {error : SyntaxError} (line : OnLine source error.line)
      (token : error.line ∈ (scan source).tokens.map Token.line) :
      Error.PointsInto source (.grammatical error)
  | evaluation {error : EvalError} (line : OnLine source error.line)
      (node : error.line ∈ Statement.linesOfAll (Program.ofSource source)) :
      Error.PointsInto source (.evaluation error)

/-- Where the word is missing nothing is imported. -/
theorem Program.noImport_of_tokens {source : String}
    (wordless : ∀ token ∈ (scan source).tokens, token.kind ≠ .keyword .importWord) :
    ∀ statement ∈ Program.ofSource source, statement.isImport = false := by
  have same : parse (scan source).tokens = Parsed.ofTokens false (scan source).tokens := by
    rcases first : (scan source).tokens with _ | ⟨token, rest⟩
    · rw [parse, Parse.ofTokens_ended _ Parse.ended_nil, Parse.ofTokens_ended _ Parse.ended_nil]
    · exact Parse.ofTokens_of_ne_import (wordless token (first ▸ List.mem_cons_self)) true false
  rw [Program.ofSource, same]
  exact (Parse.ofTokens_imports false _).1 rfl

theorem scan_hasEnd (source : String) : Parse.HasEnd (scan source).tokens := by
  obtain ⟨body, last, tokens, kind, -⟩ := scan_ends source
  exact ⟨last, by simp [tokens], kind⟩

theorem onLine_of_token {source : String} {line : Nat}
    (present : line ∈ (scan source).tokens.map Token.line) : OnLine source line := by
  obtain ⟨token, inside, rfl⟩ := List.mem_map.mp present
  exact Scan.token_onLine source token inside

/-- The line of a node is the line of a token. -/
theorem Program.ofSource_seen (source : String) :
    Seen (scan source).tokens (Statement.linesOfAll (Program.ofSource source)) :=
  (Parse.ofTokens_seen true (scan_hasEnd source)).1

theorem pointsInto_of_node {source : String} {error : EvalError}
    (node : error.line ∈ Statement.linesOfAll (Program.ofSource source)) :
    (Error.evaluation error).PointsInto source :=
  .evaluation (onLine_of_token (Program.ofSource_seen source _ node)) node

/-- Each error of a source that imports nothing points into that source, wherever it arose: in its
text, in an instruction, or in the body of a function that was called from elsewhere. -/
theorem run_pointsInto {source : String}
    (noImport : ∀ statement ∈ Program.ofSource source, statement.isImport = false) (host : Host)
    (settings : Settings) (files : Files) {errors : List Error}
    (failed : (run source host settings files).outcome = .errors errors) :
    ∀ error ∈ errors, error.PointsInto source := by
  have ends := (Context.create_wellFormed host settings files).run_among
    (Program.ofSource_canonical source) noImport (List.Subset.refl _) (List.nil_subset _)
  unfold run at failed
  dsimp only at failed
  split at failed
  · obtain rfl := Outcome.errors.inj failed
    exact List.forall_mem_map.mpr fun error present =>
      .lexical (Scan.error_onLine source error present)
  split at failed
  · obtain rfl := Outcome.errors.inj failed
    refine List.forall_mem_map.mpr fun error present => ?_
    have token := (Parse.ofTokens_seen true (scan_hasEnd source)).2 error present
    exact .grammatical (onLine_of_token token) token
  · rw [Program.ofSource] at ends
    revert ends failed
    generalize (Context.create host settings files).run (parse (scan source).tokens).program = ended
    rintro ends failed
    rcases ended with ⟨⟨error | reason⟩ | ⟨value, found⟩, after⟩
    · cases ends with
      | failed alike =>
        obtain rfl := Outcome.errors.inj failed
        exact List.forall_mem_singleton.mpr (pointsInto_of_node alike.line.2)
    · cases failed
    · cases ends with
      | ok agrees =>
        have lines := List.forall₂_same.mp agrees.errors
        cases found with
        | nil => cases failed
        | cons first rest =>
          obtain rfl := Outcome.errors.inj failed
          exact List.forall_mem_map.mpr fun error present =>
            pointsInto_of_node (lines error present).line.2

/-- A body that names nothing known is to blame where it stands, not where it is called. -/
theorem run_pointsInto_body :
    (∀ statement ∈ Program.ofSource "f(x) = y;\nf(undefined);", statement.isImport = false) ∧
      (run "f(x) = y;\nf(undefined);").outcome =
        .errors [.evaluation ⟨.unknownConstant "y", 1⟩] ∧
      ∀ error ∈ [Error.evaluation ⟨.unknownConstant "y", 1⟩],
        error.PointsInto "f(x) = y;\nf(undefined);" := by
  have scanned : (scan "f(x) = y;\nf(undefined);").errors = [] := by decide +kernel
  have tokens : (scan "f(x) = y;\nf(undefined);").tokens =
      [⟨.identifier "f", "f", 1⟩, ⟨.sign .leftParen, "(", 1⟩, ⟨.identifier "x", "x", 1⟩,
        ⟨.sign .rightParen, ")", 1⟩, ⟨.sign .equals, "=", 1⟩, ⟨.identifier "y", "y", 1⟩,
        ⟨.sign .semicolon, ";", 1⟩, ⟨.identifier "f", "f", 2⟩, ⟨.sign .leftParen, "(", 2⟩,
        ⟨.keyword .undefined, "undefined", 2⟩, ⟨.sign .rightParen, ")", 2⟩,
        ⟨.sign .semicolon, ";", 2⟩, ⟨.endOfInput, "", 2⟩] := by decide +kernel
  have parsed : parse (scan "f(x) = y;\nf(undefined);").tokens =
      ⟨[.function "f" ["x"] (.constant "y" 1) 1,
        .expression (.call "f" [.undefined 2] 2) 2], []⟩ := by
    rw [tokens]
    cbv
  have noImport : ∀ statement ∈ Program.ofSource "f(x) = y;\nf(undefined);",
      statement.isImport = false := by
    refine Program.noImport_of_tokens ?_
    rw [tokens]
    decide
  have failed : (run "f(x) = y;\nf(undefined);").outcome =
      .errors [.evaluation ⟨.unknownConstant "y", 1⟩] := by
    unfold run
    simp only [scanned, parsed]
    rfl
  exact ⟨noImport, failed, run_pointsInto noImport {} {} .none failed⟩

end GSharp
