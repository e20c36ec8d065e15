import GSharp.Proofs.Syntax.Continuation
import GSharp.Proofs.Syntax.Taking

namespace GSharp

variable {tokens rest : List Token} {token : Token}

namespace Parsed

/-- One more instruction, or else one more error, before the others. -/
def add (outcome : Except SyntaxError Statement) (after : Parsed) : Parsed :=
  match outcome with
  | .ok statement => { after with program := statement :: after.program }
  | .error error => { after with errors := error :: after.errors }

/-- The instructions among the outcomes, and the errors among them. -/
def ofOutcomes (outcomes : List (Except SyntaxError Statement)) : Parsed :=
  outcomes.foldr add ⟨[], []⟩

theorem length_add (outcome : Except SyntaxError Statement) (after : Parsed) :
    (add outcome after).program.length + (add outcome after).errors.length =
      after.program.length + after.errors.length + 1 := by
  cases outcome with
  | ok => exact Nat.succ_add _ _
  | error => rfl

theorem length_ofOutcomes (outcomes : List (Except SyntaxError Statement)) :
    (ofOutcomes outcomes).program.length + (ofOutcomes outcomes).errors.length =
      outcomes.length := by
  induction outcomes with
  | nil => rfl
  | cons outcome rest ih =>
    rw [List.length_cons, ← ih]
    exact length_add outcome (ofOutcomes rest)

end Parsed

namespace Step

variable {α : Type} {source : List Token}

/-- What reading goes on with after the instruction, or after the error in it. -/
def resumed : Step α source → List Token
  | ok _ rest _ => rest
  | fail _ rest _ => Parse.recover rest

/-- What was read, or else the error. -/
def outcome : Step α source → Except SyntaxError α
  | ok value _ _ => .ok value
  | fail error _ _ => .error error

theorem length_resumed_lt (more : token.kind ≠ .endOfInput) (step : Step α (token :: rest)) :
    step.resumed.length < (token :: rest).length := by
  cases step with
  | ok _ _ shorter => exact shorter
  | fail _ _ bounded => exact Parse.length_recover_lt_of_bounded more bounded

end Step

namespace Parse

open Step

/-- One outcome, and then what is read of the rest. -/
theorem ofTokens_step (importsAllowed : Bool) (more : token.kind ≠ .endOfInput) :
    Parsed.ofTokens importsAllowed (token :: rest) =
      let importsAllowed := importsAllowed && token.kind = .keyword .importWord
      let step := terminated importsAllowed (token :: rest)
      .add step.outcome (Parsed.ofTokens importsAllowed step.resumed) := by
  rw [ofTokens_cons more]
  dsimp only
  cases terminated (importsAllowed && token.kind = .keyword .importWord) (token :: rest) with
  | ok => rfl
  | fail => rfl

/-- Recovery takes nothing but what comes before the end. -/
theorem recover_taken (tokens : List Token) : ∃ used, tokens = used ++ recover tokens ∧
    (∀ token ∈ used, token.kind ≠ .endOfInput) ∧
    ((∃ token ∈ tokens.head?, token.kind ≠ .endOfInput) → used ≠ []) := by
  fun_induction recover tokens with
  | case1 =>
    refine ⟨[], rfl, List.forall_mem_nil _, ?_⟩
    rintro ⟨_, absent, -⟩
    cases absent
  | case2 token rest last =>
    refine ⟨[], rfl, List.forall_mem_nil _, ?_⟩
    rintro ⟨first, begins, more⟩
    obtain rfl : token = first := Option.some.inj begins
    exact absurd last more
  | case3 token rest more =>
    exact ⟨[token], rfl, List.forall_mem_singleton.mpr more, fun _ => List.cons_ne_nil _ _⟩
  | case4 token rest more _ ih =>
    obtain ⟨used, whole, real, _⟩ := ih
    exact ⟨token :: used, congrArg (token :: ·) whole, List.forall_mem_cons.mpr ⟨more, real⟩,
      fun _ => List.cons_ne_nil _ _⟩

theorem recover_suffix (tokens : List Token) : recover tokens <:+ tokens := by
  obtain ⟨used, whole, -⟩ := recover_taken tokens
  exact ⟨used, whole.symm⟩

/-- The end of input is among the tokens. -/
def HasEnd (tokens : List Token) : Prop := ∃ token ∈ tokens, token.kind = .endOfInput

theorem HasEnd.of_append {front : List Token} (ends : HasEnd (front ++ rest))
    (real : ∀ token ∈ front, token.kind ≠ .endOfInput) : HasEnd rest := by
  obtain ⟨last, present, kind⟩ := ends
  rcases List.mem_append.mp present with inFront | inRest
  · exact absurd kind (real last inFront)
  · exact ⟨last, inRest, kind⟩

theorem HasEnd.of_cons (ends : HasEnd (token :: rest)) (real : token.kind ≠ .endOfInput) :
    HasEnd rest := by
  obtain ⟨last, present, kind⟩ := ends
  rcases List.mem_cons.mp present with rfl | inRest
  · exact absurd kind real
  · exact ⟨last, inRest, kind⟩

/-- Recovery stops at the end of input. -/
theorem HasEnd.recover (ends : HasEnd tokens) : HasEnd (recover tokens) := by
  obtain ⟨used, whole, real, -⟩ := recover_taken tokens
  rw [whole] at ends
  exact ends.of_append real

/-- An instruction takes what instructions take, and then a semicolon, which is in no block. -/
inductive Closes (tokens : List Token) : Step Statement tokens → Prop where
  | ok {statement : Statement} {rest : List Token} {shorter : rest.length < tokens.length}
      (used : List Token) (semicolon : Token) (whole : tokens = used ++ semicolon :: rest)
      (kind : semicolon.kind = .sign .semicolon) (permitted : Permitted used)
      (seen : Seen used statement.lines) : Closes tokens (.ok statement rest shorter)
  | fail {error : SyntaxError} {rest : List Token}
      {bounded : rest = tokens ∨ rest.length < tokens.length}
      (used : List Token) (whole : tokens = used ++ rest) (permitted : Permitted used)
      (stopped : error = exhausted ∧ rest = [] ∨
        error.line ∈ (used ++ rest.head?.toList).map Token.line) :
      Closes tokens (.fail error rest bounded)

theorem terminated_closes (importsAllowed : Bool) (tokens : List Token) :
    Closes tokens (terminated importsAllowed tokens) := by
  have takes := (takings .nil tokens).instruction importsAllowed
  unfold terminated
  generalize instruction importsAllowed tokens = step at takes
  cases takes with
  | fail used whole permitted stopped => exact .fail used whole permitted stopped
  | @ok statement others _ used whole permitted seen =>
    cases others with
    | nil => exact .fail used whole permitted (.inl ⟨rfl, rfl⟩)
    | cons token rest =>
      by_cases kind : token.kind = .sign .semicolon
      · simp only [Step.bind, takeSign, take, kind, if_true]
        exact .ok used token whole kind permitted seen
      · simp only [Step.bind, takeSign, take, kind, if_false]
        refine .fail used whole permitted (.inr ?_)
        simp

namespace Closes

variable {step : Step Statement tokens} (closes : Closes tokens step)

include closes

theorem resumed_suffix : step.resumed <:+ tokens := by
  cases closes with
  | ok used semicolon whole =>
    exact ⟨used ++ [semicolon], (List.append_assoc _ _ _).trans whole.symm⟩
  | @fail _ rest _ used whole => exact (recover_suffix rest).trans ⟨used, whole.symm⟩

theorem hasEnd (ends : HasEnd tokens) : HasEnd step.resumed := by
  cases closes with
  | ok used semicolon whole kind permitted =>
    have real : semicolon.kind ≠ .endOfInput := kind ▸ TokenKind.noConfusion
    exact ((whole ▸ ends).of_append permitted.real).of_cons real
  | fail used whole permitted => exact ((whole ▸ ends).of_append permitted.real).recover

/-- Before the end of input no line is made up. -/
theorem seen (ends : HasEnd tokens) {after : Parsed}
    (nodes : Seen tokens (Statement.linesOfAll after.program))
    (errors : ∀ error ∈ after.errors, error.line ∈ tokens.map Token.line) :
    Seen tokens (Statement.linesOfAll (Parsed.add step.outcome after).program) ∧
      ∀ error ∈ (Parsed.add step.outcome after).errors, error.line ∈ tokens.map Token.line := by
  cases closes with
  | @ok statement rest _ used semicolon whole _ _ seen =>
    have later : Seen (used ++ semicolon :: rest) statement.lines := seen.later
    rw [← whole] at later
    exact ⟨later.append nodes, errors⟩
  | @fail error rest _ used whole permitted stopped =>
    refine ⟨nodes, List.forall_mem_cons.mpr ⟨?_, errors⟩⟩
    rcases stopped with ⟨-, rfl⟩ | stopped
    · obtain ⟨last, none, _⟩ := (whole ▸ ends).of_append permitted.real
      cases none
    · have front : used ++ rest.head?.toList <+: tokens := by
        rw [whole, List.prefix_append_right_inj]
        cases rest <;> simp
      exact List.map_subset Token.line front.subset stopped

end Closes

/-- Every node and every error is on the line of a token, when the end of input is among them. -/
theorem ofTokens_seen (importsAllowed : Bool) {tokens : List Token} (ends : HasEnd tokens) :
    Seen tokens (Statement.linesOfAll (Parsed.ofTokens importsAllowed tokens).program) ∧
      ∀ error ∈ (Parsed.ofTokens importsAllowed tokens).errors,
        error.line ∈ tokens.map Token.line := by
  cases tokens with
  | nil =>
    rw [ofTokens_ended _ ended_nil]
    exact ⟨.nil, List.forall_mem_nil _⟩
  | cons token rest =>
    by_cases more : token.kind = .endOfInput
    · rw [ofTokens_ended _ (ended_cons_iff.mpr more)]
      exact ⟨.nil, List.forall_mem_nil _⟩
    · rw [ofTokens_step importsAllowed more]
      dsimp only
      generalize (importsAllowed && token.kind = .keyword .importWord) = importsAllowed
      have closes := terminated_closes importsAllowed (token :: rest)
      have shorter := length_resumed_lt more (terminated importsAllowed (token :: rest))
      have lines := List.map_subset Token.line closes.resumed_suffix.subset
      obtain ⟨nodes, errors⟩ := ofTokens_seen importsAllowed (closes.hasEnd ends)
      exact closes.seen ends (fun line present => lines (nodes line present))
        fun error present => lines (errors error present)
termination_by tokens.length

end Parse

end GSharp
