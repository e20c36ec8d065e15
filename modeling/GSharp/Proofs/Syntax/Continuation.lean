import GSharp.Proofs.Syntax.Following
import GSharp.Proofs.Syntax.Soundness

namespace GSharp

variable {R : Nat → Nat → Prop} {tail tokens tokens' : List Token}

theorem Statement.Corresponds.mono {importsAllowed importsAllowed' : Bool}
    (allowed : importsAllowed = true → importsAllowed' = true) {one two : Statement}
    (corresponds : Statement.Corresponds R importsAllowed one two) :
    Statement.Corresponds R importsAllowed' one two := by
  cases corresponds with
  | alike alike => exact .alike alike
  | importFile lines here => exact .importFile lines (allowed here)

theorem Statement.eq_of_allCorrespond {importsAllowed : Bool} {some others : List Statement}
    (related : some.Forall₂ (Statement.Corresponds Eq importsAllowed) others) : some = others := by
  have same := related.imp fun _ _ corresponds => corresponds.eq
  rwa [List.forall₂_eq_eq_eq] at same

/-- Errors of two lists that are alike. Only the last one may tell that the first list was at its
end. -/
inductive ReportsAll (R : Nat → Nat → Prop) (tail : List Token) :
    List SyntaxError → List SyntaxError → Prop where
  | nil : ReportsAll R tail [] []
  | cons {one two : SyntaxError} {later later' : List SyntaxError} (alike : one.Alike R two)
      (rest : ReportsAll R tail later later') : ReportsAll R tail (one :: later) (two :: later')
  | last {error : SyntaxError} (reported : Reports R tail Step.exhausted error) :
      ReportsAll R tail [Step.exhausted] [error]

theorem ReportsAll.forall₂ {errors errors' : List SyntaxError}
    (reports : ReportsAll R tail errors errors') : errors.Forall₂ (Reports R tail) errors' := by
  induction reports with
  | nil => exact .nil
  | cons alike _ ih => exact .cons (.alike alike) ih
  | last reported => exact .cons reported .nil

/-- What comes after a list of tokens is the tail of the longer list. -/
theorem Followed.append (tokens tail : List Token) :
    Followed Eq tail tokens (tokens ++ tail) := by
  induction tokens with
  | nil => exact .ended
  | cons token rest ih => exact .cons ⟨rfl, rfl, rfl⟩ ih

namespace Parse

open Step

theorem recover_followed (ended : Ended tail) (followed : Followed R tail tokens tokens') :
    Followed R tail (recover tokens) (recover tokens') := by
  induction followed with
  | ended =>
    rcases ended.cases with rfl | ⟨token, more, rfl, last⟩
    · exact .ended
    · rw [recover, recover, if_pos last]
      exact .ended
  | cons alike followed ih =>
    rw [recover, recover, alike.kind]
    split
    · exact .cons alike followed
    split
    · exact followed
    · exact ih

theorem terminated_follows (importsAllowed : Bool) (followed : Followed R tail tokens tokens') :
    Follows R tail (Statement.Corresponds R importsAllowed) (terminated importsAllowed tokens)
      (terminated importsAllowed tokens') := by
  unfold terminated
  refine ((readings followed).instruction importsAllowed).bind ?_ ?_
  · intro statement _
    simp [rest_of_nil]
  · intro statement statement' rest rest' _ _ corresponds followed
    exact (takeSign_follows .semicolon followed).within.map fun _ _ _ => corresponds

theorem ofTokens_ended (importsAllowed : Bool) (ended : Ended tokens) :
    Parsed.ofTokens importsAllowed tokens = ⟨[], []⟩ := by
  rw [Parsed.ofTokens.eq_def]
  rcases ended.cases with rfl | ⟨token, more, rfl, last⟩
  · rfl
  · simp only [last, dite_true]

theorem ended_nil : Ended [] := fun _ absent => nomatch absent

theorem ended_cons_iff {token : Token} {more : List Token} :
    Ended (token :: more) ↔ token.kind = .endOfInput := by simp [Ended]

/-- Up to the end of the tokens, or the end of input after them, everything is read alike. -/
theorem ofTokens_follows (ended : Ended tail) (importsAllowed : Bool)
    {tokens tokens' : List Token} (followed : Followed R tail tokens tokens') :
    (Parsed.ofTokens importsAllowed tokens).program.Forall₂ (Statement.Corresponds R importsAllowed)
        (Parsed.ofTokens importsAllowed tokens').program ∧
      ReportsAll R tail (Parsed.ofTokens importsAllowed tokens).errors
        (Parsed.ofTokens importsAllowed tokens').errors := by
  cases tokens with
  | nil =>
    cases followed
    rw [ofTokens_ended _ ended, ofTokens_ended _ ended_nil]
    exact ⟨.nil, .nil⟩
  | cons token others =>
    cases followed with
    | @cons _ token' _ others' alike followed =>
    by_cases last : token.kind = .endOfInput
    · rw [ofTokens_ended _ (ended_cons_iff.mpr last),
        ofTokens_ended _ (ended_cons_iff.mpr (alike.kind.trans last))]
      exact ⟨.nil, .nil⟩
    · rw [ofTokens_cons last, ofTokens_cons (alike.kind ▸ last)]
      have step := terminated_follows (importsAllowed && token.kind = .keyword .importWord)
        (.cons alike followed)
      have allowed : ∀ one two,
          Statement.Corresponds R (importsAllowed && token.kind = .keyword .importWord) one two →
            Statement.Corresponds R importsAllowed one two := fun _ _ =>
        .mono fun given => (Bool.and_eq_true_iff.mp given).1
      simp only [alike.kind]
      generalize terminated _ (token :: others) = one, terminated _ (token' :: others') = two
        at step
      cases step with
      | @ok _ _ rest _ shorter _ related followed =>
        obtain ⟨programs, errors⟩ := ofTokens_follows ended _ followed
        exact ⟨.cons (allowed _ _ related) (programs.imp allowed), errors⟩
      | @fail _ _ rest _ bounded _ reported followed =>
        have fewer := length_recover_lt_of_bounded last bounded
        obtain ⟨programs, errors⟩ := ofTokens_follows ended _ (recover_followed ended followed)
        exact ⟨programs.imp allowed, .cons reported errors⟩
      | ended reported =>
        have recovered : Ended (recover tail) := by
          rcases ended.cases with rfl | ⟨token, more, rfl, last⟩
          · exact ended_nil
          · rw [recover, if_pos last]
            exact ended
        dsimp only
        rw [recover, ofTokens_ended _ recovered, ofTokens_ended _ ended_nil]
        exact ⟨.nil, .last reported⟩
      | spent _ more => exact absurd ended more
termination_by tokens.length

/-- Tokens that are alike are read alike. -/
theorem ofTokens_alike (importsAllowed : Bool) (alike : tokens.Forall₂ (Token.Alike R) tokens') :
    (Parsed.ofTokens importsAllowed tokens).program.Forall₂ (Statement.Corresponds R importsAllowed)
        (Parsed.ofTokens importsAllowed tokens').program ∧
      (Parsed.ofTokens importsAllowed tokens).errors.Forall₂ (Reports R [])
        (Parsed.ofTokens importsAllowed tokens').errors := by
  have followed : Followed R [] tokens tokens' := by
    induction alike with
    | nil => exact .ended
    | cons first _ ih => exact .cons first ih
  exact (ofTokens_follows ended_nil importsAllowed followed).imp_right ReportsAll.forall₂

/-- An instruction that was read up to its semicolon is read whatever comes after that. -/
theorem terminated_goesOn {importsAllowed : Bool} (followed : Followed R tail tokens tokens')
    {statement : Statement} {rest : List Token}
    (reads : (terminated importsAllowed tokens).Reads statement rest) :
    ∃ statement' rest', (terminated importsAllowed tokens').Reads statement' rest' ∧
      Statement.Corresponds R importsAllowed statement statement' ∧
        Followed R tail rest rest' := by
  simp only [terminated, Reads.bind_iff, Reads.map_iff, Reads.within_iff,
    Reads.takeSign_iff] at reads ⊢
  obtain ⟨_, _, _, ⟨shorter, instructed⟩, semicolon, ⟨rfl, ends⟩, rfl⟩ := reads
  have follows := (readings followed).instruction importsAllowed
  rw [instructed] at follows
  generalize instruction importsAllowed tokens' = step at follows ⊢
  cases follows with
  | spent used _ => cases used
  | @ok _ statement' _ _ _ shorter' related followed =>
    cases followed with
    | cons alike followed =>
      exact ⟨statement', _, ⟨statement', _, shorter', ⟨shorter', rfl⟩, _,
        ⟨rfl, alike.kind.trans ends⟩, rfl⟩, related, followed⟩

/-- What comes after tokens that were read without errors is read as if it stood alone, except that
imports may not be allowed any more. -/
theorem ofTokens_append (importsAllowed : Bool) {tokens tokens' : List Token}
    (followed : Followed R tail tokens tokens') (real : ∀ token ∈ tokens, token.kind ≠ .endOfInput)
    (noErrors : (Parsed.ofTokens importsAllowed tokens).errors = []) :
    ∃ (front : Program) (stillAllowed : Bool),
      (Parsed.ofTokens importsAllowed tokens).program.Forall₂
          (Statement.Corresponds R importsAllowed) front ∧
        Parsed.ofTokens importsAllowed tokens' =
          ⟨front ++ (Parsed.ofTokens stillAllowed tail).program,
            (Parsed.ofTokens stillAllowed tail).errors⟩ := by
  cases tokens with
  | nil =>
    cases followed
    refine ⟨[], importsAllowed, ?_, rfl⟩
    rw [ofTokens_ended _ ended_nil]
    exact .nil
  | cons token others =>
    cases followed with
    | @cons _ token' _ others' alike followed =>
    have more := real token List.mem_cons_self
    rw [ofTokens_cons more] at noErrors ⊢
    rw [ofTokens_cons (alike.kind ▸ more)]
    simp only [alike.kind]
    cases step : terminated (importsAllowed && token.kind = .keyword .importWord)
        (token :: others) with
    | fail error left bounded => simp [step] at noErrors
    | ok statement left shorter =>
      simp only [step] at noErrors ⊢
      obtain ⟨statement', left', ⟨shorter', step'⟩, related, followed⟩ :=
        terminated_goesOn (.cons alike followed) ⟨shorter, step⟩
      have real : ∀ token ∈ left, token.kind ≠ .endOfInput := by
        obtain ⟨semicolon, rule, -⟩ := terminated_iff.mp ⟨shorter, step⟩
        obtain ⟨⟨used, whole, -⟩, -⟩ := rule.sound (Parse.sound _) (Nat.lt_succ_self _)
        intro last present
        exact real last (whole ▸ List.mem_append_right used (List.mem_cons_of_mem _ present))
      obtain ⟨front, stillAllowed, programs, parsed⟩ := ofTokens_append _ followed real noErrors
      have allowed : ∀ one two,
          Statement.Corresponds R (importsAllowed && token.kind = .keyword .importWord) one two →
            Statement.Corresponds R importsAllowed one two := fun _ _ =>
        .mono fun given => (Bool.and_eq_true_iff.mp given).1
      refine ⟨statement' :: front, stillAllowed,
        .cons (allowed _ _ related) (programs.imp allowed), ?_⟩
      simp only [step', parsed, List.cons_append]
termination_by tokens.length

/-- Before another word it makes no difference whether imports are allowed. -/
theorem ofTokens_of_ne_import {token : Token} {others : List Token}
    (word : token.kind ≠ .keyword .importWord) (importsAllowed importsAllowed' : Bool) :
    Parsed.ofTokens importsAllowed (token :: others) =
      Parsed.ofTokens importsAllowed' (token :: others) := by
  by_cases last : token.kind = .endOfInput
  · have ended : Ended (token :: others) := ended_cons_iff.mpr last
    rw [ofTokens_ended _ ended, ofTokens_ended _ ended]
  · rw [ofTokens_cons last, ofTokens_cons last]
    simp only [word, decide_false, Bool.and_false]

/-- Where nothing was imported, imports need not have been allowed. -/
theorem ofTokens_allowed {tokens : List Token}
    (noErrors : (Parsed.ofTokens true tokens).errors = [])
    (noImport : ∀ statement ∈ (Parsed.ofTokens true tokens).program, statement.isImport = false)
    (importsAllowed : Bool) :
    Parsed.ofTokens importsAllowed tokens = Parsed.ofTokens true tokens := by
  by_cases ended : Ended tokens
  · rw [ofTokens_ended _ ended, ofTokens_ended _ ended]
  · cases tokens with
    | nil => exact absurd ended_nil ended
    | cons token others =>
      rw [ended_cons_iff] at ended
      rw [ofTokens_cons ended] at noErrors noImport
      by_cases word : token.kind = .keyword .importWord
      · simp only [word, decide_true, Bool.and_self] at noErrors noImport
        cases step : terminated true (token :: others) with
        | fail error left bounded => simp [step] at noErrors
        | ok statement left shorter =>
          obtain ⟨_, rule, -⟩ := terminated_iff.mp ⟨shorter, step⟩
          simp only [step, List.forall_mem_cons, rule.isImport word] at noImport
          exact absurd noImport.1 (by decide)
      · exact ofTokens_of_ne_import word importsAllowed true

/-- After a program that was read without errors, up to the end of input, more tokens may stand in
its place. -/
theorem parse_append {body : List Token} {last : Token}
    (real : ∀ token ∈ body, token.kind ≠ .endOfInput) (kind : last.kind = .endOfInput)
    (noErrors : (parse (body ++ [last])).errors = []) (more : List Token) :
    ∃ importsAllowed, parse (body ++ more) =
      ⟨(parse (body ++ [last])).program ++ (Parsed.ofTokens importsAllowed more).program,
        (Parsed.ofTokens importsAllowed more).errors⟩ := by
  obtain ⟨programs, errors⟩ :=
    ofTokens_follows (ended_cons_iff.mpr kind) true (.append body [last])
  have unended : (Parsed.ofTokens true body).errors = [] := by
    rw [parse] at noErrors
    simpa [noErrors] using errors.forall₂
  obtain ⟨front, importsAllowed, same, parsed⟩ :=
    ofTokens_append true (.append body more) real unended
  refine ⟨importsAllowed, ?_⟩
  rw [parse, parse, ← Statement.eq_of_allCorrespond programs, Statement.eq_of_allCorrespond same]
  exact parsed

end Parse

/-- What was found where something else was due, if the fault names it. -/
def SyntaxFault.found? : SyntaxFault → Option String
  | .noExpression found | .expected _ found => some found
  | .invalidParameter _ | .duplicateParameter _ _ | .nestedFunction _ | .misplacedImport
  | .invalidColor _ | .invalidBound _ => none

/-- On the same lines there is one pair of errors at most that differ, the last one. -/
theorem ReportsAll.eq_or_last {last : Token} (kind : last.kind = .endOfInput)
    {errors errors' : List SyntaxError} (reports : ReportsAll Eq [last] errors errors') :
    errors' = errors ∨ ∃ earlier error, errors = earlier ++ [Step.exhausted] ∧
      errors' = earlier ++ [error] ∧ error.line = last.line ∧
        error.fault.found? = some "end of input" := by
  have named : last.description = "end of input" := by rw [Token.description, kind]
  induction reports with
  | nil => exact .inl rfl
  | cons alike _ ih =>
    obtain rfl := alike.eq
    rcases ih with same | ⟨earlier, error, rfl, rfl, found⟩
    · exact .inl (congrArg _ same)
    · exact .inr ⟨_ :: earlier, error, rfl, rfl, found⟩
  | last reported =>
    cases reported with
    | alike alike => exact .inl (congrArg ([·]) alike.eq.symm)
    | exhausted none => cases none
    | noExpression whole =>
      cases whole
      exact .inr ⟨[], _, rfl, rfl, rfl, congrArg some named⟩
    | expected whole =>
      cases whole
      exact .inr ⟨[], _, rfl, rfl, rfl, congrArg some named⟩

/-- Tokens may end with the end of input or without. The same is read, with as many errors, and only
the last error may tell the difference: one on no line that the tokens ran out, or one at the end of
input that it was found. -/
theorem parse_endOfInput (tokens : List Token) (lexeme : String) (line : Nat) :
    let closed := parse (tokens ++ [⟨.endOfInput, lexeme, line⟩])
    closed.program = (parse tokens).program ∧
      closed.errors.length = (parse tokens).errors.length ∧
      (closed.errors = (parse tokens).errors ∨ ∃ earlier error,
        (parse tokens).errors = earlier ++ [⟨.noExpression "end of input", 0⟩] ∧
          closed.errors = earlier ++ [error] ∧ error.line = line ∧
            error.fault.found? = some "end of input") := by
  obtain ⟨programs, reports⟩ := Parse.ofTokens_follows (Parse.ended_cons_iff.mpr rfl) true
    (.append tokens [⟨.endOfInput, lexeme, line⟩])
  exact ⟨(Statement.eq_of_allCorrespond programs).symm, reports.forall₂.length_eq.symm,
    reports.eq_or_last rfl⟩

end GSharp
