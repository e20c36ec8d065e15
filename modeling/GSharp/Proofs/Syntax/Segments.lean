import GSharp.Proofs.Syntax.Recovery

namespace GSharp

variable {tokens body rest : List Token} {token last : Token}

/-- The tokens cut after each semicolon. What is left after the last one is a segment as well. -/
def segments : List Token → List (List Token)
  | [] => []
  | token :: rest =>
    if token.kind = .sign .semicolon then [token] :: segments rest
    else match segments rest with
      | [] => [[token]]
      | first :: others => (token :: first) :: others

/-- Segments one after the other, of which the last one may lack its semicolon. -/
inductive Cut : List Token → List (List Token) → Prop where
  | nil : Cut [] []
  | last {body : List Token} (some : body ≠ [])
      (plain : ∀ token ∈ body, token.kind ≠ .sign .semicolon) : Cut body [body]
  | cons {body rest : List Token} {semicolon : Token} {others : List (List Token)}
      (plain : ∀ token ∈ body, token.kind ≠ .sign .semicolon)
      (kind : semicolon.kind = .sign .semicolon) (cut : Cut rest others) :
      Cut (body ++ semicolon :: rest) ((body ++ [semicolon]) :: others)

theorem segments_cut (tokens : List Token) : Cut tokens (segments tokens) := by
  induction tokens with
  | nil => exact .nil
  | cons token rest ih =>
    rw [segments]
    generalize segments rest = others at ih
    split
    next kind => exact .cons (List.forall_mem_nil _) kind ih
    next other =>
      cases ih with
      | nil => exact .last (List.cons_ne_nil token []) (List.forall_mem_singleton.mpr other)
      | last some plain =>
        exact .last (List.cons_ne_nil token rest) (List.forall_mem_cons.mpr ⟨other, plain⟩)
      | cons plain kind cut => exact .cons (List.forall_mem_cons.mpr ⟨other, plain⟩) kind cut

/-- There is no block among the tokens. -/
def Blockless (tokens : List Token) : Prop := ∀ token ∈ tokens, token.kind ≠ .keyword .letWord

theorem Blockless.append (first : Blockless tokens) (second : Blockless rest) :
    Blockless (tokens ++ rest) := List.forall_mem_append.mpr ⟨first, second⟩

theorem blockless_end (ends : last.kind = .endOfInput) : Blockless [last] :=
  List.forall_mem_singleton.mpr (ends ▸ TokenKind.noConfusion)

theorem Permitted.plain (permitted : Permitted tokens) (blockless : Blockless tokens) :
    ∀ token ∈ tokens, token.kind ≠ .sign .semicolon := by
  intro token present semicolon
  obtain ⟨word, inside, opens⟩ := permitted.inside token present semicolon
  exact blockless word inside opens

namespace Parse

open Step

theorem recover_append (real : ∀ token ∈ body, token.kind ≠ .endOfInput)
    (plain : ∀ token ∈ body, token.kind ≠ .sign .semicolon) :
    recover (body ++ rest) = recover rest := by
  induction body with
  | nil => rfl
  | cons token more ih =>
    rw [List.forall_mem_cons] at real plain
    rw [List.cons_append, recover, if_neg real.1, if_neg plain.1, ih real.2 plain.2]

/-- Without blocks, an instruction that can be read ends where recovery from it would end. -/
theorem Closes.resumed_eq {step : Step Statement tokens} (closes : Closes tokens step)
    (blockless : Blockless tokens) : step.resumed = recover tokens := by
  have plain {used rest : List Token} (whole : tokens = used ++ rest) (permitted : Permitted used) :
      recover tokens = recover rest := by
    subst whole
    refine recover_append permitted.real (permitted.plain fun token present => ?_)
    exact blockless token (List.mem_append_left _ present)
  cases closes with
  | @ok _ rest _ used semicolon whole kind permitted =>
    rw [plain whole permitted, recover, kind, if_neg TokenKind.noConfusion, if_pos rfl]
    rfl
  | fail used whole permitted =>
    rw [plain whole permitted]
    rfl

/-- Without blocks, an instruction does not go beyond a semicolon. -/
theorem rest_instruction_ne_nil (blockless : Blockless tokens)
    (closed : ∃ token ∈ tokens, token.kind = .sign .semicolon) (importsAllowed : Bool) :
    (instruction importsAllowed tokens).rest ≠ [] := by
  have takes := (takings .nil tokens).instruction importsAllowed
  generalize instruction importsAllowed tokens = step at takes
  have left {used rest : List Token} (permitted : Permitted used) (whole : tokens = used ++ rest) :
      rest ≠ [] := by
    rintro rfl
    obtain rfl := whole.trans (List.append_nil used)
    obtain ⟨semicolon, present, kind⟩ := closed
    exact permitted.plain blockless semicolon present kind
  cases takes with
  | ok used whole permitted => exact left permitted whole
  | fail used whole permitted => exact left permitted whole

/-- What comes of a segment that ends in a semicolon has nothing to do with what comes after it. -/
theorem outcome_append (blockless : Blockless tokens)
    (closed : ∃ token ∈ tokens, token.kind = .sign .semicolon) (importsAllowed : Bool)
    (tail : List Token) :
    (terminated importsAllowed (tokens ++ tail)).outcome =
      (terminated importsAllowed tokens).outcome := by
  -- The segment alone is read beside the longer list, and is not used up before its semicolon.
  have some := rest_instruction_ne_nil blockless closed importsAllowed
  have follows := (readings (.append tokens tail)).instruction importsAllowed
  unfold terminated
  generalize instruction importsAllowed tokens = one,
    instruction importsAllowed (tokens ++ tail) = two at some follows
  cases follows with
  | ended => exact absurd rfl some
  | spent used => exact absurd used some
  | fail alike =>
    obtain rfl := alike.eq
    rfl
  | ok related followed =>
    obtain rfl := related.eq
    cases followed with
    | ended => exact absurd rfl some
    | cons alike followed =>
      simp only [Step.bind, takeSign, take, alike.kind]
      split
      · rfl
      · simp only [refuse, within, Step.map, outcome, alike.description, alike.line]

section Refused

variable {α : Type} {expectation : Expectation} {error : SyntaxError}
  {bounded : rest = tokens ∨ rest.length < tokens.length}

theorem refuse_fault
    (refused : (refuse expectation tokens : Step α tokens) = .fail error rest bounded) :
    error.fault ≠ .misplacedImport := by
  cases tokens with
  | nil =>
    cases refused
    exact SyntaxFault.noConfusion
  | cons =>
    cases refused
    exact SyntaxFault.noConfusion

theorem takeString_fault (refused : takeString expectation tokens = .fail error rest bounded) :
    error.fault ≠ .misplacedImport := by
  cases tokens with
  | nil =>
    rw [takeString] at refused
    exact refuse_fault refused
  | cons =>
    rw [takeString] at refused
    split at refused
    · cases refused
    · exact refuse_fault refused

theorem takeSign_fault {sign : Sign} (refused : takeSign sign tokens = .fail error rest bounded) :
    error.fault ≠ .misplacedImport := by
  cases tokens with
  | nil =>
    rw [takeSign, take] at refused
    exact refuse_fault refused
  | cons =>
    rw [takeSign, take] at refused
    split at refused
    · cases refused
    · exact refuse_fault refused

end Refused

/-- Where imports are allowed, an import may fail for want of what belongs to it. -/
theorem outcome_import (word : token.kind = .keyword .importWord) (line : Nat) :
    (terminated true (token :: rest)).outcome ≠ .error ⟨.misplacedImport, line⟩ := by
  rw [terminated, instruction, word]
  dsimp only
  rw [if_pos rfl]
  cases path : takeString .filePath rest with
  | fail error left bounded =>
    exact fun same => takeString_fault path (congrArg Located.fault (Except.error.inj same))
  | ok text others shorter =>
    dsimp only [within, Step.map, Step.bind]
    cases ends : takeSign .semicolon others with
    | fail error left bounded =>
      exact fun same => takeSign_fault ends (congrArg Located.fault (Except.error.inj same))
    | ok =>
      intro same
      cases same

/-- An import where imports are not allowed. -/
theorem outcome_misplaced (word : token.kind = .keyword .importWord) :
    (terminated false (token :: rest)).outcome = .error ⟨.misplacedImport, token.line⟩ := by
  rw [terminated, instruction, word]
  rfl

end Parse

/-- The segment is an import, or was meant to be one. -/
def BeginsWithImport (segment : List Token) : Prop :=
  ∃ token ∈ segment.head?, token.kind = .keyword .importWord

/-- An import after something else. -/
def Misplaced (earlier : List (List Token)) (segment : List Token) : Prop :=
  BeginsWithImport segment ∧ ∃ other ∈ earlier, ¬BeginsWithImport other

/-- What comes of a segment after other ones. It is what comes of the segment alone, up to the end
of input, unless the segment is a misplaced import. -/
inductive ReadAs (last : Token) (earlier : List (List Token)) (segment : List Token) :
    Except SyntaxError Statement → Prop where
  | alone {outcome : Except SyntaxError Statement} (placed : ¬Misplaced earlier segment)
      (same : parse (segment ++ [last]) = .ofOutcomes [outcome])
      (accepted : BeginsWithImport segment → ∀ line, outcome ≠ .error ⟨.misplacedImport, line⟩) :
      ReadAs last earlier segment outcome
  | misplaced {token : Token} {rest : List Token} (misplaced : Misplaced earlier segment)
      (begins : segment = token :: rest) :
      ReadAs last earlier segment (.error ⟨.misplacedImport, token.line⟩)

/-- One outcome for each segment, in order. -/
inductive ReadApart (last : Token) :
    List (List Token) → List (List Token) → List (Except SyntaxError Statement) → Prop where
  | done {earlier : List (List Token)} : ReadApart last earlier [] []
  | more {earlier others : List (List Token)} {segment : List Token}
      {outcome : Except SyntaxError Statement} {outcomes : List (Except SyntaxError Statement)}
      (first : ReadAs last earlier segment outcome)
      (later : ReadApart last (earlier ++ [segment]) others outcomes) :
      ReadApart last earlier (segment :: others) (outcome :: outcomes)

theorem ReadApart.length_eq {earlier cuts : List (List Token)}
    {outcomes : List (Except SyntaxError Statement)}
    (apart : ReadApart last earlier cuts outcomes) : outcomes.length = cuts.length := by
  induction apart with
  | done => rfl
  | more _ _ ih => rw [List.length_cons, List.length_cons, ih]

theorem beginsWithImport_cons :
    BeginsWithImport (token :: rest) ↔ token.kind = .keyword .importWord := by
  simp [BeginsWithImport]

namespace Parse

/-- Without blocks, reading goes on where recovery would end, whatever came of the instruction. -/
theorem ofTokens_recover (importsAllowed : Bool) (more : token.kind ≠ .endOfInput)
    (blockless : Blockless (token :: rest)) :
    Parsed.ofTokens importsAllowed (token :: rest) =
      let importsAllowed := importsAllowed && token.kind = .keyword .importWord
      .add (terminated importsAllowed (token :: rest)).outcome
        (Parsed.ofTokens importsAllowed (recover (token :: rest))) := by
  rw [ofTokens_step importsAllowed more]
  dsimp only
  rw [(terminated_closes _ _).resumed_eq blockless]

section Segment

variable (more : token.kind ≠ .endOfInput) (ends : last.kind = .endOfInput)

include more ends

theorem parse_alone (blockless : Blockless (token :: body ++ [last]))
    (stops : recover (token :: body ++ [last]) = [last]) :
    parse (token :: body ++ [last]) =
      .ofOutcomes [(terminated (token.kind = .keyword .importWord)
        (token :: body ++ [last])).outcome] := by
  rw [List.cons_append] at *
  rw [parse, ofTokens_recover true more blockless, stops]
  dsimp only
  rw [ofTokens_ended _ (ended_cons_iff.mpr ends), Bool.true_and]
  rfl

theorem terminated_readAs (blockless : Blockless (token :: body ++ [last]))
    (stops : recover (token :: body ++ [last]) = [last]) {tail : List Token}
    (apart : ∀ importsAllowed, (terminated importsAllowed (token :: body ++ tail)).outcome =
      (terminated importsAllowed (token :: body ++ [last])).outcome)
    {earlier : List (List Token)} {importsAllowed : Bool}
    (allowed : importsAllowed = true ↔ ∀ other ∈ earlier, BeginsWithImport other) :
    ReadAs last earlier (token :: body)
      (terminated (importsAllowed && token.kind = .keyword .importWord)
        (token :: body ++ tail)).outcome := by
  by_cases misplaced : Misplaced earlier (token :: body)
  · have word := beginsWithImport_cons.mp misplaced.1
    have forbidden : importsAllowed = false := by
      obtain ⟨other, present, different⟩ := misplaced.2
      exact Bool.eq_false_iff.mpr fun given => different (allowed.mp given other present)
    rw [forbidden, Bool.false_and, List.cons_append, outcome_misplaced word]
    exact .misplaced misplaced rfl
  · have flag : (importsAllowed && decide (token.kind = .keyword .importWord)) =
        decide (token.kind = .keyword .importWord) := by
      by_cases word : token.kind = .keyword .importWord
      · rw [allowed.mpr, Bool.true_and]
        intro other present
        by_contra different
        exact misplaced ⟨beginsWithImport_cons.mpr word, other, present, different⟩
      · rw [decide_eq_false word, Bool.and_false]
    rw [flag, apart]
    refine .alone misplaced (parse_alone more ends blockless stops) fun begins line => ?_
    rw [beginsWithImport_cons] at begins
    rw [decide_eq_true begins]
    exact outcome_import begins line

end Segment

/-- A segment that recovery skips whole, and that comes to the same whatever is after it. -/
theorem ofTokens_segment {segment tail : List Token} (some : segment ≠ [])
    (real : ∀ token ∈ segment, token.kind ≠ .endOfInput) (ends : last.kind = .endOfInput)
    (blockless : Blockless segment) (blocklessTail : Blockless tail)
    (stops : recover (segment ++ [last]) = [last]) (skips : recover (segment ++ tail) = tail)
    (apart : ∀ importsAllowed, (terminated importsAllowed (segment ++ tail)).outcome =
      (terminated importsAllowed (segment ++ [last])).outcome)
    {earlier : List (List Token)} {importsAllowed : Bool}
    (allowed : importsAllowed = true ↔ ∀ other ∈ earlier, BeginsWithImport other) :
    ∃ outcome stillAllowed, ReadAs last earlier segment outcome ∧
      (stillAllowed = true ↔ ∀ other ∈ earlier ++ [segment], BeginsWithImport other) ∧
      Parsed.ofTokens importsAllowed (segment ++ tail) =
        .add outcome (Parsed.ofTokens stillAllowed tail) := by
  obtain ⟨token, body, rfl⟩ := List.exists_cons_of_ne_nil some
  have more := (List.forall_mem_cons.mp real).1
  refine ⟨_, importsAllowed && token.kind = .keyword .importWord,
    terminated_readAs more ends (blockless.append (blockless_end ends)) stops apart allowed,
    ?_, ?_⟩
  · simp [allowed, beginsWithImport_cons, or_imp, forall_and]
  · have whole := blockless.append blocklessTail
    rw [List.cons_append] at *
    rw [ofTokens_recover importsAllowed more whole, skips]

/-- The segments of a program are read one by one, and what comes of each of them is known. -/
theorem ofTokens_apart (ends : last.kind = .endOfInput) {cuts : List (List Token)}
    (cut : Cut tokens cuts) (real : ∀ token ∈ tokens, token.kind ≠ .endOfInput)
    (blockless : Blockless tokens) {earlier : List (List Token)} {importsAllowed : Bool}
    (allowed : importsAllowed = true ↔ ∀ other ∈ earlier, BeginsWithImport other) :
    ∃ outcomes, Parsed.ofTokens importsAllowed (tokens ++ [last]) = .ofOutcomes outcomes ∧
      ReadApart last earlier cuts outcomes := by
  -- Imports are allowed as long as every earlier segment was one; that goes through the induction.
  induction cut generalizing earlier importsAllowed with
  | nil => exact ⟨[], ofTokens_ended _ (ended_cons_iff.mpr ends), .done⟩
  | @last body some plain =>
    have stops : recover (body ++ [last]) = [last] := by
      rw [recover_append real plain, recover, if_pos ends]
    obtain ⟨outcome, _, first, -, parsed⟩ := ofTokens_segment some real ends blockless
      (blockless_end ends) stops stops (fun _ => rfl) allowed
    refine ⟨[outcome], ?_, .more first .done⟩
    rw [parsed, ofTokens_ended _ (ended_cons_iff.mpr ends)]
    rfl
  | @cons body rest semicolon others plain kind cut ih =>
    rw [← List.singleton_append, ← List.append_assoc] at real blockless ⊢
    obtain ⟨realFirst, realRest⟩ := List.forall_mem_append.mp real
    obtain ⟨blocklessFirst, blocklessRest⟩ := List.forall_mem_append.mp blockless
    have skips (tail : List Token) : recover (body ++ [semicolon] ++ tail) = tail := by
      rw [List.append_assoc, recover_append (List.forall_mem_append.mp realFirst).1 plain]
      simp [recover, kind]
    have closed : ∃ token ∈ body ++ [semicolon], token.kind = .sign .semicolon :=
      ⟨semicolon, by simp, kind⟩
    have apart (importsAllowed : Bool) (tail : List Token) :=
      outcome_append blocklessFirst closed importsAllowed tail
    obtain ⟨outcome, _, first, allowed, parsed⟩ := ofTokens_segment (by simp) realFirst ends
      blocklessFirst (.append blocklessRest (blockless_end ends)) (skips [last])
      (skips (rest ++ [last])) (fun _ => (apart _ _).trans (apart _ _).symm) allowed
    obtain ⟨outcomes, parsedRest, later⟩ := ih realRest blocklessRest allowed
    refine ⟨outcome :: outcomes, ?_, .more first later⟩
    rw [List.append_assoc, parsed, parsedRest]
    rfl

end Parse

/-- Without blocks, parsing comes to one outcome for each segment, in order: an instruction or an
error. It is what comes of the segment alone, but for an import that has its place no more. -/
theorem parse_segments (real : ∀ token ∈ tokens, token.kind ≠ .endOfInput)
    (ends : last.kind = .endOfInput) (blockless : Blockless tokens) :
    (∃ outcomes, parse (tokens ++ [last]) = .ofOutcomes outcomes ∧
      ReadApart last [] (segments tokens) outcomes) ∧
      (parse (tokens ++ [last])).program.length + (parse (tokens ++ [last])).errors.length =
        (segments tokens).length := by
  obtain ⟨outcomes, parsed, apart⟩ := Parse.ofTokens_apart ends (segments_cut tokens) real blockless
    (by simp : true = true ↔ ∀ other ∈ [], BeginsWithImport other)
  refine ⟨⟨outcomes, parsed, apart⟩, ?_⟩
  rw [parse, parsed, Parsed.length_ofOutcomes, apart.length_eq]

/-- An import that comes too late, and would lack its path anyhow. -/
theorem parse_segments_late :
    let tokens : List Token :=
      [⟨.keyword .restore, "restore", 1⟩, ⟨.sign .semicolon, ";", 1⟩,
        ⟨.keyword .importWord, "import", 2⟩, ⟨.sign .semicolon, ";", 2⟩]
    let last : Token := ⟨.endOfInput, "", 3⟩
    ((∀ token ∈ tokens, token.kind ≠ .endOfInput) ∧ last.kind = .endOfInput ∧ Blockless tokens) ∧
      (∃ outcomes, parse (tokens ++ [last]) = .ofOutcomes outcomes ∧
        ReadApart last [] (segments tokens) outcomes) ∧
      (parse (tokens ++ [last])).program.length + (parse (tokens ++ [last])).errors.length =
        (segments tokens).length := by
  intro tokens last
  have real : ∀ token ∈ tokens, token.kind ≠ .endOfInput := by decide
  have blockless : Blockless tokens := by
    unfold Blockless
    decide
  exact ⟨⟨real, rfl, blockless⟩, parse_segments real rfl blockless⟩

end GSharp
