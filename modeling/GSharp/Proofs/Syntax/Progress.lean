import GSharp.Proofs.Syntax.Recovery

namespace GSharp

variable {tokens : List Token} {token : Token}

namespace Step

variable {α : Type} {source : List Token}

/-- No token was left where one was due, not even the end of input. -/
def RunsOut (step : Step α source) : Prop := ∃ bounded, step = .fail exhausted [] bounded

/-- What is taken comes from the front and is no end of input; to succeed takes something. The end
of input is still there afterwards, so that the tokens did not run out. -/
structure Advances (step : Step α source) : Prop where
  taken : ∃ used, source = used ++ step.rest ∧ (∀ token ∈ used, token.kind ≠ .endOfInput) ∧
    ∀ value, step.outcome = .ok value → used ≠ []
  ends : Parse.HasEnd step.rest
  supplied : ¬step.RunsOut

theorem Advances.of_taken {step : Step α source} {used : List Token} (ends : Parse.HasEnd source)
    (whole : source = used ++ step.rest) (real : ∀ token ∈ used, token.kind ≠ .endOfInput) :
    step.Advances := by
  have left : Parse.HasEnd step.rest := (whole ▸ ends).of_append real
  refine ⟨⟨used, whole, real, fun value done none => ?_⟩, left, ?_⟩
  · subst none
    cases step with
    | ok value rest shorter =>
      have same : source = rest := whole
      exact absurd shorter (same ▸ Nat.lt_irrefl _)
    | fail => cases done
  · rintro ⟨bounded, rfl⟩
    obtain ⟨_, absent, _⟩ := left
    cases absent

theorem Takes.advances {taken : List Token} {L : α → List Nat} {step : Step α tokens}
    (takes : Takes taken tokens L step) (ends : Parse.HasEnd tokens) : step.Advances := by
  cases takes with
  | ok used whole permitted | fail used whole permitted =>
    exact .of_taken ends whole fun token present =>
      permitted.real token (List.mem_append_right taken present)

end Step

namespace Parse

open Step

theorem HasEnd.after (ends : HasEnd tokens) (token : Token) : HasEnd (token :: tokens) := by
  obtain ⟨last, present, kind⟩ := ends
  exact ⟨last, List.mem_cons_of_mem token present, kind⟩

theorem Closes.advances {step : Step Statement tokens} (closes : Closes tokens step)
    (ends : HasEnd tokens) : step.Advances := by
  cases closes with
  | ok used semicolon whole kind permitted =>
    have real : semicolon.kind ≠ .endOfInput := kind ▸ TokenKind.noConfusion
    exact .of_taken ends (whole.trans (List.append_assoc used [semicolon] _).symm)
      (List.forall_mem_append.mpr ⟨permitted.real, List.forall_mem_singleton.mpr real⟩)
  | fail used whole permitted => exact .of_taken ends whole permitted.real

/-- Every part of the parser advances. A part that goes on after other tokens is seen together with
the last one of them. -/
structure Progressing (tokens : List Token) : Prop where
  refuse {α : Type} (expectation : Expectation) :
    (refuse expectation tokens : Step α tokens).Advances
  take {kind : TokenKind} (real : kind ≠ .endOfInput) (expectation : Expectation) :
    (take kind expectation tokens).Advances
  takeIdentifier : (takeIdentifier tokens).Advances
  takeString (expectation : Expectation) : (takeString expectation tokens).Advances
  names : (names tokens).Advances
  color (line : Nat) : (color line tokens).Advances
  randomDeclaration (kind : FigureKind) (line : Nat) :
    (randomDeclaration kind line tokens).Advances
  labelled (build : Expr → Option String → Statement) (value : Expr) {token : Token}
    (real : token.kind ≠ .endOfInput) :
    (labelled build value tokens (rest_shorter : _ < (token :: tokens).length)).Advances
  expression : (expression tokens).Advances
  leftAssociative (level : Level) : (leftAssociative level tokens).Advances
  operand (level : Level) : (operand level tokens).Advances
  chain (level : Level) (left : Expr) {token : Token} (real : token.kind ≠ .endOfInput) :
    (chain level left tokens (rest_shorter : _ < (token :: tokens).length)).Advances
  power : (power tokens).Advances
  unary : (unary tokens).Advances
  primary : (primary tokens).Advances
  group (line : Nat) : (group line tokens).Advances
  constantOrCall (name : String) (line : Nat) {token : Token} (real : token.kind ≠ .endOfInput) :
    (constantOrCall name line tokens (rest_shorter : _ < (token :: tokens).length)).Advances
  items {closing : Sign} (bracket : closing = .rightParen ∨ closing = .rightBrace) :
    (items closing tokens).Advances
  someItems {closing : Sign} (bracket : closing = .rightParen ∨ closing = .rightBrace) :
    (someItems closing tokens).Advances
  sequence (line : Nat) : (sequence line tokens).Advances
  someSequence (line : Nat) : (someSequence line tokens).Advances
  range (start : Float) (line : Nat) : (range start line tokens).Advances
  closedRange (start : Float) (line : Nat) : (closedRange start line tokens).Advances
  conditional (line : Nat) : (conditional line tokens).Advances
  block (line : Nat) : (block line tokens).Advances
  instructions : (instructions tokens).Advances
  instruction (importsAllowed : Bool) : (instruction importsAllowed tokens).Advances
  valueOrFunction : ∀ token ∈ tokens.head?, (valueOrFunction token.line tokens).Advances
  function (name : String) (arguments : List Expr) (line : Nat) :
    (function name arguments line tokens).Advances
  terminated (importsAllowed : Bool) : (terminated importsAllowed tokens).Advances
  recover : ∃ used, tokens = used ++ recover tokens ∧ (∀ token ∈ used, token.kind ≠ .endOfInput) ∧
    ((∃ token ∈ tokens.head?, token.kind ≠ .endOfInput) → used ≠ [])

/-- Words that begin a block, one on each line: what may have been taken before any other part. -/
def opened (lines : List Nat) : List Token := lines.map fun line => ⟨.keyword .letWord, "let", line⟩

theorem opened_permitted (lines : List Nat) : Permitted (opened lines) := by
  constructor <;> simp [opened]

theorem opened_seen (lines : List Nat) : Seen (opened lines) lines := by
  simp [Seen, opened]

theorem opened_inBlock (line : Nat) (lines : List Nat) : InBlock (opened (line :: lines)) :=
  ⟨_, List.mem_cons_self, rfl⟩

theorem progressing (ends : HasEnd tokens) : Progressing tokens := by
  have fewer := fewer_of_le (tokens.length + 1)
  have fits := Nat.lt_succ_self tokens.length
  have takings := takings .nil tokens
  have opens (line : Nat) := opened_permitted [line]
  have seen (line : Nat) := opened_seen [line]
  have inside (line : Nat) := opened_inBlock line []
  have inner {closing : Sign} (bracket : closing = .rightParen ∨ closing = .rightBrace) :
      (TokenKind.sign closing).isInner = true := by
    rcases bracket with rfl | rfl <;> rfl
  constructor
  case refuse =>
    exact fun expectation => (refuse_takes (L := noLines) .nil expectation).advances ends
  case take =>
    intro kind real expectation
    -- The kind may be that of a semicolon, which is taken in a block only.
    have next : ∀ token : Token, token.kind = kind → Permitted (opened [1] ++ [token]) :=
      fun _ same => (opens 1).snoc (same ▸ real) fun _ => inside 1
    exact (take_takes (opens 1) next expectation).advances ends
  case takeIdentifier => exact (takeIdentifier_takes .nil).advances ends
  case takeString => exact fun expectation => (takeString_takes .nil expectation).advances ends
  case names => exact (names_takes .nil).advances ends
  case color => exact fun line => (color_takes (opens line) (seen line)).advances ends
  case randomDeclaration =>
    exact fun kind line => (randomDeclaration_takes (opens line) (seen line) kind).advances ends
  case labelled =>
    intro build value token real
    have permitted := (opens 1).snoc real fun _ => inside 1
    have shorter : tokens.length < (token :: tokens).length := rest_shorter
    have takes : Takes _ tokens noLines (labelled build value tokens shorter) :=
      labelled_takes permitted (fun _ => .nil) shorter
    exact takes.cons.advances (ends.after token)
  case expression => exact takings.expression.advances ends
  case leftAssociative =>
    exact fun level => (leftAssociative_takes (fewer_of_le _) (takings.operand level)).advances ends
  case operand => exact fun level => (takings.operand level).advances ends
  case chain =>
    intro level left token real
    have permitted := (opened_permitted (1 :: left.lines)).snoc real
      fun _ => opened_inBlock 1 left.lines
    have seen : Seen (opened (1 :: left.lines)) left.lines := fun line present =>
      opened_seen _ line (List.mem_cons_of_mem 1 present)
    exact (chain_takes (fewer_of_le _) permitted level seen.later rest_shorter).cons.advances
      (ends.after token)
  case power => exact takings.power.advances ends
  case unary => exact takings.unary.advances ends
  case primary => exact (primary_takes (fewer_of_le _) .nil).advances ends
  case group => exact fun line => (group_takes fewer (opens line) fits (seen line)).advances ends
  case constantOrCall =>
    intro name line token real
    have permitted := (opens line).snoc real fun _ => inside line
    have shorter : tokens.length < (token :: tokens).length := rest_shorter
    have takes := constantOrCall_takes fewer permitted fits name (seen line).later shorter
    exact takes.cons.advances (ends.after token)
  case items => exact fun bracket => (items_takes fewer .nil fits (inner bracket)).advances ends
  case someItems => exact fun bracket => (takings.someItems (inner bracket)).advances ends
  case sequence =>
    exact fun line => (sequence_takes fewer (opens line) fits (seen line)).advances ends
  case someSequence =>
    exact fun line => (someSequence_takes fewer (opens line) fits (seen line)).advances ends
  case range =>
    exact fun start line => (range_takes fewer (opens line) fits start (seen line)).advances ends
  case closedRange =>
    exact fun start line =>
      (closedRange_takes fewer (opens line) fits start (seen line)).advances ends
  case conditional =>
    exact fun line => (conditional_takes fewer (opens line) fits (seen line)).advances ends
  case block =>
    exact fun line =>
      (block_takes fewer (opens line) fits (inside line) (seen line)).advances ends
  case instructions =>
    exact ((Parse.takings (opens 1) tokens).instructions (inside 1)).advances ends
  case instruction => exact fun importsAllowed => (takings.instruction importsAllowed).advances ends
  case valueOrFunction =>
    intro token begins
    obtain ⟨rest, whole⟩ := List.head?_eq_some_iff.mp begins
    exact (valueOrFunction_takes (fewer_of_le _) .nil whole).advances ends
  case function =>
    exact fun name arguments line =>
      (function_takes fewer (opens line) fits name arguments (seen line)).advances ends
  case terminated =>
    exact fun importsAllowed => (terminated_closes importsAllowed tokens).advances ends
  case recover => exact recover_taken tokens

/-- The error comes of reading an instruction further on, before the tokens run out. -/
def Arises (tokens : List Token) (error : SyntaxError) : Prop :=
  ∃ importsAllowed rest, rest <:+ tokens ∧
    (terminated importsAllowed rest).outcome = .error error ∧
    ¬(terminated importsAllowed rest).RunsOut

theorem Arises.earlier {rest : List Token} {error : SyntaxError} (arises : Arises rest error)
    (suffix : rest <:+ tokens) : Arises tokens error := by
  obtain ⟨importsAllowed, later, part, failed⟩ := arises
  exact ⟨importsAllowed, later, part.trans suffix, failed⟩

/-- What is read has fewer parts than there are tokens, and its errors are in source order. -/
structure Reported (tokens : List Token) (parsed : Parsed) : Prop where
  bounded : parsed.program.length + parsed.errors.length < tokens.length
  arises : ∀ error ∈ parsed.errors, Arises tokens error
  ordered : (tokens.map Token.line).Pairwise (· ≤ ·) →
    (parsed.errors.map Located.line).Pairwise (· ≤ ·)

/-- In order of lines, the tokens up to the first of a part are on no later line than the part. -/
theorem le_of_ordered {used rest : List Token} {early late : Nat}
    (ordered : ((used ++ rest).map Token.line).Pairwise (· ≤ ·))
    (before : early ∈ (used ++ rest.head?.toList).map Token.line)
    (after : late ∈ rest.map Token.line) : early ≤ late := by
  rw [List.map_append, List.pairwise_append] at ordered
  obtain ⟨-, later, across⟩ := ordered
  rw [List.map_append, List.mem_append] at before
  rcases before with before | first
  · exact across early before late after
  · cases rest with
    | nil => cases after
    | cons token rest =>
      rw [List.map_cons, List.pairwise_cons] at later
      obtain rfl : early = token.line := by simpa using first
      rcases List.mem_cons.mp after with rfl | after
      · exact Nat.le_refl _
      · exact later.1 late after

/-- An error is on no later line than what reading goes on with. -/
theorem Closes.error_le {step : Step Statement tokens} (closes : Closes tokens step)
    (ends : HasEnd tokens) (ordered : (tokens.map Token.line).Pairwise (· ≤ ·))
    {error : SyntaxError} (failed : step.outcome = .error error) {late : Nat}
    (after : late ∈ step.resumed.map Token.line) : error.line ≤ late := by
  cases closes with
  | ok => cases failed
  | @fail refused rest _ used whole permitted stopped =>
    obtain rfl := Except.error.inj failed
    rcases stopped with ⟨-, rfl⟩ | stopped
    · obtain ⟨_, none, _⟩ := (whole ▸ ends).of_append permitted.real
      cases none
    -- The token that reading stopped at is the first of those that recovery looks at.
    · exact le_of_ordered (whole ▸ ordered) stopped
        (List.map_subset Token.line (recover_suffix rest).subset after)

/-- One turn more. -/
theorem Reported.turn {importsAllowed : Bool} {rest : List Token} {after : Parsed}
    (ends : HasEnd (token :: rest)) (more : token.kind ≠ .endOfInput)
    (reported : Reported (terminated importsAllowed (token :: rest)).resumed after)
    (seen : ∀ error ∈ after.errors,
      error.line ∈ (terminated importsAllowed (token :: rest)).resumed.map Token.line) :
    Reported (token :: rest)
      (.add (terminated importsAllowed (token :: rest)).outcome after) := by
  have closes := terminated_closes importsAllowed (token :: rest)
  have supplied := (closes.advances ends).supplied
  have suffix := closes.resumed_suffix
  have arises := fun error present => (reported.arises error present).earlier suffix
  have later := fun ordered : ((token :: rest).map Token.line).Pairwise (· ≤ ·) =>
    reported.ordered (ordered.sublist (suffix.sublist.map Token.line))
  refine ⟨?_, ?_, ?_⟩
  · rw [Parsed.length_add]
    exact Nat.lt_of_le_of_lt reported.bounded (length_resumed_lt more _)
  · cases outcome : (terminated importsAllowed (token :: rest)).outcome with
    | ok => exact arises
    | error error =>
      exact List.forall_mem_cons.mpr
        ⟨⟨importsAllowed, _, List.suffix_refl _, outcome, supplied⟩, arises⟩
  · intro ordered
    cases outcome : (terminated importsAllowed (token :: rest)).outcome with
    | ok => exact later ordered
    | error error =>
      refine List.pairwise_cons.mpr ⟨List.forall_mem_map.mpr fun next present => ?_, later ordered⟩
      exact closes.error_le ends ordered outcome (seen next present)

theorem ofTokens_reported (importsAllowed : Bool) {tokens : List Token} (ends : HasEnd tokens) :
    Reported tokens (Parsed.ofTokens importsAllowed tokens) := by
  cases tokens with
  | nil =>
    obtain ⟨_, none, _⟩ := ends
    cases none
  | cons token rest =>
    by_cases more : token.kind = .endOfInput
    · rw [ofTokens_ended _ (ended_cons_iff.mpr more)]
      exact ⟨Nat.succ_pos _, List.forall_mem_nil _, fun _ => .nil⟩
    · rw [ofTokens_step importsAllowed more]
      dsimp only
      generalize (importsAllowed && token.kind = .keyword .importWord) = importsAllowed
      have left := (terminated_closes importsAllowed (token :: rest)).hasEnd ends
      have shorter := length_resumed_lt more (terminated importsAllowed (token :: rest))
      exact .turn ends more (ofTokens_reported importsAllowed left)
        (ofTokens_seen importsAllowed left).2
termination_by tokens.length

theorem hasEnd_of_suffix {rest : List Token} {last : Token}
    (closed : tokens.getLast? = some last) (ends : last.kind = .endOfInput) (some : rest ≠ [])
    (suffix : rest <:+ tokens) : HasEnd rest := by
  obtain ⟨front, rfl⟩ := suffix
  rw [List.getLast?_append_of_ne_nil _ some] at closed
  exact ⟨last, List.mem_of_getLast? closed, ends⟩

end Parse

/-- Parsing ends, and on its way every part of it makes progress, wherever it begins. The errors are
on lines of tokens and in the order of the source; none of them is that tokens ran out. -/
theorem parse_progress {last : Token} (closed : tokens.getLast? = some last)
    (ends : last.kind = .endOfInput) :
    (∀ rest, rest ≠ [] → rest <:+ tokens → Parse.Progressing rest) ∧
    (parse tokens).program.length + (parse tokens).errors.length < tokens.length ∧
    (∀ error ∈ (parse tokens).errors,
      error.line ∈ tokens.map Token.line ∧ Parse.Arises tokens error) ∧
    ((∀ token ∈ tokens, token.line ≠ 0) → Step.exhausted ∉ (parse tokens).errors) ∧
    ((tokens.map Token.line).Pairwise (· ≤ ·) →
      ((parse tokens).errors.map Located.line).Pairwise (· ≤ ·)) := by
  have hasEnd : Parse.HasEnd tokens := ⟨last, List.mem_of_getLast? closed, ends⟩
  have reported : Parse.Reported tokens (parse tokens) := Parse.ofTokens_reported true hasEnd
  have seen : ∀ error ∈ (parse tokens).errors, error.line ∈ tokens.map Token.line :=
    (Parse.ofTokens_seen true hasEnd).2
  refine ⟨?_, reported.bounded, ?_, ?_, reported.ordered⟩
  · exact fun rest some suffix =>
      Parse.progressing (Parse.hasEnd_of_suffix closed ends some suffix)
  · exact fun error present => ⟨seen error present, reported.arises error present⟩
  · intro numbered exhausted
    obtain ⟨token, present, line⟩ := List.mem_map.mp (seen _ exhausted)
    exact numbered token present line

/-- Two values are wanting, and there is a word too many between them. -/
theorem parse_progress_wanting :
    let tokens : List Token :=
      [⟨.keyword .draw, "draw", 1⟩, ⟨.sign .semicolon, ";", 1⟩, ⟨.keyword .inWord, "in", 2⟩,
        ⟨.keyword .restore, "restore", 2⟩, ⟨.sign .semicolon, ";", 3⟩,
        ⟨.keyword .print, "print", 3⟩, ⟨.endOfInput, "", 4⟩]
    (tokens.getLast? = some ⟨.endOfInput, "", 4⟩ ∧ tokens ≠ [] ∧
      (∀ token ∈ tokens, token.line ≠ 0) ∧ (tokens.map Token.line).Pairwise (· ≤ ·)) ∧
    Parse.Progressing tokens ∧
    (parse tokens).program.length + (parse tokens).errors.length < 7 ∧
    Step.exhausted ∉ (parse tokens).errors ∧
    ((parse tokens).errors.map Located.line).Pairwise (· ≤ ·) := by
  intro tokens
  have nonempty : tokens ≠ [] := List.cons_ne_nil _ _
  have numbered : ∀ token ∈ tokens, token.line ≠ 0 := by decide
  have inOrder : (tokens.map Token.line).Pairwise (· ≤ ·) := by decide
  have closed : tokens.getLast? = some ⟨.endOfInput, "", 4⟩ := rfl
  obtain ⟨progressing, bounded, -, supplied, ordered⟩ := parse_progress closed rfl
  exact ⟨⟨closed, nonempty, numbered, inOrder⟩, progressing tokens nonempty (List.suffix_refl _),
    bounded, supplied numbered, ordered inOrder⟩

end GSharp
