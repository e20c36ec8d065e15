import GSharp.Proofs.Syntax.Following

namespace GSharp

variable {taken used tokens : List Token} {token : Token} {line : Nat}

/-- Neither the end of input nor a semicolon. -/
def TokenKind.isInner : TokenKind → Bool
  | .endOfInput | .sign .semicolon => false
  | _ => true

/-- The word that begins a block is among the tokens. -/
def InBlock (taken : List Token) : Prop := ∃ token ∈ taken, token.kind = .keyword .letWord

/-- What has been taken when nothing but instructions and their parts was read. -/
structure Permitted (taken : List Token) : Prop where
  real : ∀ token ∈ taken, token.kind ≠ .endOfInput
  inside : ∀ token ∈ taken, token.kind = .sign .semicolon → InBlock taken

theorem InBlock.later (inside : InBlock taken) : InBlock (taken ++ used) := by
  obtain ⟨token, present, word⟩ := inside
  exact ⟨token, List.mem_append_left used present, word⟩

namespace Permitted

theorem nil : Permitted [] := ⟨List.forall_mem_nil _, List.forall_mem_nil _⟩

/-- One more token may be taken that is no end, and no semicolon unless in a block. -/
theorem snoc (permitted : Permitted taken) (real : token.kind ≠ .endOfInput)
    (inside : token.kind = .sign .semicolon → InBlock taken) : Permitted (taken ++ [token]) where
  real := List.forall_mem_append.mpr ⟨permitted.real, List.forall_mem_singleton.mpr real⟩
  inside := by
    refine List.forall_mem_append.mpr ⟨?_, List.forall_mem_singleton.mpr ?_⟩
    · exact fun earlier present semicolon => (permitted.inside earlier present semicolon).later
    · exact fun semicolon => (inside semicolon).later

theorem of_kind {kind : TokenKind} (permitted : Permitted taken) (same : token.kind = kind)
    (inner : kind.isInner = true) : Permitted (taken ++ [token]) := by
  subst same
  refine permitted.snoc (fun ends => ?_) (fun semicolon => ?_)
  · rw [ends] at inner
    cases inner
  · rw [semicolon] at inner
    cases inner

end Permitted

/-- The lines are lines of the tokens. -/
def Seen (taken : List Token) (lines : List Nat) : Prop :=
  ∀ line ∈ lines, line ∈ taken.map Token.line

namespace Seen

variable {lines others : List Nat}

theorem nil : Seen taken [] := List.forall_mem_nil _

theorem append (first : Seen taken lines) (second : Seen taken others) :
    Seen taken (lines ++ others) := List.forall_mem_append.mpr ⟨first, second⟩

theorem cons (first : Seen taken [line]) (rest : Seen taken lines) : Seen taken (line :: lines) :=
  first.append rest

theorem last : Seen (taken ++ [token]) [token.line] := by simp [Seen]

theorem of_mem (seen : Seen taken lines) (present : line ∈ lines) : Seen taken [line] :=
  List.forall_mem_singleton.mpr (seen line present)

theorem later (seen : Seen taken lines) : Seen (taken ++ used) lines := by
  intro line present
  rw [List.map_append]
  exact List.mem_append_left _ (seen line present)

end Seen

namespace Step

variable {α β : Type} {source inner : List Token} {L : α → List Nat} {M : β → List Nat}
  {step : Step α inner}

/-- Where tokens were taken already, the step takes some more from the front of those that follow.
An error is on the line of a token that was taken or of the next one, if there is a next one. -/
inductive Takes (taken tokens : List Token) (L : α → List Nat) : Step α source → Prop where
  | ok {value : α} {rest : List Token} {shorter : rest.length < source.length}
      (used : List Token) (whole : tokens = used ++ rest) (permitted : Permitted (taken ++ used))
      (seen : Seen (taken ++ used) (L value)) : Takes taken tokens L (.ok value rest shorter)
  | fail {error : SyntaxError} {rest : List Token}
      {bounded : rest = source ∨ rest.length < source.length}
      (used : List Token) (whole : tokens = used ++ rest) (permitted : Permitted (taken ++ used))
      (stopped : error = exhausted ∧ rest = [] ∨
        error.line ∈ (taken ++ used ++ rest.head?.toList).map Token.line) :
      Takes taken tokens L (.fail error rest bounded)

namespace Takes

theorem done {value : α} {shorter : tokens.length < source.length} (permitted : Permitted taken)
    (seen : Seen taken (L value)) : Takes taken tokens L (.ok value tokens shorter) :=
  .ok [] rfl (by simpa using permitted) (by simpa using seen)

theorem failed {error : SyntaxError} {bounded : tokens = source ∨ tokens.length < source.length}
    (permitted : Permitted taken) (seen : Seen taken [error.line]) :
    Takes taken tokens L (.fail error tokens bounded) := by
  refine .fail [] rfl (by simpa using permitted) (.inr ?_)
  rw [List.append_nil]
  exact seen.later _ (List.mem_singleton_self _)

theorem refused {error : SyntaxError} {rest : List Token}
    {bounded : token :: rest = source ∨ (token :: rest).length < source.length}
    (permitted : Permitted taken) (line : error.line = token.line) :
    Takes taken (token :: rest) L (.fail error (token :: rest) bounded) := by
  refine .fail [] rfl (by simpa using permitted) (.inr ?_)
  simp [line]

theorem stopped {bounded : [] = source ∨ ([] : List Token).length < source.length}
    (permitted : Permitted taken) : Takes taken [] L (.fail exhausted [] bounded) :=
  .fail [] rfl (by simpa using permitted) (.inl ⟨rfl, rfl⟩)

/-- What a step takes after other tokens are taken, it takes with those before it. -/
theorem after {step : Step α source} {rest : List Token} (whole : tokens = used ++ rest)
    (takes : Takes (taken ++ used) rest L step) : Takes taken tokens L step := by
  subst whole
  cases takes with
  | ok more whole permitted seen =>
    rw [List.append_assoc] at permitted seen
    exact .ok (used ++ more) (by rw [whole, List.append_assoc]) permitted seen
  | fail more whole permitted stopped =>
    rw [List.append_assoc taken] at permitted stopped
    exact .fail (used ++ more) (by rw [whole, List.append_assoc]) permitted stopped

theorem cons {step : Step α source} (takes : Takes (taken ++ [token]) tokens L step) :
    Takes taken (token :: tokens) L step :=
  takes.after rfl

theorem within {part : inner.length < source.length} (takes : Takes taken tokens L step) :
    Takes taken tokens L (step.within part) := by
  cases takes with
  | ok used whole permitted seen => exact .ok used whole permitted seen
  | fail used whole permitted stopped => exact .fail used whole permitted stopped

theorem map {f : α → β} (takes : Takes taken tokens L step)
    (seen : ∀ used value, Seen (taken ++ used) (L value) → Seen (taken ++ used) (M (f value))) :
    Takes taken tokens M (step.map f) := by
  cases takes with
  | ok used whole permitted lines => exact .ok used whole permitted (seen _ _ lines)
  | fail used whole permitted stopped => exact .fail used whole permitted stopped

theorem bind {next : α → (rest : List Token) → rest.length < inner.length → Step β inner}
    (takes : Takes taken tokens L step)
    (goes : ∀ used value rest shorter, Permitted (taken ++ used) →
      Seen (taken ++ used) (L value) → Takes (taken ++ used) rest M (next value rest shorter)) :
    Takes taken tokens M (step.bind next) := by
  cases takes with
  | ok used whole permitted seen => exact (goes used _ _ _ permitted seen).after whole
  | fail used whole permitted stopped => exact .fail used whole permitted stopped

theorem andThen {part : inner.length < source.length}
    {next : α → (rest : List Token) → rest.length < inner.length → Step β source}
    (takes : Takes taken tokens L step)
    (goes : ∀ used value rest shorter, Permitted (taken ++ used) →
      Seen (taken ++ used) (L value) → Takes (taken ++ used) rest M (next value rest shorter)) :
    Takes taken tokens M (step.andThen part next) := by
  cases takes with
  | ok used whole permitted seen => exact (goes used _ _ _ permitted seen).after whole
  | fail used whole permitted stopped => exact .fail used whole permitted stopped

/-- Whoever succeeds has taken the first token. -/
theorem first {step : Step α (token :: tokens)} (takes : Takes taken (token :: tokens) L step) :
    Takes taken (token :: tokens) (fun value => token.line :: L value) step := by
  cases takes with
  | fail used whole permitted stopped => exact .fail used whole permitted stopped
  | @ok _ rest shorter used whole permitted seen =>
    cases used with
    | nil =>
      subst whole
      exact absurd shorter (Nat.lt_irrefl _)
    | cons head more =>
      obtain ⟨rfl, -⟩ := List.cons.inj whole
      exact .ok (token :: more) whole permitted (.cons (by simp [Seen]) seen)

end Takes

/-- There are no lines in what is read. -/
def noLines (_ : α) : List Nat := []

theorem refuse_takes (permitted : Permitted taken) (expectation : Expectation) :
    Takes taken tokens L (refuse expectation tokens) := by
  cases tokens with
  | nil => exact .stopped permitted
  | cons token rest => exact .refused permitted rfl

theorem take_takes {kind : TokenKind} (permitted : Permitted taken)
    (next : ∀ token : Token, token.kind = kind → Permitted (taken ++ [token]))
    (expectation : Expectation) : Takes taken tokens noLines (take kind expectation tokens) := by
  cases tokens with
  | nil => exact refuse_takes permitted expectation
  | cons token rest =>
    rw [take]
    split
    next same => exact .cons (.done (next token same) .nil)
    next => exact refuse_takes permitted expectation

theorem takeSign_takes (permitted : Permitted taken) {sign : Sign}
    (inner : (TokenKind.sign sign).isInner = true) :
    Takes taken tokens noLines (takeSign sign tokens) :=
  take_takes permitted (fun _ same => permitted.of_kind same inner) _

theorem takeSemicolon_takes (permitted : Permitted taken) (inside : InBlock taken) :
    Takes taken tokens noLines (takeSign .semicolon tokens) :=
  take_takes permitted
    (fun _ same => permitted.snoc (same ▸ TokenKind.noConfusion) fun _ => inside) _

theorem takeWord_takes (permitted : Permitted taken) (word : Keyword) :
    Takes taken tokens noLines (takeWord word tokens) :=
  take_takes permitted (fun _ same => permitted.of_kind same rfl) _

theorem takeIdentifier_takes (permitted : Permitted taken) :
    Takes taken tokens noLines (takeIdentifier tokens) := by
  cases tokens with
  | nil => exact refuse_takes permitted .identifier
  | cons token rest =>
    rw [takeIdentifier]
    split
    next kind => exact .cons (.done (permitted.of_kind kind rfl) .nil)
    next => exact refuse_takes permitted .identifier

theorem takeString_takes (permitted : Permitted taken) (expectation : Expectation) :
    Takes taken tokens noLines (takeString expectation tokens) := by
  cases tokens with
  | nil => exact refuse_takes permitted expectation
  | cons token rest =>
    rw [takeString]
    split
    next kind => exact .cons (.done (permitted.of_kind kind rfl) .nil)
    next => exact refuse_takes permitted expectation

end Step

theorem Expr.line_mem_lines (expr : Expr) : expr.line ∈ expr.lines := by
  cases expr <;> simp only [Expr.line, Expr.lines, List.mem_cons_self]

mutual

theorem Expr.declaration?_line {expr : Expr} {name : String}
    (found : expr.declaration? = some (name, line)) : line ∈ expr.lines := by
  cases expr <;> simp only [Expr.declaration?, reduceCtorEq, Option.or_eq_some_iff] at found <;>
    simp only [Expr.lines, List.mem_cons, List.mem_append]
  case group | unary => exact .inr (Expr.declaration?_line found)
  case binary =>
    rcases found with found | ⟨-, found⟩
    · exact .inr (.inl (Expr.declaration?_line found))
    · exact .inr (.inr (Expr.declaration?_line found))
  case conditional =>
    rcases found with found | ⟨-, found | ⟨-, found⟩⟩
    · exact .inr (.inl (Expr.declaration?_line found))
    · exact .inr (.inr (.inl (Expr.declaration?_line found)))
    · exact .inr (.inr (.inr (Expr.declaration?_line found)))
  case block =>
    rcases found with found | ⟨-, found⟩
    · exact .inr (.inl (Statement.declarations?_line found))
    · exact .inr (.inr (Expr.declaration?_line found))
  case call | figure | sequence => exact .inr (Expr.declarations?_line found)
termination_by structural expr

theorem Expr.declarations?_line {exprs : List Expr} {name : String}
    (found : Expr.declarations? exprs = some (name, line)) : line ∈ Expr.linesOfAll exprs := by
  cases exprs with
  | nil => cases found
  | cons first rest =>
    simp only [Expr.declarations?, Option.or_eq_some_iff] at found
    rw [Expr.linesOfAll, List.mem_append]
    exact found.imp Expr.declaration?_line fun later => Expr.declarations?_line later.2
termination_by structural exprs

theorem Statement.declaration?_line {statement : Statement} {name : String}
    (found : statement.declaration? = some (name, line)) : line ∈ statement.lines := by
  cases statement <;> simp only [Statement.declaration?, reduceCtorEq, Option.some.injEq,
    Prod.mk.injEq] at found <;> simp only [Statement.lines, List.mem_cons]
  case function => exact .inl found.2.symm
  case expression | assign | assignMany | draw | print => exact .inr (Expr.declaration?_line found)
termination_by structural statement

theorem Statement.declarations?_line {statements : List Statement} {name : String}
    (found : Statement.declarations? statements = some (name, line)) :
    line ∈ Statement.linesOfAll statements := by
  cases statements with
  | nil => cases found
  | cons first rest =>
    simp only [Statement.declarations?, Option.or_eq_some_iff] at found
    rw [Statement.linesOfAll, List.mem_append]
    exact found.imp Statement.declaration?_line fun later => Statement.declarations?_line later.2
termination_by structural statements

end

namespace Parse

open Step

theorem bound_line {expr : Expr} {error : SyntaxError} (refused : bound expr = .error error) :
    error.line = expr.line := by
  unfold bound at refused
  split at refused
  · split at refused
    · cases refused
    · exact Except.error.inj refused ▸ rfl
  · exact Except.error.inj refused ▸ rfl

variable {taken tokens : List Token} {line : Nat}

theorem names_takes {taken tokens : List Token} (permitted : Permitted taken) :
    Takes taken tokens noLines (names tokens) := by
  match tokens with
  | [] => exact refuse_takes permitted .identifier
  | token :: rest =>
    by_cases named : ∃ name, token.kind = .identifier name
    · obtain ⟨name, kind⟩ := named
      have permitted := permitted.of_kind kind rfl
      match rest with
      | [] =>
        simp only [names_single, takeIdentifier, kind, Step.bind]
        exact .cons (.done permitted .nil)
      | comma :: others =>
        simp only [names_cons, takeIdentifier, kind, Step.bind]
        split
        next between =>
          have permitted := permitted.of_kind between rfl
          exact .cons (.cons ((names_takes permitted).map fun _ _ _ => .nil).within)
        next => exact .cons (.done permitted .nil)
    · rw [not_exists] at named
      rw [names_refused named]
      exact refuse_takes permitted .identifier
termination_by tokens.length

theorem color_takes (permitted : Permitted taken) (seen : Seen taken [line]) :
    Takes taken tokens Statement.lines (color line tokens) := by
  cases tokens with
  | nil => exact refuse_takes permitted .color
  | cons token rest =>
    simp only [color]
    split
    case h_1 kind | h_2 kind =>
      have permitted := permitted.of_kind kind rfl
      split
      · exact .cons (.done permitted seen.later)
      · exact .cons (.failed permitted seen.later)
    case h_3 => exact refuse_takes permitted .color

theorem randomDeclaration_takes (permitted : Permitted taken) (seen : Seen taken [line])
    (kind : FigureKind) :
    Takes taken tokens Statement.lines (randomDeclaration kind line tokens) := by
  cases tokens with
  | nil => exact refuse_takes permitted .identifier
  | cons token rest =>
    rw [randomDeclaration]
    split
    next many =>
      have permitted := permitted.of_kind many rfl
      refine .cons (Takes.within (.map (takeIdentifier_takes permitted) ?_))
      exact fun _ _ _ => seen.later.later
    next => exact .map (takeIdentifier_takes permitted) fun _ _ _ => seen.later

theorem labelled_takes (permitted : Permitted taken)
    {build : Expr → Option String → Statement} {value : Expr} {source : List Token}
    {L : Statement → List Nat} (seen : ∀ label, Seen taken (L (build value label)))
    (shorter : tokens.length < source.length) :
    Takes taken tokens L (labelled build value tokens shorter) := by
  cases tokens with
  | nil => exact .done permitted (seen none)
  | cons token rest =>
    rw [labelled]
    split
    next kind => exact .cons (.done (permitted.of_kind kind rfl) (seen _).later)
    next => exact .done permitted (seen none)

/-- The parts of the parser that are entered again further on, and what they take. -/
structure Takings (taken tokens : List Token) : Prop where
  unary : Takes taken tokens Expr.lines (unary tokens)
  power : Takes taken tokens Expr.lines (power tokens)
  operand (level : Level) : Takes taken tokens Expr.lines (operand level tokens)
  chain (level : Level) {left : Expr} (seen : Seen taken left.lines) {source : List Token}
    (fewer : tokens.length < source.length) :
    Takes taken tokens Expr.lines (chain level left tokens fewer)
  expression : Takes taken tokens Expr.lines (expression tokens)
  someItems {closing : Sign} (inner : (TokenKind.sign closing).isInner = true) :
    Takes taken tokens Expr.linesOfAll (someItems closing tokens)
  instruction (importsAllowed : Bool) :
    Takes taken tokens Statement.lines (instruction importsAllowed tokens)
  instructions (inside : InBlock taken) :
    Takes taken tokens Statement.linesOfAll (instructions tokens)

/-- What all of them take where there are fewer tokens than the bound. -/
def Fewer (bound : Nat) : Prop :=
  ∀ taken tokens, Permitted taken → tokens.length < bound → Takings taken tokens

section Inner

variable {bound : Nat} (fewer : Fewer bound) (permitted : Permitted taken)
  (fits : tokens.length < bound)

include fewer permitted fits

theorem group_takes (seen : Seen taken [line]) :
    Takes taken tokens Expr.lines (group line tokens) := by
  rw [group]
  refine (fewer _ _ permitted fits).expression.bind fun _ _ _ _ permitted inside => ?_
  refine (takeSign_takes permitted rfl).within.map fun _ _ _ => ?_
  exact .cons seen.later.later inside.later

theorem items_takes {closing : Sign} (inner : (TokenKind.sign closing).isInner = true) :
    Takes taken tokens Expr.linesOfAll (items closing tokens) := by
  have some := (fewer _ _ permitted fits).someItems inner
  cases tokens with
  | nil => simpa only [items] using some
  | cons token rest =>
    rw [items]
    split
    next closed =>
      exact .cons (.done (permitted.of_kind closed inner) .nil)
    next => exact some

theorem constantOrCall_takes (name : String) (seen : Seen taken [line]) {source : List Token}
    (part : tokens.length < source.length) :
    Takes taken tokens Expr.lines (constantOrCall name line tokens part) := by
  cases tokens with
  | nil =>
    rw [constantOrCall]
    exact .done permitted seen
  | cons token rest =>
    rw [constantOrCall]
    split
    next opened =>
      have permitted := permitted.of_kind opened rfl
      have fits := Nat.lt_of_succ_lt fits
      refine .cons ((items_takes fewer permitted fits rfl).within.map ?_)
      exact fun _ _ arguments => .cons seen.later.later arguments
    next => exact .done permitted seen

theorem closedRange_takes (start : Float) (seen : Seen taken [line]) :
    Takes taken tokens Expr.lines (closedRange start line tokens) := by
  rw [closedRange]
  refine (fewer _ _ permitted fits).expression.bind fun _ last _ _ permitted ends => ?_
  split
  next =>
    refine (takeSign_takes permitted rfl).within.map ?_
    exact fun _ _ _ => seen.later.later
  next error refused =>
    exact .failed permitted (bound_line refused ▸ ends.of_mem last.line_mem_lines)

theorem range_takes (start : Float) (seen : Seen taken [line]) :
    Takes taken tokens Expr.lines (range start line tokens) := by
  have closed := closedRange_takes fewer permitted fits start seen
  cases tokens with
  | nil => simpa only [range] using closed
  | cons token rest =>
    rw [range]
    split
    next closing => exact .cons (.done (permitted.of_kind closing rfl) seen.later)
    next => exact closed

theorem someSequence_takes (seen : Seen taken [line]) :
    Takes taken tokens Expr.lines (someSequence line tokens) := by
  rw [someSequence]
  refine (fewer _ _ permitted fits).expression.bind fun _ first rest less permitted begins => ?_
  cases rest with
  | nil => exact (refuse_takes permitted _).within
  | cons token others =>
    have fits : others.length < bound := by
      simp only [List.length_cons] at less
      omega
    dsimp only
    split
    next ellipsis =>
      have permitted := permitted.of_kind ellipsis rfl
      split
      next start _ =>
        exact .cons (range_takes fewer permitted fits start seen.later.later).within
      next error refused =>
        have start := begins.of_mem first.line_mem_lines
        exact .cons (.failed permitted (bound_line refused ▸ start.later))
    split
    next comma =>
      have permitted := permitted.of_kind comma rfl
      refine .cons ((items_takes fewer permitted fits rfl).within.map ?_)
      exact fun _ _ elements =>
        .cons seen.later.later.later (begins.later.later.append elements)
    split
    next closing =>
      have permitted := permitted.of_kind closing rfl
      exact .cons (.done permitted (.cons seen.later.later (begins.later.append .nil)))
    next => exact (refuse_takes permitted _).within

theorem sequence_takes (seen : Seen taken [line]) :
    Takes taken tokens Expr.lines (sequence line tokens) := by
  have some := someSequence_takes fewer permitted fits seen
  cases tokens with
  | nil => simpa only [sequence] using some
  | cons token rest =>
    rw [sequence]
    split
    next closing => exact .cons (.done (permitted.of_kind closing rfl) seen.later)
    next => exact some

theorem conditional_takes (seen : Seen taken [line]) :
    Takes taken tokens Expr.lines (conditional line tokens) := by
  rw [conditional]
  refine (fewer _ _ permitted fits).expression.bind fun _ _ _ less permitted one => ?_
  refine (takeWord_takes permitted .thenWord).within.bind fun _ _ _ less permitted _ => ?_
  refine (fewer _ _ permitted (less.trans fits)).expression.within.bind
    fun _ _ _ less permitted two => ?_
  refine (takeWord_takes permitted .elseWord).within.bind fun _ _ _ less permitted _ => ?_
  refine (fewer _ _ permitted (less.trans fits)).expression.within.map fun _ _ three => ?_
  exact .cons seen.later.later.later.later.later
    (one.later.later.later.later.append (two.later.later.append three))

theorem block_takes (inside : InBlock taken) (seen : Seen taken [line]) :
    Takes taken tokens Expr.lines (block line tokens) := by
  rw [block]
  refine ((fewer _ _ permitted fits).instructions inside).bind
    fun _ _ _ less permitted instructions => ?_
  refine (fewer _ _ permitted (less.trans fits)).expression.within.map fun _ _ body => ?_
  exact .cons seen.later.later (instructions.later.append body)

theorem function_takes (name : String) (arguments : List Expr) (seen : Seen taken [line]) :
    Takes taken tokens Statement.lines (function name arguments line tokens) := by
  rw [function]
  split
  next => exact .failed permitted seen
  next =>
    refine (fewer _ _ permitted fits).expression.bind fun _ body _ _ permitted inside => ?_
    split
    next inner innerLine declared =>
      exact .failed permitted (inside.of_mem (Expr.declaration?_line declared))
    next => exact .done permitted (.cons seen.later inside)

/-- The instructions that draw or print. -/
theorem shown_takes {build : Expr → Option String → Statement}
    (seen : ∀ used value label, Seen (taken ++ used) value.lines →
      Seen (taken ++ used) (build value label).lines)
    {source : List Token} (part : tokens.length < source.length) :
    Takes taken tokens Statement.lines
      (((expression tokens).within part).bind fun value others fewer =>
        labelled build value others fewer) := by
  refine (fewer _ _ permitted fits).expression.within.bind fun used value _ _ permitted inside => ?_
  exact labelled_takes permitted (fun label => seen used value label inside) _

end Inner

section Outer

variable (fewer : Fewer tokens.length) (permitted : Permitted taken)

include fewer permitted

theorem primary_takes : Takes taken tokens Expr.lines (primary tokens) := by
  cases tokens with
  | nil =>
    rw [primary]
    exact .stopped permitted
  | cons token rest =>
    have fits : rest.length < (token :: rest).length := rest_shorter
    rw [primary]
    dsimp only
    split
    case h_1 kind | h_2 kind | h_3 kind | h_4 kind =>
      exact .cons (.done (permitted.of_kind kind rfl) .last)
    case h_5 kind =>
      exact .cons (group_takes fewer (permitted.of_kind kind rfl) fits .last).within
    case h_6 kind =>
      exact .cons (sequence_takes fewer (permitted.of_kind kind rfl) fits .last).within
    case h_7 kind =>
      exact .cons (conditional_takes fewer (permitted.of_kind kind rfl) fits .last).within
    case h_8 kind =>
      have inside : InBlock (taken ++ [token]) := ⟨token, by simp, kind⟩
      exact .cons (block_takes fewer (permitted.of_kind kind rfl) fits inside .last).within
    case h_9 name kind =>
      have permitted := permitted.of_kind kind rfl
      exact .cons (constantOrCall_takes fewer permitted fits name .last _)
    case h_10 figure kind =>
      refine .cons (Takes.bind (.within
        (takeSign_takes (permitted.of_kind kind rfl) rfl)) ?_)
      intro _ _ others less permitted _
      refine (items_takes fewer permitted less rfl).within.map ?_
      exact fun _ _ arguments => .cons (.later (.later .last)) arguments
    case h_11 => exact .refused permitted rfl

theorem unary_takes : Takes taken tokens Expr.lines (unary tokens) := by
  have primary := primary_takes fewer permitted
  cases tokens with
  | nil => simpa only [unary] using primary
  | cons token rest =>
    rw [unary]
    split
    case h_1 kind | h_2 kind =>
      have permitted := permitted.of_kind kind rfl
      refine .cons ((fewer _ _ permitted rest_shorter).unary.within.map ?_)
      exact fun _ _ operand => .cons (.later .last) operand
    case h_3 => exact primary

theorem power_takes : Takes taken tokens Expr.lines (power tokens) := by
  rw [power]
  refine (unary_takes fewer permitted).bind fun _ _ rest less permitted base => ?_
  cases rest with
  | nil => exact .done permitted base
  | cons token others =>
    dsimp only
    split
    next caret =>
      have permitted := permitted.of_kind caret rfl
      refine .cons ((fewer _ _ permitted (Nat.lt_of_succ_lt less)).power.within.map ?_)
      exact fun _ _ exponent => .cons (.later .last) (base.later.later.append exponent)
    next => exact .done permitted base

theorem chain_takes (level : Level) {left : Expr} (seen : Seen taken left.lines)
    {source : List Token} (part : tokens.length < source.length) :
    Takes taken tokens Expr.lines (chain level left tokens part) := by
  cases tokens with
  | nil =>
    rw [chain]
    exact .done permitted seen
  | cons token rest =>
    rw [chain]
    split
    next => exact .done permitted seen
    next op found =>
      have sign : token.kind = .sign op.sign := by simpa using List.find?_some found
      have inner : (TokenKind.sign op.sign).isInner = true := by cases op <;> rfl
      have permitted := permitted.of_kind sign inner
      refine .cons (((fewer _ _ permitted rest_shorter).operand level).andThen ?_)
      intro _ right others less permitted inside
      have joined : Seen _ (Expr.binary op left right token.line).lines :=
        .cons (.later .last) (seen.later.later.append inside)
      exact (fewer _ _ permitted (Nat.lt_succ_of_lt less)).chain level joined _

omit permitted in
theorem leftAssociative_takes {level : Level}
    (operands : Takes taken tokens Expr.lines (operand level tokens)) :
    Takes taken tokens Expr.lines (leftAssociative level tokens) := by
  rw [leftAssociative]
  refine operands.bind fun _ _ rest less permitted left => ?_
  exact (fewer _ _ permitted less).chain level left less

/-- The tightest level first, and then each level from the next tighter one. -/
theorem operand_takes (level : Level) :
    Takes taken tokens Expr.lines (operand level tokens) := by
  rw [operand]
  split
  next next tighter =>
    have closer := Level.depth_tighter tighter
    exact leftAssociative_takes fewer (operand_takes next)
  next => exact power_takes fewer permitted
termination_by level.depth
decreasing_by assumption

theorem expression_takes : Takes taken tokens Expr.lines (expression tokens) := by
  rw [expression]
  exact leftAssociative_takes fewer (operand_takes fewer permitted .logical)

theorem someItems_takes {closing : Sign} (inner : (TokenKind.sign closing).isInner = true) :
    Takes taken tokens Expr.linesOfAll (someItems closing tokens) := by
  rw [someItems]
  refine (expression_takes fewer permitted).bind fun _ _ rest less permitted first => ?_
  cases rest with
  | nil => exact (refuse_takes permitted _).within
  | cons token others =>
    dsimp only
    split
    next comma =>
      have permitted := permitted.of_kind comma rfl
      refine .cons (((fewer _ _ permitted (Nat.lt_of_succ_lt less)).someItems inner).within.map ?_)
      exact fun _ _ others => first.later.later.append others
    split
    next closed =>
      have permitted := permitted.of_kind closed inner
      exact .cons (.done permitted (first.later.append .nil))
    next => exact (refuse_takes permitted _).within

theorem valueOrFunction_takes {rest : List Token} (whole : tokens = token :: rest) :
    Takes taken tokens Statement.lines (valueOrFunction token.line tokens) := by
  have begun := expression_takes fewer permitted
  subst whole
  rw [valueOrFunction]
  refine begun.first.bind fun _ value others less permitted seen => ?_
  cases others with
  | nil => exact .done permitted seen
  | cons equals others =>
    dsimp only
    split
    next declares =>
      split
      next name arguments line =>
        have permitted := permitted.of_kind declares rfl
        have called : Seen _ [line] := seen.of_mem (by simp [Expr.lines])
        exact .cons (function_takes fewer permitted (Nat.lt_of_succ_lt less) name arguments
          called.later).within
      next => exact .done permitted seen
    next => exact .done permitted seen

theorem instruction_takes (importsAllowed : Bool) :
    Takes taken tokens Statement.lines (instruction importsAllowed tokens) := by
  cases tokens with
  | nil =>
    rw [instruction]
    exact .stopped permitted
  | cons token rest =>
    have fits : rest.length < (token :: rest).length := rest_shorter
    have whole := valueOrFunction_takes fewer permitted (rfl : token :: rest = token :: rest)
    rw [instruction]
    split
    case h_1 kind figure =>
      split
      · exact whole
      · exact .cons (randomDeclaration_takes (permitted.of_kind figure rfl) .last _).within
    case h_2 kind =>
      split
      · have permitted := permitted.of_kind kind rfl
        refine .cons ((takeString_takes permitted _).within.map (L := noLines) ?_)
        exact fun _ _ _ => .later .last
      · exact .refused permitted rfl
    case h_3 kind | h_4 kind =>
      refine .cons (shown_takes fewer (permitted.of_kind kind rfl) fits ?_ _)
      exact fun _ _ _ value => .cons (.later .last) value
    case h_5 kind =>
      exact .cons (color_takes (permitted.of_kind kind rfl) .last).within
    case h_6 kind => exact .cons (.done (permitted.of_kind kind rfl) .last)
    case h_7 name kind =>
      split
      next =>
        refine (names_takes permitted).first.bind fun _ _ _ less permitted seen => ?_
        refine (takeSign_takes permitted rfl).within.bind fun _ _ _ less permitted _ => ?_
        refine (fewer _ _ permitted less).expression.within.map fun _ _ value => ?_
        exact .cons seen.later.later value
      split
      next second =>
        have permitted := permitted.of_kind kind rfl
        cases rest with
        | nil => cases second
        | cons equals others =>
          have permitted := permitted.of_kind (Option.some.inj second) rfl
          have takings := fewer _ others permitted (Nat.lt_succ_of_lt rest_shorter)
          refine .cons (.cons (takings.expression.within.map ?_))
          exact fun _ _ value => .cons (.later (.later .last)) value
      next => exact whole
    case h_8 => exact whole

theorem instructions_takes (inside : InBlock taken) :
    Takes taken tokens Statement.linesOfAll (instructions tokens) := by
  rw [instructions]
  refine (instruction_takes fewer permitted false).bind fun _ _ _ less permitted first => ?_
  -- The only semicolon that is ever taken: the word that began the block was taken before it.
  refine (takeSemicolon_takes permitted inside.later).within.bind
    fun _ _ rest less permitted _ => ?_
  cases rest with
  | nil => exact .stopped permitted
  | cons token others =>
    dsimp only
    split
    next last =>
      have permitted := permitted.of_kind last rfl
      exact .cons (.done permitted (first.later.later.append .nil))
    next =>
      refine ((fewer _ _ permitted less).instructions inside.later.later).within.map ?_
      exact fun _ _ others => first.later.later.append others

end Outer

theorem fewer_of_le (bound : Nat) : Fewer bound := by
  induction bound with
  | zero => exact fun _ _ _ fits => absurd fits (Nat.not_lt_zero _)
  | succ bound ih =>
    intro taken tokens permitted fits
    have fewer : Fewer tokens.length := fun taken rest permitted less =>
      ih taken rest permitted (less.trans_le (Nat.le_of_lt_succ fits))
    exact
      { unary := unary_takes fewer permitted
        power := power_takes fewer permitted
        operand := operand_takes fewer permitted
        chain := fun level _ seen _ => chain_takes fewer permitted level seen
        expression := expression_takes fewer permitted
        someItems := someItems_takes fewer permitted
        instruction := instruction_takes fewer permitted
        instructions := instructions_takes fewer permitted }

/-- What every part of the parser takes. -/
theorem takings (permitted : Permitted taken) (tokens : List Token) : Takings taken tokens :=
  fewer_of_le (tokens.length + 1) taken tokens permitted (Nat.lt_succ_self _)

end Parse

end GSharp
