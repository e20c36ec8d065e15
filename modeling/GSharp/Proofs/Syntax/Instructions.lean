import GSharp.Proofs.Syntax.Operands

namespace GSharp

/-- Neither a comma nor an equals sign follows a name that comes first. -/
def Unassigned (token : Token) (others : List Token) : Prop :=
  ∀ name, token.kind = .identifier name →
    ∀ next ∈ others.head?, next.kind ≠ .sign .comma ∧ next.kind ≠ .sign .equals

namespace Parse

open Step Step.Reads

variable {tokens middle rest : List Token} {line : Nat} {statement : Statement}

/-- The forms of an instruction without its semicolon. The first two tokens tell an assignment, a
random declaration and a word of its own from an expression, which an equals sign may turn into a
declaration. -/
inductive Instructed (importsAllowed : Bool) : List Token → Statement → List Token → Prop where
  | expression {token : Token} {others rest : List Token} {value : Expr}
      (unassigned : Unassigned token others)
      (reads : (atRank 0 (token :: others)).Reads value rest)
      (undeclared : ∀ name arguments line, value = .call name arguments line →
        ∀ next ∈ rest.head?, next.kind ≠ .sign .equals) :
      Instructed importsAllowed (token :: others) (.expression value token.line) rest
  | assign {token equals : Token} {others rest : List Token} {name : String} {value : Expr}
      (kind : token.kind = .identifier name) (equalsKind : equals.kind = .sign .equals)
      (reads : (atRank 0 others).Reads value rest) :
      Instructed importsAllowed (token :: equals :: others) (.assign name value token.line) rest
  | assignMany {token equals : Token} {others middle rest : List Token} {names : List String}
      {value : Expr} (several : 2 ≤ names.length)
      (spans : Spans (Mark.names names) (token :: others) (equals :: middle))
      (equalsKind : equals.kind = .sign .equals) (reads : (atRank 0 middle).Reads value rest) :
      Instructed importsAllowed (token :: others) (.assignMany names value token.line) rest
  | function {token equals : Token} {others middle rest : List Token} {name : String}
      {arguments : List Expr} {parameters : List String} {line : Nat} {body : Expr}
      (unassigned : Unassigned token others)
      (reads : (atRank 0 (token :: others)).Reads (.call name arguments line) (equals :: middle))
      (equalsKind : equals.kind = .sign .equals)
      (named : Expr.bareAll arguments = parameters.map (.constant · 0))
      (distinct : parameters.Nodup) (bodyReads : (atRank 0 middle).Reads body rest)
      (flat : ∀ inner ∈ body.instructions, inner.isFunction = false) :
      Instructed importsAllowed (token :: others) (.function name parameters body line) rest
  | importFile {token file : Token} {rest : List Token} {path : String}
      (allowed : importsAllowed = true) (kind : token.kind = .keyword .importWord)
      (fileKind : file.kind = .string path) :
      Instructed importsAllowed (token :: file :: rest) (.importFile path token.line) rest
  | draw {token : Token} {others middle rest : List Token} {value : Expr} {label : Option String}
      (kind : token.kind = .keyword .draw) (reads : (atRank 0 others).Reads value middle)
      (labels : Spans (Mark.label label) middle rest)
      (unlabelled : label = none → ∀ next ∈ rest.head?, ∀ text, next.kind ≠ .string text) :
      Instructed importsAllowed (token :: others) (.draw value label token.line) rest
  | print {token : Token} {others middle rest : List Token} {value : Expr} {label : Option String}
      (kind : token.kind = .keyword .print) (reads : (atRank 0 others).Reads value middle)
      (labels : Spans (Mark.label label) middle rest)
      (unlabelled : label = none → ∀ next ∈ rest.head?, ∀ text, next.kind ≠ .string text) :
      Instructed importsAllowed (token :: others) (.print value label token.line) rest
  | color {token : Token} {others rest : List Token} {named : Color}
      (kind : token.kind = .keyword .color) (spans : Spans [.colorName named] others rest) :
      Instructed importsAllowed (token :: others) (.color named token.line) rest
  | restore {token : Token} {rest : List Token} (kind : token.kind = .keyword .restore) :
      Instructed importsAllowed (token :: rest) (.restore token.line) rest
  | random {token : Token} {others rest : List Token} {figure : FigureKind} {isSequence : Bool}
      {name : String} (kind : token.kind = .figure figure) (uncalled : Uncalled others)
      (spans : Spans ((if isSequence then [.word .sequence] else []) ++ [.name name])
        others rest) :
      Instructed importsAllowed (token :: others) (.random figure isSequence name token.line) rest

theorem function_iff {name : String} {arguments : List Expr} :
    (function name arguments line tokens).Reads statement rest ↔
      ∃ parameters body, statement = .function name parameters body line ∧
        Expr.bareAll arguments = parameters.map (.constant · 0) ∧ parameters.Nodup ∧
        (atRank 0 tokens).Reads body rest ∧
        ∀ inner ∈ body.instructions, inner.isFunction = false := by
  rw [function.eq_def]
  constructor
  · intro reads
    cases found : Parse.parameters name [] arguments with
    | error fault => simp [found] at reads
    | ok parameters =>
      obtain ⟨named, distinct, _⟩ := parameters_eq_ok.mp found
      simp only [found, expression_eq, bind_iff] at reads
      obtain ⟨body, middle, shorter, bodyReads, following⟩ := reads
      cases declared : body.declaration? with
      | some inner => simp [declared] at following
      | none =>
        simp only [declared, ok_iff] at following
        obtain ⟨rfl, rfl⟩ := following
        exact ⟨parameters, body, rfl, named, distinct, bodyReads,
          body.declaration?_eq_none.mp declared⟩
  · intro rule
    obtain ⟨parameters, body, rfl, named, distinct, bodyReads, flat⟩ := rule
    have found : Parse.parameters name [] arguments = .ok parameters :=
      parameters_eq_ok.mpr ⟨named, distinct, by simp⟩
    simp only [found, expression_eq, bind_iff]
    exact ⟨body, rest, bodyReads.shorter, bodyReads,
      by simp [body.declaration?_eq_none.mpr flat]⟩

theorem valueOrFunction_instructed {importsAllowed : Bool} {token : Token} {others : List Token}
    (unassigned : Unassigned token others)
    (reads : (valueOrFunction token.line (token :: others)).Reads statement rest) :
    Instructed importsAllowed (token :: others) statement rest := by
  rw [valueOrFunction, expression_eq, bind_iff] at reads
  obtain ⟨value, middle, shorter, valueReads, following⟩ := reads
  cases middle with
  | nil =>
    obtain ⟨rfl, rfl⟩ := ok_iff.mp following
    exact .expression unassigned valueReads (by simp)
  | cons equals middle =>
    dsimp only at following
    split at following
    · next equalsKind =>
      split at following
      · next name arguments line _ =>
        rw [within_iff, function_iff] at following
        obtain ⟨parameters, body, rfl, named, distinct, bodyReads, flat⟩ := following
        exact .function unassigned valueReads equalsKind named distinct bodyReads flat
      · next uncalled =>
        obtain ⟨rfl, rfl⟩ := ok_iff.mp following
        exact .expression unassigned valueReads
          fun name arguments line same => (uncalled name arguments line same).elim
    · next undeclared =>
      obtain ⟨rfl, rfl⟩ := ok_iff.mp following
      exact .expression unassigned valueReads (by simpa using fun _ _ _ _ => undeclared)

/-- A comma after the first name tells that there are several. -/
theorem several_names_iff {names : List String} {token equals : Token} {others : List Token}
    (spans : Spans (Mark.names names) (token :: others) (equals :: middle))
    (equalsKind : equals.kind = .sign .equals) :
    2 ≤ names.length ↔
      names ≠ [] ∧ others.head?.map Token.kind = some (.sign .comma) := by
  match names with
  | [] => simp
  | [name] =>
    obtain ⟨_, same⟩ := Spans.token_cons_iff.mp spans
    obtain rfl := Spans.nil_iff.mp same
    simp [equalsKind]
  | name :: next :: more =>
    obtain ⟨_, others⟩ := Spans.token_cons_iff.mp spans
    obtain ⟨comma, _, rfl, kind, _⟩ := Spans.token_iff.mp others
    simp [kind]

theorem instruction_instructed {importsAllowed : Bool}
    (reads : (instruction importsAllowed tokens).Reads statement rest) :
    Instructed importsAllowed tokens statement rest := by
  rw [instruction.eq_def] at reads
  cases tokens with
  | nil => simp at reads
  | cons token others =>
    dsimp only at reads
    split at reads
    · next figure kind =>
      split at reads
      · exact valueOrFunction_instructed (by simp [Unassigned, kind]) reads
      · next uncalled =>
        rw [within_iff, randomDeclaration_iff] at reads
        obtain ⟨isSequence, name, rfl, spans⟩ := reads
        exact .random kind (by simpa [Uncalled] using uncalled) spans
    · next kind =>
      split at reads
      · next allowed =>
        simp only [map_iff, within_iff, takeString_iff] at reads
        obtain ⟨path, spans, rfl⟩ := reads
        obtain ⟨file, middle, rfl, fileKind, spans⟩ := Spans.token_iff.mp spans
        obtain rfl := Spans.nil_iff.mp spans
        exact .importFile allowed kind fileKind
      · simp at reads
    · next kind =>
      simp only [expression_eq, bind_iff, within_iff, labelled_iff] at reads
      obtain ⟨value, middle, _, valueReads, label, rfl, labels, unlabelled⟩ := reads
      exact .draw kind valueReads labels unlabelled
    · next kind =>
      simp only [expression_eq, bind_iff, within_iff, labelled_iff] at reads
      obtain ⟨value, middle, _, valueReads, label, rfl, labels, unlabelled⟩ := reads
      exact .print kind valueReads labels unlabelled
    · next kind =>
      rw [within_iff, color_iff] at reads
      obtain ⟨named, rfl, spans⟩ := reads
      exact .color kind spans
    · next kind =>
      obtain ⟨rfl, rfl⟩ := ok_iff.mp reads
      exact .restore kind
    · next name kind =>
      split at reads
      · next second =>
        simp only [expression_eq, bind_iff, map_iff, within_iff, names_iff, takeSign_iff] at reads
        obtain ⟨names, _, _, ⟨some, spans, _⟩, equals, middle, _, ⟨rfl, equalsKind⟩, value,
          valueReads, rfl⟩ := reads
        have several := (several_names_iff spans equalsKind).mpr ⟨some, second⟩
        exact .assignMany several spans equalsKind valueReads
      · next noComma =>
        split at reads
        · next second =>
          simp only [expression_eq, map_iff, within_iff] at reads
          obtain ⟨value, valueReads, rfl⟩ := reads
          cases others with
          | nil => simp at second
          | cons equals others => exact .assign kind (by simpa using second) valueReads
        · next noEquals =>
          refine valueOrFunction_instructed ?_ reads
          intro name _ next first
          simp only [Option.mem_def] at first
          simp only [first, Option.map_some, Option.some.injEq] at noComma noEquals
          exact ⟨noComma, noEquals⟩
    · next unnamed =>
      exact valueOrFunction_instructed (fun name kind => (unnamed name kind).elim) reads

/-- The token and the one after it leave no other reading than as an expression. -/
theorem instruction_eq_valueOrFunction {importsAllowed : Bool} {token : Token}
    {others : List Token} (unassigned : Unassigned token others)
    (leads : Leads (token :: others) rest) :
    instruction importsAllowed (token :: others) =
      valueOrFunction token.line (token :: others) := by
  obtain ⟨_, _, same, leads, _, called⟩ := leads
  cases same
  rw [instruction.eq_def]
  dsimp only
  split
  case h_1 figure kind =>
    obtain ⟨opening, first, opens⟩ := called figure kind
    rw [Option.mem_def] at first
    simp [first, opens]
  case h_7 name kind =>
    cases others with
    | nil => simp
    | cons next others =>
      obtain ⟨noComma, noEquals⟩ := unassigned name kind next rfl
      simp [noComma, noEquals]
  case h_8 => rfl
  case h_2 kind | h_3 kind | h_4 kind | h_5 kind | h_6 kind =>
    simp [kind, TokenKind.leads] at leads

theorem Instructed.reads {importsAllowed : Bool}
    (rule : Instructed importsAllowed tokens statement rest) :
    (instruction importsAllowed tokens).Reads statement rest := by
  cases rule with
  | @expression token others _ value unassigned reads undeclared =>
    rw [instruction_eq_valueOrFunction unassigned (expression_leads reads),
      valueOrFunction, expression_eq, bind_iff]
    refine ⟨value, rest, reads.shorter, reads, ?_⟩
    cases rest with
    | nil => simp
    | cons equals rest =>
      dsimp only
      split
      · next equalsKind =>
        split
        · next name arguments line =>
          exact absurd equalsKind (undeclared name arguments line rfl equals rfl)
        · simp
      · simp
  | @function token equals others middle _ name arguments parameters line body unassigned reads
      equalsKind named distinct bodyReads flat =>
    rw [instruction_eq_valueOrFunction unassigned (expression_leads reads),
      valueOrFunction, expression_eq, bind_iff]
    refine ⟨_, _, reads.shorter, reads, ?_⟩
    simp only [equalsKind, if_true, within_iff, function_iff]
    exact ⟨parameters, body, rfl, named, distinct, bodyReads, flat⟩
  | @assign token equals others _ name value kind equalsKind reads =>
    rw [instruction.eq_def]
    have second : (equals :: others).head?.map Token.kind = some (.sign .equals) := by
      simp [equalsKind]
    simp only [kind, second, Option.some.injEq, TokenKind.sign.injEq, reduceCtorEq, if_false,
      if_true, List.tail_cons, expression_eq, map_iff]
    exact ⟨value, within_iff.mpr reads, rfl⟩
  | @assignMany token equals others middle _ names value several spans equalsKind reads =>
    obtain ⟨some, second⟩ := (several_names_iff spans equalsKind).mp several
    have kind : ∃ name, token.kind = .identifier name := by
      rcases names with _ | ⟨name, _ | ⟨next, more⟩⟩
      · simp at several
      · simp at several
      · obtain ⟨kind, _⟩ := Spans.token_cons_iff.mp spans
        exact ⟨name, kind⟩
    obtain ⟨name, kind⟩ := kind
    have read : (Parse.names (token :: others)).Reads names (equals :: middle) :=
      (names_iff _).mpr ⟨some, spans, by simp [equalsKind]⟩
    have shorter := read.shorter
    rw [instruction.eq_def]
    simp only [kind, second, if_true, expression_eq, bind_iff, map_iff, within_iff, takeSign_iff]
    simp only [List.length_cons] at shorter ⊢
    exact ⟨names, _, by simpa using shorter, read, equals, middle, by omega, ⟨rfl, equalsKind⟩,
      value, reads, rfl⟩
  | importFile allowed kind fileKind =>
    rw [instruction.eq_def]
    simp [kind, allowed, fileKind]
  | draw kind reads labels unlabelled =>
    rw [instruction.eq_def]
    simp only [kind, expression_eq, bind_iff, within_iff, labelled_iff]
    exact ⟨_, _, Nat.lt_succ_of_lt reads.shorter, reads, _, rfl, labels, unlabelled⟩
  | print kind reads labels unlabelled =>
    rw [instruction.eq_def]
    simp only [kind, expression_eq, bind_iff, within_iff, labelled_iff]
    exact ⟨_, _, Nat.lt_succ_of_lt reads.shorter, reads, _, rfl, labels, unlabelled⟩
  | color kind spans =>
    rw [instruction.eq_def]
    simp only [kind, within_iff, color_iff]
    exact ⟨_, rfl, spans⟩
  | restore kind =>
    rw [instruction.eq_def]
    simp [kind]
  | @random token others _ figure isSequence name kind uncalled spans =>
    rw [instruction.eq_def]
    have second : others.head?.map Token.kind ≠ some (.sign .leftParen) := by
      simpa [Uncalled] using uncalled
    simp only [kind, second, if_false, within_iff, randomDeclaration_iff]
    exact ⟨isSequence, name, rfl, spans⟩

theorem instruction_iff {importsAllowed : Bool} :
    (instruction importsAllowed tokens).Reads statement rest ↔
      Instructed importsAllowed tokens statement rest :=
  ⟨instruction_instructed, Instructed.reads⟩

theorem Instructed.begins {importsAllowed : Bool}
    (rule : Instructed importsAllowed tokens statement rest) :
    ∃ token others, tokens = token :: others ∧ token.kind ≠ .keyword .inWord ∧
      token.kind ≠ .endOfInput := by
  cases rule with
  | expression _ reads | function _ reads =>
    obtain ⟨token, others, same, leads, _⟩ := expression_leads reads
    exact ⟨token, others, same, TokenKind.ne_of_leads leads rfl, TokenKind.ne_of_leads leads rfl⟩
  | @assignMany _ _ _ _ _ names _ several spans =>
    match names with
    | name :: next :: more =>
      obtain ⟨kind, _⟩ := Spans.token_cons_iff.mp spans
      exact ⟨_, _, rfl, by simp [kind], by simp [kind]⟩
  | assign kind | importFile _ kind | draw kind | print kind | color kind | restore kind
  | random kind => exact ⟨_, _, rfl, by simp [kind], by simp [kind]⟩

theorem Instructed.isImport {importsAllowed : Bool} {token : Token} {others : List Token}
    (rule : Instructed importsAllowed (token :: others) statement rest)
    (word : token.kind = .keyword .importWord) : statement.isImport = true := by
  cases rule with
  | importFile => rfl
  | expression _ reads | function _ reads =>
    obtain ⟨_, _, same, leads, _⟩ := expression_leads reads
    cases same
    exact absurd word (TokenKind.ne_of_leads leads rfl)
  | @assignMany _ _ _ _ _ names _ several spans =>
    match names with
    | name :: next :: more =>
      obtain ⟨kind, _⟩ := Spans.token_cons_iff.mp spans
      simp [word] at kind
  | assign kind | draw kind | print kind | color kind | restore kind | random kind =>
    simp [word] at kind

/-- Instructions of a block, each with its semicolon, and the word that ends them. -/
inductive Body : List Token → List Statement → List Token → Prop where
  | last {tokens rest : List Token} {last : Statement} {semicolon word : Token}
      (rule : Instructed false tokens last (semicolon :: word :: rest))
      (ends : semicolon.kind = .sign .semicolon) (kind : word.kind = .keyword .inWord) :
      Body tokens [last] rest
  | more {tokens others rest : List Token} {first : Statement} {more : List Statement}
      {semicolon : Token} (rule : Instructed false tokens first (semicolon :: others))
      (ends : semicolon.kind = .sign .semicolon) (body : Body others more rest) :
      Body tokens (first :: more) rest

theorem instructions_body {statements : List Statement} {tokens : List Token}
    (reads : (instructions tokens).Reads statements rest) : Body tokens statements rest := by
  rw [instructions] at reads
  simp only [bind_iff, within_iff, takeSign_iff] at reads
  obtain ⟨first, _, shorter, firstReads, semicolon, middle, fewer, ⟨rfl, ends⟩, following⟩ := reads
  have rule := instruction_iff.mp firstReads
  cases middle with
  | nil => simp at following
  | cons token others =>
    dsimp only at following
    split at following
    · next kind =>
      obtain ⟨rfl, rfl⟩ := ok_iff.mp following
      exact .last rule ends kind
    · simp only [map_iff, within_iff] at following
      obtain ⟨more, moreReads, rfl⟩ := following
      exact .more rule ends (instructions_body moreReads)
  termination_by tokens.length

theorem Body.begins {statements : List Statement} (body : Body tokens statements rest) :
    ∃ token others, tokens = token :: others ∧ token.kind ≠ .keyword .inWord := by
  cases body with
  | last rule | more rule =>
    obtain ⟨token, others, same, noWord, _⟩ := rule.begins
    exact ⟨token, others, same, noWord⟩

theorem Body.reads {statements : List Statement} (body : Body tokens statements rest) :
    (instructions tokens).Reads statements rest := by
  induction body with
  | last rule ends kind =>
    have reads := rule.reads
    have shorter := reads.shorter
    rw [instructions]
    simp only [bind_iff, within_iff, takeSign_iff]
    simp only [List.length_cons] at shorter
    exact ⟨_, _, reads.shorter, reads, _, _, by simp only [List.length_cons]; omega, ⟨rfl, ends⟩,
      by simp [kind]⟩
  | more rule ends body ih =>
    have reads := rule.reads
    have shorter := reads.shorter
    obtain ⟨token, others, rfl, noWord⟩ := body.begins
    rw [instructions]
    simp only [bind_iff, within_iff, takeSign_iff]
    simp only [List.length_cons] at shorter
    exact ⟨_, _, reads.shorter, reads, _, _, by simp only [List.length_cons]; omega, ⟨rfl, ends⟩,
      by simpa [noWord] using ih⟩

theorem instructions_iff {statements : List Statement} :
    (instructions tokens).Reads statements rest ↔ Body tokens statements rest :=
  ⟨instructions_body, Body.reads⟩

/-- Instructions of a program up to the end of input, imports before all others. -/
inductive Accepted : Bool → List Token → Program → List Token → Prop where
  | done {importsAllowed : Bool} {rest : List Token}
      (ends : ∀ token ∈ rest.head?, token.kind = .endOfInput) :
      Accepted importsAllowed rest [] rest
  | more {importsAllowed : Bool} {token semicolon : Token} {others middle rest : List Token}
      {first : Statement} {program : Program}
      (rule : Instructed (importsAllowed && token.kind = .keyword .importWord) (token :: others)
        first (semicolon :: middle))
      (ends : semicolon.kind = .sign .semicolon)
      (accepted : Accepted (importsAllowed && token.kind = .keyword .importWord) middle program
        rest) :
      Accepted importsAllowed (token :: others) (first :: program) rest

/-- An instruction and its semicolon. -/
def terminated (importsAllowed : Bool) (tokens : List Token) : Step Statement tokens :=
  (instruction importsAllowed tokens).bind fun statement others shorter =>
    ((takeSign .semicolon others).within shorter).map fun _ => statement

theorem terminated_iff {importsAllowed : Bool} :
    (terminated importsAllowed tokens).Reads statement rest ↔
      ∃ semicolon, Instructed importsAllowed tokens statement (semicolon :: rest) ∧
        semicolon.kind = .sign .semicolon := by
  simp only [terminated, bind_iff, map_iff, within_iff, takeSign_iff, instruction_iff]
  constructor
  · intro reads
    obtain ⟨_, _, shorter, rule, semicolon, ⟨rfl, ends⟩, rfl⟩ := reads
    exact ⟨semicolon, rule, ends⟩
  · intro reads
    obtain ⟨semicolon, rule, ends⟩ := reads
    exact ⟨statement, _, rule.reads.shorter, rule, semicolon, ⟨rfl, ends⟩, rfl⟩

theorem ofTokens_cons {importsAllowed : Bool} {token : Token} {others : List Token}
    (more : token.kind ≠ .endOfInput) :
    Parsed.ofTokens importsAllowed (token :: others) =
      let importsAllowed := importsAllowed && token.kind = .keyword .importWord
      match terminated importsAllowed (token :: others) with
      | .ok statement rest _ =>
        let after := Parsed.ofTokens importsAllowed rest
        { after with program := statement :: after.program }
      | .fail error rest _ =>
        let after := Parsed.ofTokens importsAllowed (recover rest)
        { after with errors := error :: after.errors } := by
  rw [Parsed.ofTokens.eq_def]
  simp only [more, dite_false]
  rfl

/-- Wherever an instruction failed, recovery leaves fewer tokens. -/
theorem length_recover_lt_of_bounded {token : Token} {others left : List Token}
    (more : token.kind ≠ .endOfInput)
    (bounded : left = token :: others ∨ left.length < (token :: others).length) :
    (recover left).length < (token :: others).length := by
  rcases bounded with same | shorter
  · exact same ▸ length_recover_lt more
  · exact Nat.lt_of_le_of_lt (length_recover_le left) shorter

/-- A program is read instruction by instruction, whatever is skipped in between. Once an
instruction has begun with another word, imports are allowed no more. -/
theorem ofTokens_induction {motive : Bool → Program → Prop} (none : ∀ allowed, motive allowed [])
    (more : ∀ allowed token others statement rest program,
      Instructed (allowed && token.kind = .keyword .importWord) (token :: others) statement rest →
      motive (allowed && token.kind = .keyword .importWord) program →
      motive allowed (statement :: program))
    (skipped : ∀ allowed (imports : Bool) program, motive (allowed && imports) program →
      motive allowed program)
    (allowed : Bool) (tokens : List Token) :
    motive allowed (Parsed.ofTokens allowed tokens).program := by
  cases tokens with
  | nil =>
    rw [Parsed.ofTokens.eq_def]
    exact none allowed
  | cons token others =>
    by_cases ends : token.kind = .endOfInput
    · rw [Parsed.ofTokens.eq_def]
      simpa only [ends, dite_true] using none allowed
    · rw [ofTokens_cons ends]
      cases step : terminated (allowed && token.kind = .keyword .importWord)
        (token :: others) with
      | ok statement left shorter =>
        obtain ⟨_, rule, _⟩ := terminated_iff.mp ⟨shorter, step⟩
        simp only [step]
        exact more _ _ _ _ _ _ rule (ofTokens_induction none more skipped _ left)
      | fail error left bounded =>
        have fewer := length_recover_lt_of_bounded ends bounded
        simp only [step]
        exact skipped _ _ _ (ofTokens_induction none more skipped _ (recover left))
  termination_by tokens.length
  decreasing_by
  · exact shorter
  · exact fewer

theorem ofTokens_accepted {importsAllowed : Bool} {tokens : List Token}
    (noErrors : (Parsed.ofTokens importsAllowed tokens).errors = []) :
    ∃ rest, Accepted importsAllowed tokens (Parsed.ofTokens importsAllowed tokens).program rest := by
  cases tokens with
  | nil =>
    rw [Parsed.ofTokens.eq_def]
    exact ⟨[], .done (by simp)⟩
  | cons token others =>
    by_cases more : token.kind = .endOfInput
    · rw [Parsed.ofTokens.eq_def]
      simp only [more, dite_true]
      exact ⟨token :: others, .done (by simpa using more)⟩
    · rw [ofTokens_cons more] at noErrors ⊢
      cases step : terminated (importsAllowed && token.kind = .keyword .importWord)
        (token :: others) with
      | fail error left bounded => simp [step] at noErrors
      | ok statement left shorter =>
        simp only [step] at noErrors ⊢
        obtain ⟨semicolon, rule, ends⟩ := terminated_iff.mp ⟨shorter, step⟩
        obtain ⟨rest, accepted⟩ := ofTokens_accepted noErrors
        exact ⟨rest, .more rule ends accepted⟩
  termination_by tokens.length

theorem Accepted.ofTokens_eq {importsAllowed : Bool} {program : Program}
    (accepted : Accepted importsAllowed tokens program rest) :
    Parsed.ofTokens importsAllowed tokens = ⟨program, []⟩ := by
  induction accepted with
  | @done _ rest ends =>
    rw [Parsed.ofTokens.eq_def]
    cases rest with
    | nil => rfl
    | cons token others => simp [ends token rfl]
  | more rule ends _ ih =>
    obtain ⟨_, _, same, _, more⟩ := rule.begins
    cases same
    obtain ⟨shorter, step⟩ := terminated_iff.mpr ⟨_, rule, ends⟩
    rw [ofTokens_cons more]
    simp only [step, ih]

end Parse

end GSharp
