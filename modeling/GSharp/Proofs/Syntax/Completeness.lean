import GSharp.Proofs.Syntax.Soundness

namespace GSharp

/-- Whether the token can only come after an expression. -/
def TokenKind.closes : TokenKind → Bool
  | .sign closing => closing = .rightParen || closing = .rightBrace || closing = .comma ||
      closing = .semicolon || closing = .ellipsis || closing = .equals
  | .keyword _ | .string _ => true
  | _ => false

theorem Stops.of_closes {rank : Nat} {token : Token} {rest : List Token}
    (closes : token.kind.closes = true) : Stops rank (token :: rest) := by
  refine Stops.cons_iff.mpr ?_
  intro op kind
  rw [kind] at closes
  cases op <;> simp [TokenKind.closes, BinaryOperator.sign] at closes

theorem Uncalled.of_kind {token : Token} {rest : List Token}
    (kind : token.kind ≠ .sign .leftParen) : Uncalled (token :: rest) := by
  simpa [Uncalled] using kind

theorem Uncalled.of_operator {op : BinaryOperator} {token : Token} {rest : List Token}
    (kind : token.kind = .sign op.sign) : Uncalled (token :: rest) := by
  refine Uncalled.of_kind ?_
  rw [kind]
  cases op <;> simp [BinaryOperator.sign]

theorem Uncalled.of_closes {token : Token} {rest : List Token}
    (closes : token.kind.closes = true) : Uncalled (token :: rest) := by
  refine Uncalled.of_kind ?_
  intro kind
  simp [kind, TokenKind.closes] at closes

namespace Parse

variable {rank goal : Nat} {tokens middle rest : List Token} {expr : Expr}

/-- An expression is read up to the rest, where joining at its level could go on. -/
inductive Reached (rank : Nat) (tokens : List Token) : Expr → List Token → Prop where
  | joined {first expr : Expr} {middle rest : List Token} (level : rank < 5)
      (reads : (atRank (rank + 1) tokens).Reads first middle)
      (joins : Joins rank first middle expr rest) : Reached rank tokens expr rest
  | read {expr : Expr} {rest : List Token} (operand : 5 ≤ rank)
      (reads : (atRank rank tokens).Reads expr rest) : Reached rank tokens expr rest

theorem atRank_loosen (reads : (atRank (rank + 1) tokens).Reads expr rest)
    (bounded : rank < 7) (stops : Stops rank rest) : (atRank rank tokens).Reads expr rest := by
  by_cases level : rank < 5
  · exact (atRank_of_lt level).mpr ⟨expr, rest, reads, .none, stops.unjoined⟩
  · obtain rfl | rfl : rank = 5 ∨ rank = 6 := by omega
    · exact power_iff.mpr (.base reads stops.unjoined)
    · exact unary_iff.mpr (.plain (primary_iff.mp reads))

theorem atRank_of_le (reads : (atRank rank tokens).Reads expr rest) (bounded : rank ≤ 7)
    (le : goal ≤ rank) (stops : Stops goal rest) : (atRank goal tokens).Reads expr rest := by
  obtain ⟨gap, rfl⟩ := Nat.exists_eq_add_of_le le
  induction gap with
  | zero => exact reads
  | succ gap ih =>
    have looser : (atRank (goal + gap) tokens).Reads expr rest :=
      atRank_loosen reads (by omega) (stops.mono (by omega))
    exact ih looser (by omega) (by omega)

namespace Reached

theorem reads (reached : Reached rank tokens expr rest) (bounded : rank ≤ 7)
    (le : goal ≤ rank) (stops : Stops goal rest) : (atRank goal tokens).Reads expr rest := by
  cases reached with
  | joined level reads joins =>
    have whole := (atRank_of_lt level).mpr ⟨_, _, reads, joins, (stops.mono le).unjoined⟩
    exact atRank_of_le whole bounded le stops
  | read _ reads => exact atRank_of_le reads bounded le stops

/-- As a left operand the expression is read as far as it goes, and the operator joins on to it. -/
theorem joins (reached : Reached rank tokens expr rest) (bounded : rank ≤ 7) (level : goal < 5)
    (le : goal ≤ rank) (stops : Stops (goal + 1) rest) :
    ∃ first middle, (atRank (goal + 1) tokens).Reads first middle ∧
      Joins goal first middle expr rest := by
  rcases Nat.eq_or_lt_of_le le with same | tighter
  · subst same
    cases reached with
    | joined _ reads joins => exact ⟨_, _, reads, joins⟩
    | read operand => omega
  · exact ⟨expr, rest, reached.reads bounded tighter stops, .none⟩

end Reached

end Parse

/-- The rank that operators after an expression must stay below for it to end there. -/
def Expr.tailRank : Expr → Nat
  | .binary op _ _ _ => op.rightRank
  | _ => 7

namespace Expr

variable {expr : Expr} {tokens rest : List Token}

theorem rank_le_seven (expr : Expr) : expr.rank ≤ 7 := by
  cases expr with
  | binary op => exact Nat.le_trans op.rank_le_five (by decide)
  | _ => simp [rank]

theorem rank_le_tailRank (expr : Expr) : expr.rank ≤ expr.tailRank := by
  cases expr with
  | binary op => exact op.rank_le_rightRank
  | _ => simp [rank, tailRank]

theorem rank_lt_tailRank {op : BinaryOperator} {left : Expr} (tight : op.leftRank ≤ left.rank) :
    op.rank < left.tailRank := by
  cases left with
  | binary inner => exact BinaryOperator.rank_lt_rightRank tight
  | _ => exact Nat.lt_of_le_of_lt op.rank_le_five (by simp [tailRank])

/-- Every spelling of the expression is read as the expression, up to lines. -/
def Readable (expr : Expr) : Prop :=
  ∀ tokens rest, expr.Taken tokens rest → Stops expr.tailRank rest → Uncalled rest →
    ∃ read : Expr, read.bare = expr.bare ∧ Parse.Reached expr.rank tokens read rest

theorem Readable.reads {rank : Nat} (readable : expr.Readable) (taken : expr.Taken tokens rest)
    (le : rank ≤ expr.rank) (stops : Stops rank rest) (uncalled : Uncalled rest) :
    ∃ read : Expr, read.bare = expr.bare ∧ (Parse.atRank rank tokens).Reads read rest := by
  have further := stops.mono (Nat.le_trans le expr.rank_le_tailRank)
  obtain ⟨read, same, reached⟩ := readable tokens rest taken further uncalled
  exact ⟨read, same, reached.reads expr.rank_le_seven le stops⟩

/-- The expression is read whole before a token that closes it. -/
theorem Readable.before {token : Token} {kind : TokenKind} (readable : expr.Readable)
    (spans : Spans expr.marks tokens (token :: rest)) (canonical : expr.isCanonical = true)
    (same : token.kind = kind) (closes : kind.closes = true) :
    ∃ read : Expr, read.bare = expr.bare ∧
      (Parse.atRank 0 tokens).Reads read (token :: rest) := by
  subst same
  have stops : Stops 0 (token :: rest) := Stops.of_closes closes
  exact readable.reads ⟨spans, canonical, fun _ => stops⟩ (Nat.zero_le _) stops
    (Uncalled.of_closes closes)

/-- A primary expression is read whatever operators follow it. -/
theorem Readable.primary (tight : expr.rank = 7)
    (read : ∀ tokens rest, expr.Taken tokens rest → Uncalled rest →
      ∃ read : Expr, read.bare = expr.bare ∧ Parse.Primary tokens read rest) :
    expr.Readable := by
  intro tokens rest taken _ uncalled
  obtain ⟨found, same, rule⟩ := read tokens rest taken uncalled
  rw [tight]
  exact ⟨found, same, .read (by decide) (Parse.primary_iff.mpr rule)⟩

variable {line : Nat}

theorem literal_readable (value : Literal) : (Expr.literal value line).Readable := by
  refine Readable.primary rfl ?_
  intro tokens rest taken _
  obtain ⟨token, rfl, kind⟩ := Spans.single_iff.mp taken.spans
  exact ⟨.literal value token.line, rfl, .literal value kind⟩

theorem undefined_readable : (Expr.undefined line).Readable := by
  refine Readable.primary rfl ?_
  intro tokens rest taken _
  obtain ⟨token, rfl, kind⟩ := Spans.single_iff.mp taken.spans
  exact ⟨.undefined token.line, rfl, .undefined kind⟩

theorem constant_readable (name : String) : (Expr.constant name line).Readable := by
  refine Readable.primary rfl ?_
  intro tokens rest taken uncalled
  obtain ⟨token, rfl, kind⟩ := Spans.single_iff.mp taken.spans
  exact ⟨.constant name token.line, rfl, .constant kind uncalled⟩

theorem group_readable {inner : Expr} (readable : inner.Readable) :
    (Expr.group inner line).Readable := by
  refine Readable.primary rfl ?_
  intro tokens rest taken _
  obtain ⟨token, others, rfl, kind, spans⟩ := Spans.token_iff.mp taken.spans
  obtain ⟨middle, innerSpans, closingSpans⟩ := Spans.append_iff.mp spans
  obtain ⟨closing, rfl, closes⟩ := Spans.single_iff.mp closingSpans
  obtain ⟨found, same, reads⟩ :=
    readable.before innerSpans taken.canonical closes rfl
  exact ⟨_, by rw [bare, bare, same], .group kind reads closes⟩

theorem unary_readable {op : UnaryOperator} {operand : Expr} (readable : operand.Readable) :
    (Expr.unary op operand line).Readable := by
  intro tokens rest taken _ uncalled
  obtain ⟨token, others, rfl, kind, spans⟩ := Spans.token_iff.mp taken.spans
  obtain ⟨tight, canonical⟩ : 6 ≤ operand.rank ∧ operand.isCanonical = true := by
    simpa [isCanonical] using taken.canonical
  obtain ⟨found, same, reads⟩ :=
    readable.reads ⟨spans, canonical, taken.closed⟩ tight Stops.six uncalled
  exact ⟨_, by rw [bare, bare, same],
    .read (by simp [rank]) (Parse.unary_iff.mpr (.signed kind reads))⟩

theorem binary_readable {op : BinaryOperator} {left right : Expr} (leftReadable : left.Readable)
    (rightReadable : right.Readable) : (Expr.binary op left right line).Readable := by
  intro tokens rest taken stops uncalled
  obtain ⟨middle, leftSpans, spans⟩ := Spans.append_iff.mp taken.spans
  obtain ⟨token, others, rfl, kind, rightSpans⟩ := Spans.token_iff.mp spans
  obtain ⟨⟨⟨⟨leftTight, rightTight⟩, closed⟩, leftCanonical⟩, rightCanonical⟩ :
      (((op.leftRank ≤ left.rank ∧ op.rightRank ≤ right.rank) ∧ left.endsOpen = false) ∧
        left.isCanonical = true) ∧ right.isCanonical = true := by
    simpa [isCanonical] using taken.canonical
  have leftTaken : left.Taken tokens (token :: others) :=
    ⟨leftSpans, leftCanonical, by simp [closed]⟩
  have unopened : Uncalled (token :: others) := Uncalled.of_operator kind
  obtain ⟨foundRight, sameRight, rightReads⟩ :=
    rightReadable.reads ⟨rightSpans, rightCanonical, taken.closed⟩ rightTight stops uncalled
  by_cases level : op.rank < 5
  · obtain ⟨_, rightRank⟩ := BinaryOperator.ranks_of_lt level
    obtain ⟨foundLeft, sameLeft, reached⟩ :=
      leftReadable tokens _ leftTaken (Stops.of_operator kind (rank_lt_tailRank leftTight))
        unopened
    obtain ⟨first, middle, firstReads, joins⟩ :=
      reached.joins left.rank_le_seven level (by omega)
        (Stops.of_operator kind (Nat.lt_succ_self _))
    rw [rightRank] at rightReads
    exact ⟨_, by rw [bare, bare, sameLeft, sameRight],
      .joined level firstReads (.more joins kind rfl rightReads)⟩
  · obtain rfl : op = .power := by
      revert level
      cases op <;> decide
    obtain ⟨foundLeft, sameLeft, leftReads⟩ :=
      leftReadable.reads leftTaken leftTight Stops.six unopened
    exact ⟨_, by rw [bare, bare, sameLeft, sameRight],
      .read (by simp [rank, BinaryOperator.rank])
        (Parse.power_iff.mpr (.raised leftReads kind rightReads))⟩

theorem conditional_readable {condition positive negative : Expr}
    (conditionReadable : condition.Readable) (positiveReadable : positive.Readable)
    (negativeReadable : negative.Readable) :
    (Expr.conditional condition positive negative line).Readable := by
  refine Readable.primary rfl ?_
  intro tokens rest taken uncalled
  obtain ⟨beforeElse, spans, elseSpans⟩ := Spans.append_iff.mp taken.spans
  obtain ⟨beforeThen, ifSpans, thenSpans⟩ := Spans.append_iff.mp spans
  obtain ⟨token, others, rfl, kind, conditionSpans⟩ := Spans.token_iff.mp ifSpans
  obtain ⟨thenWord, second, rfl, isThen, positiveSpans⟩ := Spans.token_iff.mp thenSpans
  obtain ⟨elseWord, third, rfl, isElse, negativeSpans⟩ := Spans.token_iff.mp elseSpans
  obtain ⟨⟨conditionCanonical, positiveCanonical⟩, negativeCanonical⟩ :
      (condition.isCanonical = true ∧ positive.isCanonical = true) ∧
        negative.isCanonical = true := by
    simpa [isCanonical] using taken.canonical
  have stops : Stops 0 rest := taken.closed rfl
  obtain ⟨_, sameCondition, conditionReads⟩ :=
    conditionReadable.before conditionSpans conditionCanonical isThen rfl
  obtain ⟨_, samePositive, positiveReads⟩ :=
    positiveReadable.before positiveSpans positiveCanonical isElse rfl
  obtain ⟨_, sameNegative, negativeReads⟩ :=
    negativeReadable.reads ⟨negativeSpans, negativeCanonical, fun _ => stops⟩ (Nat.zero_le _)
      stops uncalled
  exact ⟨_, by rw [bare, bare, sameCondition, samePositive, sameNegative],
    .conditional kind conditionReads isThen positiveReads isElse negativeReads⟩

theorem listed_readable {closing : Sign} (closes : closing = .rightParen ∨ closing = .rightBrace)
    {exprs : List Expr} {tokens : List Token} (readable : ∀ expr ∈ exprs, expr.Readable)
    (canonical : Expr.allCanonical exprs = true) (some : exprs ≠ [])
    (spans : Spans (Expr.listed exprs ++ [.sign closing]) tokens rest) :
    ∃ read, Expr.bareAll read = Expr.bareAll exprs ∧ Parse.Listed closing tokens read rest := by
  have closingCloses : (TokenKind.sign closing).closes = true := by
    rcases closes with rfl | rfl <;> rfl
  induction exprs generalizing tokens with
  | nil => contradiction
  | cons first more ih =>
    obtain ⟨firstReadable, moreReadable⟩ := List.forall_mem_cons.mp readable
    obtain ⟨firstCanonical, moreCanonical⟩ :
        first.isCanonical = true ∧ Expr.allCanonical more = true := by
      simpa [allCanonical] using canonical
    by_cases last : more = []
    · subst last
      obtain ⟨middle, firstSpans, closingSpans⟩ := Spans.append_iff.mp spans
      obtain ⟨token, rfl, kind⟩ := Spans.single_iff.mp closingSpans
      obtain ⟨found, same, reads⟩ :=
        firstReadable.before firstSpans firstCanonical kind closingCloses
      exact ⟨[found], by simp [bareAll, same], .last reads kind⟩
    · rw [Expr.listed_cons last, List.append_assoc] at spans
      obtain ⟨middle, firstSpans, moreSpans⟩ := Spans.append_iff.mp spans
      obtain ⟨comma, others, rfl, kind, moreSpans⟩ := Spans.token_iff.mp moreSpans
      obtain ⟨found, same, reads⟩ :=
        firstReadable.before firstSpans firstCanonical kind rfl
      obtain ⟨others, sameMore, listed⟩ := ih moreReadable moreCanonical last moreSpans
      exact ⟨found :: others, by simp [bareAll, same, sameMore], .more reads kind listed⟩

theorem items_readable {closing : Sign} (closes : closing = .rightParen ∨ closing = .rightBrace)
    {exprs : List Expr} {tokens : List Token} (readable : ∀ expr ∈ exprs, expr.Readable)
    (canonical : Expr.allCanonical exprs = true)
    (spans : Spans (Expr.listed exprs ++ [.sign closing]) tokens rest) :
    ∃ read, Expr.bareAll read = Expr.bareAll exprs ∧
      (Parse.items closing tokens).Reads read rest := by
  by_cases none : exprs = []
  · subst none
    obtain ⟨token, rfl, kind⟩ := Spans.single_iff.mp spans
    exact ⟨[], rfl, (Parse.items_iff closes).mpr (.inl ⟨rfl, token, rfl, kind⟩)⟩
  · obtain ⟨read, same, listed⟩ := listed_readable closes readable canonical none spans
    exact ⟨read, same, (Parse.items_iff closes).mpr (.inr listed)⟩

theorem call_readable {name : String} {arguments : List Expr}
    (readable : ∀ expr ∈ arguments, expr.Readable) : (Expr.call name arguments line).Readable := by
  refine Readable.primary rfl ?_
  intro tokens rest taken _
  obtain ⟨token, others, rfl, kind, spans⟩ := Spans.token_iff.mp taken.spans
  obtain ⟨opening, others, rfl, opens, spans⟩ := Spans.token_iff.mp spans
  obtain ⟨read, same, reads⟩ := items_readable (.inl rfl) readable taken.canonical spans
  exact ⟨.call name read token.line, by rw [bare, bare, same], .call kind opens reads⟩

theorem figure_readable {kind : FigureKind} {arguments : List Expr}
    (readable : ∀ expr ∈ arguments, expr.Readable) :
    (Expr.figure kind arguments line).Readable := by
  refine Readable.primary rfl ?_
  intro tokens rest taken _
  obtain ⟨token, others, rfl, figure, spans⟩ := Spans.token_iff.mp taken.spans
  obtain ⟨opening, others, rfl, opens, spans⟩ := Spans.token_iff.mp spans
  obtain ⟨read, same, reads⟩ := items_readable (.inl rfl) readable taken.canonical spans
  exact ⟨.figure kind read token.line, by rw [bare, bare, same], .figure figure opens reads⟩

/-- What stands between braces is read past the opening one. -/
theorem Readable.braced (tight : expr.rank = 7)
    (opened : ∃ marks, expr.marks = .sign .leftBrace :: marks)
    (read : ∀ token tokens rest, token.kind = .sign .leftBrace →
      expr.Taken (token :: tokens) rest →
      ∃ read : Expr, read.bare = expr.bare ∧ Parse.Braced token.line tokens read rest) :
    expr.Readable := by
  refine Readable.primary tight ?_
  intro tokens rest taken _
  obtain ⟨marks, same⟩ := opened
  have spans := taken.spans
  rw [same] at spans
  obtain ⟨token, others, rfl, kind, _⟩ := Spans.token_iff.mp spans
  obtain ⟨found, same, braced⟩ := read token others rest kind taken
  exact ⟨found, same, .sequence kind (Parse.sequence_iff.mpr braced)⟩

theorem sequence_readable {elements : List Expr} (readable : ∀ expr ∈ elements, expr.Readable) :
    (Expr.sequence elements line).Readable := by
  refine Readable.braced rfl ⟨_, rfl⟩ ?_
  intro token tokens rest _ taken
  have canonical : Expr.allCanonical elements = true := taken.canonical
  have spans := taken.spans
  match elements with
  | [] =>
    obtain ⟨_, spans⟩ := Spans.token_cons_iff.mp spans
    obtain ⟨closing, rfl, closes⟩ := Spans.single_iff.mp spans
    exact ⟨.sequence [] token.line, rfl, .empty closes⟩
  | [element] =>
    have single := readable element (List.mem_cons_self ..)
    have elementCanonical : element.isCanonical = true := by
      simpa [allCanonical] using canonical
    rw [Expr.marks_single, Spans.token_cons_iff] at spans
    obtain ⟨middle, elementSpans, following⟩ := Spans.append_iff.mp spans.2
    rcases Spans.optionalComma_iff.mp following with closingSpans | commaSpans
    · obtain ⟨closing, rfl, closes⟩ := Spans.single_iff.mp closingSpans
      obtain ⟨found, same, reads⟩ :=
        single.before elementSpans elementCanonical closes rfl
      exact ⟨.sequence [found] token.line, by simp [bare, bareAll, same], .single reads closes⟩
    · obtain ⟨comma, others, rfl, kind, closingSpans⟩ := Spans.token_iff.mp commaSpans
      obtain ⟨closing, rfl, closes⟩ := Spans.single_iff.mp closingSpans
      obtain ⟨found, same, reads⟩ :=
        single.before elementSpans elementCanonical kind rfl
      exact ⟨.sequence [found] token.line, by simp [bare, bareAll, same], .many reads kind
        ((Parse.items_iff (.inr rfl)).mpr (.inl ⟨rfl, closing, rfl, closes⟩))⟩
  | first :: second :: more =>
    obtain ⟨firstCanonical, moreCanonical⟩ :
        first.isCanonical = true ∧ Expr.allCanonical (second :: more) = true := by
      simpa [allCanonical] using canonical
    rw [Expr.marks_several (by simp), Spans.token_cons_iff] at spans
    obtain ⟨middle, firstSpans, moreSpans⟩ := Spans.append_iff.mp spans.2
    obtain ⟨comma, others, rfl, kind, moreSpans⟩ := Spans.token_iff.mp moreSpans
    obtain ⟨found, same, reads⟩ := (readable first (List.mem_cons_self ..)).before firstSpans
      firstCanonical kind rfl
    obtain ⟨others, sameMore, moreReads⟩ := items_readable (.inr rfl)
      (fun expr member => readable expr (List.mem_cons_of_mem _ member)) moreCanonical moreSpans
    exact ⟨.sequence (found :: others) token.line, by simp [bare, bareAll, same, sameMore],
      .many reads kind moreReads⟩

/-- A number is read alone before what closes it. -/
theorem number_reads {value : Float} {number token : Token} {kind : TokenKind}
    (isNumber : number.kind = .number value) (same : token.kind = kind)
    (closes : kind.closes = true) :
    (Parse.atRank 0 (number :: token :: rest)).Reads (.literal (.number value) number.line)
      (token :: rest) := by
  have rule : Parse.Primary (number :: token :: rest) (.literal (.number value) number.line)
      (token :: rest) := .literal (.number value) isNumber
  subst same
  exact Parse.atRank_of_le (Parse.primary_iff.mpr rule) (Nat.le_refl _) (Nat.zero_le _)
    (Stops.of_closes closes)

theorem infinite_readable {start : Float} : (Expr.infinite start line).Readable := by
  refine Readable.braced rfl ⟨_, rfl⟩ ?_
  intro token tokens rest _ taken
  obtain ⟨_, spans⟩ := Spans.token_cons_iff.mp taken.spans
  obtain ⟨number, _, rfl, isNumber, following⟩ := Spans.token_iff.mp spans
  obtain ⟨ellipsis, _, rfl, kind, closingSpans⟩ := Spans.token_iff.mp following
  obtain ⟨closing, rfl, closes⟩ := Spans.single_iff.mp closingSpans
  exact ⟨.infinite start token.line, rfl,
    .infinite (number_reads isNumber kind rfl) kind taken.canonical closes⟩

theorem range_readable {start finish : Float} : (Expr.range start finish line).Readable := by
  refine Readable.braced rfl ⟨_, rfl⟩ ?_
  intro token tokens rest _ taken
  obtain ⟨startBound, finishBound⟩ :
      Number.isBound start = true ∧ Number.isBound finish = true := by
    simpa [isCanonical] using taken.canonical
  obtain ⟨_, spans⟩ := Spans.token_cons_iff.mp taken.spans
  obtain ⟨number, _, rfl, isNumber, following⟩ := Spans.token_iff.mp spans
  obtain ⟨ellipsis, _, rfl, kind, onward⟩ := Spans.token_iff.mp following
  obtain ⟨other, _, rfl, isOther, closingSpans⟩ := Spans.token_iff.mp onward
  obtain ⟨closing, rfl, closes⟩ := Spans.single_iff.mp closingSpans
  exact ⟨.range start finish token.line, rfl, .range (number_reads isNumber kind rfl) kind
    startBound (number_reads isOther closes rfl) finishBound closes⟩

end Expr

/-- Every spelling of the instruction, up to its semicolon, is read as the instruction. -/
def Statement.Readable (statement : Statement) : Prop :=
  ∀ (importsAllowed : Bool) (tokens rest : List Token) (semicolon : Token),
    Spans statement.marks tokens (semicolon :: rest) → statement.isCanonical = true →
    semicolon.kind = .sign .semicolon → (statement.isImport = true → importsAllowed = true) →
    ∃ read : Statement, read.bare = statement.bare ∧
      Parse.Instructed importsAllowed tokens read (semicolon :: rest)

namespace Statement

variable {line : Nat}

/-- Where a semicolon ends it, an expression is not taken for an assignment. -/
theorem unassigned_of_leads {token semicolon : Token} {others rest : List Token}
    (leads : Leads (token :: others) (semicolon :: rest))
    (ends : semicolon.kind = .sign .semicolon) : Unassigned token others := by
  obtain ⟨_, _, same, _, named, _⟩ := leads
  cases same
  intro name identifier next first
  rcases named name identifier with rfl | ⟨second, member, kind⟩
  · cases first
    simp [ends]
  · obtain rfl : second = next := Option.some.inj (member.symm.trans first)
    rcases kind with opens | ⟨op, joins⟩
    · simp [opens]
    · rw [joins]
      cases op <;> simp [BinaryOperator.sign]

theorem expression_readable {value : Expr} (readable : value.Readable) :
    (Statement.expression value line).Readable := by
  intro importsAllowed tokens rest semicolon spans canonical ends _
  obtain ⟨found, same, reads⟩ :=
    readable.before spans canonical ends rfl
  have leads := Parse.expression_leads reads
  obtain ⟨token, others, rfl, _⟩ := id leads
  exact ⟨.expression found token.line, by rw [bare, bare, same],
    .expression (unassigned_of_leads leads ends) reads (by simp [ends])⟩

theorem assign_readable {name : String} {value : Expr} (readable : value.Readable) :
    (Statement.assign name value line).Readable := by
  intro importsAllowed tokens rest semicolon spans canonical ends _
  obtain ⟨token, others, rfl, kind, spans⟩ := Spans.token_iff.mp spans
  obtain ⟨equals, others, rfl, equalsKind, spans⟩ := Spans.token_iff.mp spans
  obtain ⟨found, same, reads⟩ :=
    readable.before spans canonical ends rfl
  exact ⟨.assign name found token.line, by rw [bare, bare, same], .assign kind equalsKind reads⟩

theorem assignMany_readable {names : List String} {value : Expr} (readable : value.Readable) :
    (Statement.assignMany names value line).Readable := by
  intro importsAllowed tokens rest semicolon spans canonical ends _
  obtain ⟨several, canonical⟩ : 2 ≤ names.length ∧ value.isCanonical = true := by
    simpa [isCanonical] using canonical
  obtain ⟨middle, nameSpans, valueSpans⟩ := Spans.append_iff.mp spans
  obtain ⟨equals, others, rfl, equalsKind, valueSpans⟩ := Spans.token_iff.mp valueSpans
  obtain ⟨found, same, reads⟩ :=
    readable.before valueSpans canonical ends rfl
  rcases names with _ | ⟨name, _ | ⟨next, more⟩⟩
  · simp at several
  · simp at several
  · obtain ⟨token, _, rfl, _⟩ := Spans.token_iff.mp nameSpans
    exact ⟨.assignMany (name :: next :: more) found token.line, by rw [bare, bare, same],
      .assignMany several nameSpans equalsKind reads⟩

/-- The head of a declaration is written as a call whose arguments are the parameters. -/
theorem marks_function {name : String} {parameters : List String} {body : Expr} :
    (Statement.function name parameters body line).marks =
      (Expr.call name (parameters.map (.constant · 0)) 0).marks ++
        .sign .equals :: body.marks := by
  have listed := Parse.listed_of_bareAll_eq (Expr.bareAll_constants parameters)
  simp [marks, Expr.marks, listed]

theorem head_readable {name : String} {parameters : List String} :
    (Expr.call name (parameters.map (.constant · 0)) 0).Readable := by
  refine Expr.call_readable ?_
  intro expr member
  obtain ⟨parameter, _, rfl⟩ := List.mem_map.mp member
  exact Expr.constant_readable parameter

theorem function_readable {name : String} {parameters : List String} {body : Expr}
    (readable : body.Readable) : (Statement.function name parameters body line).Readable := by
  intro importsAllowed tokens rest semicolon spans canonical ends _
  obtain ⟨⟨distinct, flat⟩, bodyCanonical⟩ :
      (parameters.Nodup ∧ ∀ inner ∈ body.instructions, inner.isFunction = false) ∧
        body.isCanonical = true := by
    simpa [isCanonical] using canonical
  rw [marks_function] at spans
  obtain ⟨middle, headSpans, bodySpans⟩ := Spans.append_iff.mp spans
  obtain ⟨equals, others, rfl, equalsKind, bodySpans⟩ := Spans.token_iff.mp bodySpans
  obtain ⟨head, sameHead, headReads⟩ := head_readable.before headSpans
    (Expr.allCanonical_constants parameters) equalsKind rfl
  obtain ⟨found, same, reads⟩ :=
    readable.before bodySpans bodyCanonical ends rfl
  obtain ⟨token, following, rfl, kind, onward⟩ := Spans.token_iff.mp headSpans
  obtain ⟨opening, inside, rfl, opens, _⟩ := Spans.token_iff.mp onward
  have unassigned : Unassigned token (opening :: inside) := by
    intro _ _ next first
    cases first
    simp [opens]
  cases head with
  | call headName headArguments headLine =>
    simp only [Expr.bare, Expr.bareAll_constants, Expr.call.injEq, and_true] at sameHead
    obtain ⟨rfl, named⟩ := sameHead
    exact ⟨.function headName parameters found headLine, by rw [bare, bare, same],
      .function unassigned headReads equalsKind named distinct reads
        (Expr.flat_of_bare_eq same flat)⟩
  | _ => simp [Expr.bare] at sameHead

theorem importFile_readable {path : String} : (Statement.importFile path line).Readable := by
  intro importsAllowed tokens rest semicolon spans _ _ allowed
  obtain ⟨token, others, rfl, kind, spans⟩ := Spans.token_iff.mp spans
  obtain ⟨file, rfl, fileKind⟩ := Spans.single_iff.mp spans
  exact ⟨.importFile path token.line, rfl, .importFile (allowed rfl) kind fileKind⟩

/-- The value of a draw or print instruction ends where the label or the semicolon stands. -/
theorem labelled_reads {value : Expr} {label : Option String} {tokens rest : List Token}
    {semicolon : Token} (readable : value.Readable) (canonical : value.isCanonical = true)
    (ends : semicolon.kind = .sign .semicolon)
    (spans : Spans (value.marks ++ Mark.label label) tokens (semicolon :: rest)) :
    ∃ (found : Expr) (middle : List Token), found.bare = value.bare ∧
      (Parse.atRank 0 tokens).Reads found middle ∧
      Spans (Mark.label label) middle (semicolon :: rest) := by
  obtain ⟨middle, valueSpans, labelSpans⟩ := Spans.append_iff.mp spans
  cases label with
  | none =>
    obtain rfl := Spans.nil_iff.mp labelSpans
    obtain ⟨found, same, reads⟩ :=
      readable.before valueSpans canonical ends rfl
    exact ⟨found, _, same, reads, labelSpans⟩
  | some text =>
    obtain ⟨token, others, rfl, kind, _⟩ := Spans.token_iff.mp labelSpans
    obtain ⟨found, same, reads⟩ :=
      readable.before valueSpans canonical kind rfl
    exact ⟨found, _, same, reads, labelSpans⟩

theorem draw_readable {value : Expr} {label : Option String} (readable : value.Readable) :
    (Statement.draw value label line).Readable := by
  intro importsAllowed tokens rest semicolon spans canonical ends _
  obtain ⟨token, others, rfl, kind, spans⟩ := Spans.token_iff.mp spans
  obtain ⟨found, middle, same, reads, labels⟩ := labelled_reads readable canonical ends spans
  exact ⟨.draw found label token.line, by rw [bare, bare, same],
    .draw kind reads labels (by simp [ends])⟩

theorem print_readable {value : Expr} {label : Option String} (readable : value.Readable) :
    (Statement.print value label line).Readable := by
  intro importsAllowed tokens rest semicolon spans canonical ends _
  obtain ⟨token, others, rfl, kind, spans⟩ := Spans.token_iff.mp spans
  obtain ⟨found, middle, same, reads, labels⟩ := labelled_reads readable canonical ends spans
  exact ⟨.print found label token.line, by rw [bare, bare, same],
    .print kind reads labels (by simp [ends])⟩

theorem color_readable {named : Color} : (Statement.color named line).Readable := by
  intro importsAllowed tokens rest semicolon spans _ _ _
  obtain ⟨token, others, rfl, kind, spans⟩ := Spans.token_iff.mp spans
  exact ⟨.color named token.line, rfl, .color kind spans⟩

theorem restore_readable : (Statement.restore line).Readable := by
  intro importsAllowed tokens rest semicolon spans _ _ _
  obtain ⟨token, rfl, kind⟩ := Spans.single_iff.mp spans
  exact ⟨.restore token.line, rfl, .restore kind⟩

theorem random_readable {kind : FigureKind} {isSequence : Bool} {name : String} :
    (Statement.random kind isSequence name line).Readable := by
  intro importsAllowed tokens rest semicolon spans _ _ _
  obtain ⟨token, others, rfl, figure, spans⟩ := Spans.token_iff.mp spans
  have uncalled : Uncalled others := by
    cases isSequence with
    | true =>
      obtain ⟨word, _, rfl, isWord, _⟩ := Spans.token_iff.mp spans
      exact Uncalled.of_kind (by simp [isWord])
    | false =>
      obtain ⟨named, _, rfl, isName, _⟩ := Spans.token_iff.mp spans
      exact Uncalled.of_kind (by simp [isName])
  exact ⟨.random kind isSequence name token.line, rfl, .random figure uncalled spans⟩

theorem body_readable {statements : List Statement} {tokens rest : List Token}
    (readable : ∀ statement ∈ statements, statement.Readable)
    (canonical : Statement.allCanonical statements = true) (some : statements ≠ [])
    (noImports : statements.any Statement.isImport = false)
    (spans : Spans (Statement.marksAll statements ++ [.word .inWord]) tokens rest) :
    ∃ read, Statement.bareAll read = Statement.bareAll statements ∧
      Parse.Body tokens read rest := by
  induction statements generalizing tokens with
  | nil => contradiction
  | cons first more ih =>
    obtain ⟨firstCanonical, moreCanonical⟩ :
        first.isCanonical = true ∧ Statement.allCanonical more = true := by
      simpa [allCanonical] using canonical
    obtain ⟨notImport, noMore⟩ :
        first.isImport = false ∧ more.any Statement.isImport = false := by
      simpa using noImports
    rw [marksAll, List.append_assoc] at spans
    obtain ⟨middle, firstSpans, moreSpans⟩ := Spans.append_iff.mp spans
    obtain ⟨semicolon, others, rfl, ends, moreSpans⟩ := Spans.token_iff.mp moreSpans
    obtain ⟨found, same, rule⟩ := readable first (List.mem_cons_self ..) false _ _ _ firstSpans
      firstCanonical ends (by simp [notImport])
    by_cases last : more = []
    · subst last
      obtain ⟨word, rfl, kind⟩ := Spans.single_iff.mp moreSpans
      exact ⟨[found], by simp [bareAll, same], .last rule ends kind⟩
    · obtain ⟨read, sameMore, body⟩ :=
        ih (fun statement member => readable statement (List.mem_cons_of_mem _ member))
          moreCanonical last noMore moreSpans
      exact ⟨found :: read, by simp [bareAll, same, sameMore], .more rule ends body⟩

end Statement

theorem Expr.block_readable {instructions : List Statement} {body : Expr} {line : Nat}
    (readable : ∀ statement ∈ instructions, statement.Readable) (bodyReadable : body.Readable) :
    (Expr.block instructions body line).Readable := by
  refine Readable.primary rfl ?_
  intro tokens rest taken uncalled
  obtain ⟨⟨⟨some, noImports⟩, canonical⟩, bodyCanonical⟩ :
      ((instructions ≠ [] ∧ instructions.any Statement.isImport = false) ∧
        Statement.allCanonical instructions = true) ∧ body.isCanonical = true := by
    simpa [isCanonical] using taken.canonical
  have written : (Expr.block instructions body line).marks =
      .word .letWord :: ((Statement.marksAll instructions ++ [.word .inWord]) ++ body.marks) := by
    simp [Expr.marks]
  have spans := taken.spans
  rw [written] at spans
  obtain ⟨token, others, rfl, kind, spans⟩ := Spans.token_iff.mp spans
  obtain ⟨middle, instructionSpans, bodySpans⟩ := Spans.append_iff.mp spans
  obtain ⟨read, same, rule⟩ :=
    Statement.body_readable readable canonical some noImports instructionSpans
  have stops : Stops 0 rest := taken.closed rfl
  obtain ⟨found, sameBody, reads⟩ :=
    bodyReadable.reads ⟨bodySpans, bodyCanonical, fun _ => stops⟩ (Nat.zero_le _) stops uncalled
  exact ⟨.block read found token.line, by rw [bare, bare, same, sameBody],
    .block kind (Parse.instructions_iff.mpr rule) reads⟩

mutual

theorem Expr.readable (expr : Expr) : expr.Readable := by
  cases expr with
  | literal value => exact Expr.literal_readable value
  | undefined => exact Expr.undefined_readable
  | constant name => exact Expr.constant_readable name
  | group inner => exact Expr.group_readable inner.readable
  | unary op operand => exact Expr.unary_readable operand.readable
  | binary op left right => exact Expr.binary_readable left.readable right.readable
  | conditional condition positive negative =>
    exact Expr.conditional_readable condition.readable positive.readable negative.readable
  | block instructions body =>
    exact Expr.block_readable (Statement.allReadable instructions) body.readable
  | call name arguments => exact Expr.call_readable (Expr.allReadable arguments)
  | figure kind arguments => exact Expr.figure_readable (Expr.allReadable arguments)
  | sequence elements => exact Expr.sequence_readable (Expr.allReadable elements)
  | infinite start => exact Expr.infinite_readable
  | range start finish => exact Expr.range_readable

theorem Expr.allReadable (exprs : List Expr) : ∀ expr ∈ exprs, expr.Readable := by
  cases exprs with
  | nil => simp
  | cons first more =>
    intro expr member
    rcases List.mem_cons.mp member with same | later
    · rw [same]
      exact first.readable
    · exact Expr.allReadable more expr later

theorem Statement.readable (statement : Statement) : statement.Readable := by
  cases statement with
  | expression value => exact Statement.expression_readable value.readable
  | assign name value => exact Statement.assign_readable value.readable
  | assignMany names value => exact Statement.assignMany_readable value.readable
  | function name parameters body => exact Statement.function_readable body.readable
  | importFile path => exact Statement.importFile_readable
  | draw value label => exact Statement.draw_readable value.readable
  | print value label => exact Statement.print_readable value.readable
  | color named => exact Statement.color_readable
  | restore => exact Statement.restore_readable
  | random kind isSequence name => exact Statement.random_readable

theorem Statement.allReadable (statements : List Statement) :
    ∀ statement ∈ statements, statement.Readable := by
  cases statements with
  | nil => simp
  | cons first more =>
    intro statement member
    rcases List.mem_cons.mp member with same | later
    · rw [same]
      exact first.readable
    · exact Statement.allReadable more statement later

end

/-- Imports are allowed for as long as the program may still import. -/
theorem accepted_of_spans {importsAllowed : Bool} {program : Program} {tokens rest : List Token}
    (canonical : program.isCanonical = true)
    (forbidden : importsAllowed = false → program.any Statement.isImport = false)
    (spans : Spans program.marks tokens rest)
    (ends : ∀ token ∈ rest.head?, token.kind = .endOfInput) :
    ∃ read : Program, read.bare = program.bare ∧
      Parse.Accepted importsAllowed tokens read rest := by
  induction program generalizing importsAllowed tokens with
  | nil =>
    obtain rfl := Spans.nil_iff.mp spans
    exact ⟨[], rfl, .done ends⟩
  | cons first more ih =>
    obtain ⟨allCanonical, imports⟩ :
        Statement.allCanonical (first :: more) = true ∧
          ((first :: more).dropWhile Statement.isImport).any Statement.isImport = false := by
      simpa [Program.isCanonical] using canonical
    obtain ⟨firstCanonical, moreCanonical⟩ :
        first.isCanonical = true ∧ Statement.allCanonical more = true := by
      simpa [Statement.allCanonical] using allCanonical
    obtain ⟨middle, firstSpans, moreSpans⟩ := Spans.append_iff.mp spans
    obtain ⟨semicolon, others, rfl, semicolonKind, moreSpans⟩ := Spans.token_iff.mp moreSpans
    cases tokens with
    | nil =>
      have shorter := firstSpans.length_le
      simp at shorter
    | cons token following =>
      have allowed : first.isImport = true →
          (importsAllowed && token.kind = .keyword .importWord) = true := by
        intro isImport
        have permitted : importsAllowed = true := by
          cases importsAllowed with
          | true => rfl
          | false => simpa [isImport] using forbidden rfl
        cases first with
        | importFile path =>
          obtain ⟨kind, _⟩ := Spans.token_cons_iff.mp firstSpans
          simp [permitted, kind]
        | _ => simp [Statement.isImport] at isImport
      have noneLater : first.isImport = false → more.any Statement.isImport = false := by
        intro other
        simpa [List.dropWhile_cons, other] using imports
      have prefixed : (more.dropWhile Statement.isImport).any Statement.isImport = false := by
        cases isImport : first.isImport with
        | true => simpa [List.dropWhile_cons, isImport] using imports
        | false =>
          have none := noneLater isImport
          rw [List.any_eq_false] at none ⊢
          intro statement member
          exact none statement ((List.dropWhile_sublist _).mem member)
      obtain ⟨found, same, rule⟩ :=
        first.readable _ _ _ _ firstSpans firstCanonical semicolonKind allowed
      have forbiddenLater : (importsAllowed && token.kind = .keyword .importWord) = false →
          more.any Statement.isImport = false := by
        intro notAllowed
        refine noneLater ?_
        cases isImport : first.isImport with
        | false => rfl
        | true => simp [allowed isImport] at notAllowed
      obtain ⟨read, sameMore, accepted⟩ :=
        ih (by simp [Program.isCanonical, moreCanonical, prefixed]) forbiddenLater moreSpans
      have alike : Program.bare (found :: read) = Program.bare (first :: more) := by
        change found.bare :: Program.bare read = first.bare :: Program.bare more
        rw [same, sameMore]
      exact ⟨found :: read, alike, .more rule semicolonKind accepted⟩

/-- Every spelling of a canonical program is read as that program, up to lines. -/
theorem parse_of_spells {program : Program} {tokens : List Token} {last : Token}
    (canonical : program.isCanonical = true)
    (spells : Spells program.marks (tokens.map Token.kind)) (ends : last.kind = .endOfInput) :
    (parse (tokens ++ [last])).errors = [] ∧
      (parse (tokens ++ [last])).program.bare = program.bare := by
  have spans : Spans program.marks (tokens ++ [last]) [last] := ⟨tokens, rfl, spells⟩
  have unforbidden : true = false → program.any Statement.isImport = false := by simp
  obtain ⟨read, same, accepted⟩ :=
    accepted_of_spans canonical unforbidden spans (by simpa using ends)
  have result : parse (tokens ++ [last]) = ⟨read, []⟩ := accepted.ofTokens_eq
  rw [result]
  exact ⟨rfl, same⟩

/-- Reading undoes rendering. -/
theorem parse_render {program : Program} {tokens : List Token}
    (canonical : program.isCanonical = true)
    (rendered : tokens.map Token.kind = program.render ++ [.endOfInput]) :
    (parse tokens).errors = [] ∧ (parse tokens).program.bare = program.bare := by
  obtain ⟨used, after, rfl, kinds, ends⟩ := List.map_eq_append_iff.mp rendered
  obtain ⟨last, rfl, kind⟩ := List.map_eq_singleton_iff.mp ends
  refine parse_of_spells canonical ?_ kind
  rw [kinds]
  exact spells_usual program.marks

/-- A declaration whose body is a power of a negated name, and a block that calls it. -/
def declaredPower : Program :=
  [.function "f" ["x", "y"]
      (.binary .power (.unary .negate (.constant "x" 1) 1) (.constant "y" 1) 1) 1,
    .expression
      (.block [.assign "a" (.call "f" [.constant "b" 2, .constant "b" 2] 2) 2]
        (.binary .add (.constant "a" 2)
          (.binary .multiply (.constant "a" 2) (.constant "b" 2) 2) 2) 2) 2]

def declaredPowerTokens : List Token :=
  (declaredPower.render ++ [TokenKind.endOfInput]).map fun kind => ⟨kind, "", 1⟩

theorem parse_render_declaredPower :
    declaredPower.isCanonical = true ∧
      declaredPowerTokens.map Token.kind = declaredPower.render ++ [.endOfInput] ∧
      (parse declaredPowerTokens).errors = [] ∧
      (parse declaredPowerTokens).program.bare = declaredPower.bare := by
  have canonical : declaredPower.isCanonical = true := by decide
  have rendered : declaredPowerTokens.map Token.kind =
      declaredPower.render ++ [.endOfInput] := by
    simp [declaredPowerTokens, Function.comp_def]
  exact ⟨canonical, rendered, parse_render canonical rendered⟩

end GSharp
