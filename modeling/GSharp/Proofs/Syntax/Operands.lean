import GSharp.Proofs.Syntax.Levels

namespace GSharp

/-- No opening parenthesis comes next. -/
def Uncalled (rest : List Token) : Prop :=
  ∀ token ∈ rest.head?, token.kind ≠ .sign .leftParen

namespace Parse

open Step Step.Reads

variable {tokens middle rest : List Token} {expr : Expr} {rank line : Nat}

/-- Names, literals and what starts with a word or an opening sign of its own. -/
inductive Primary : List Token → Expr → List Token → Prop where
  | literal {token : Token} {rest : List Token} (value : Literal)
      (kind : token.kind = value.kind) : Primary (token :: rest) (.literal value token.line) rest
  | undefined {token : Token} {rest : List Token} (kind : token.kind = .keyword .undefined) :
      Primary (token :: rest) (.undefined token.line) rest
  | constant {token : Token} {rest : List Token} {name : String}
      (kind : token.kind = .identifier name) (uncalled : Uncalled rest) :
      Primary (token :: rest) (.constant name token.line) rest
  | call {token opening : Token} {others rest : List Token} {name : String}
      {arguments : List Expr} (kind : token.kind = .identifier name)
      (opens : opening.kind = .sign .leftParen)
      (reads : (items .rightParen others).Reads arguments rest) :
      Primary (token :: opening :: others) (.call name arguments token.line) rest
  | figure {token opening : Token} {others rest : List Token} {figure : FigureKind}
      {arguments : List Expr} (kind : token.kind = .figure figure)
      (opens : opening.kind = .sign .leftParen)
      (reads : (items .rightParen others).Reads arguments rest) :
      Primary (token :: opening :: others) (.figure figure arguments token.line) rest
  | group {token closing : Token} {others rest : List Token} {inner : Expr}
      (kind : token.kind = .sign .leftParen)
      (reads : (atRank 0 others).Reads inner (closing :: rest))
      (closes : closing.kind = .sign .rightParen) :
      Primary (token :: others) (.group inner token.line) rest
  | sequence {token : Token} {others rest : List Token} {value : Expr}
      (kind : token.kind = .sign .leftBrace)
      (reads : (sequence token.line others).Reads value rest) :
      Primary (token :: others) value rest
  | conditional {token thenWord elseWord : Token} {first second third rest : List Token}
      {condition positive negative : Expr} (kind : token.kind = .keyword .ifWord)
      (conditionReads : (atRank 0 first).Reads condition (thenWord :: second))
      (thenKind : thenWord.kind = .keyword .thenWord)
      (positiveReads : (atRank 0 second).Reads positive (elseWord :: third))
      (elseKind : elseWord.kind = .keyword .elseWord)
      (negativeReads : (atRank 0 third).Reads negative rest) :
      Primary (token :: first) (.conditional condition positive negative token.line) rest
  | block {token : Token} {others middle rest : List Token} {statements : List Statement}
      {body : Expr} (kind : token.kind = .keyword .letWord)
      (reads : (instructions others).Reads statements middle)
      (bodyReads : (atRank 0 middle).Reads body rest) :
      Primary (token :: others) (.block statements body token.line) rest

theorem constantOrCall_iff {name : String} {token : Token} {others : List Token}
    {shorter : others.length < (token :: others).length}
    (kind : token.kind = .identifier name) :
    (constantOrCall name token.line others shorter).Reads expr rest ↔
      Primary (token :: others) expr rest := by
  rw [constantOrCall.eq_def]
  constructor
  · intro reads
    cases others with
    | nil =>
      obtain ⟨rfl, rfl⟩ := ok_iff.mp reads
      exact .constant kind (by simp [Uncalled])
    | cons opening others =>
      by_cases opens : opening.kind = .sign .leftParen
      · simp only [opens, if_true, map_iff, within_iff] at reads
        obtain ⟨arguments, reads, rfl⟩ := reads
        exact .call kind opens reads
      · simp only [opens, if_false, ok_iff] at reads
        obtain ⟨rfl, rfl⟩ := reads
        exact .constant kind (by simpa [Uncalled] using opens)
  · intro primary
    cases primary with
    | literal value kind' => cases value <;> simp [kind, Literal.kind] at kind'
    | constant kind' uncalled =>
      cases kind.symm.trans kind'
      cases rest with
      | nil => simp
      | cons opening rest => simp [uncalled opening rfl]
    | call kind' opens reads =>
      cases kind.symm.trans kind'
      simpa [opens] using reads
    | undefined kind' | figure kind' | group kind' | sequence kind' | conditional kind'
    | block kind' => cases kind.symm.trans kind'

theorem group_iff : (group line tokens).Reads expr rest ↔
    ∃ inner closing, (atRank 0 tokens).Reads inner (closing :: rest) ∧
      closing.kind = .sign .rightParen ∧ expr = .group inner line := by
  simp only [group, expression_eq, bind_iff, map_iff, within_iff, takeSign_iff]
  constructor
  · intro given
    obtain ⟨inner, _, shorter, reads, closing, ⟨rfl, closes⟩, rfl⟩ := given
    exact ⟨inner, closing, reads, closes, rfl⟩
  · intro given
    obtain ⟨inner, closing, reads, closes, rfl⟩ := given
    exact ⟨inner, _, reads.shorter, reads, closing, ⟨rfl, closes⟩, rfl⟩

theorem conditional_iff : (conditional line tokens).Reads expr rest ↔
    ∃ condition thenWord second positive elseWord third negative,
      (atRank 0 tokens).Reads condition (thenWord :: second) ∧
      thenWord.kind = .keyword .thenWord ∧
      (atRank 0 second).Reads positive (elseWord :: third) ∧
      elseWord.kind = .keyword .elseWord ∧
      (atRank 0 third).Reads negative rest ∧
      expr = .conditional condition positive negative line := by
  simp only [conditional, expression_eq, bind_iff, map_iff, within_iff, takeWord_iff]
  constructor
  · intro given
    obtain ⟨condition, _, _, reads, thenWord, second, _, ⟨rfl, isThen⟩, positive, _, _,
      positiveReads, elseWord, third, _, ⟨rfl, isElse⟩, negative, negativeReads, rfl⟩ := given
    exact ⟨condition, thenWord, second, positive, elseWord, third, negative, reads, isThen,
      positiveReads, isElse, negativeReads, rfl⟩
  · intro given
    obtain ⟨condition, thenWord, second, positive, elseWord, third, negative, reads, isThen,
      positiveReads, isElse, negativeReads, rfl⟩ := given
    have first := reads.shorter
    have thenShorter := positiveReads.shorter
    simp only [List.length_cons] at first thenShorter
    exact ⟨condition, _, reads.shorter, reads, thenWord, second, by omega, ⟨rfl, isThen⟩,
      positive, _, by simp only [List.length_cons]; omega, positiveReads, elseWord, third, by omega,
      ⟨rfl, isElse⟩, negative, negativeReads, rfl⟩

theorem block_iff : (block line tokens).Reads expr rest ↔
    ∃ statements middle body, (instructions tokens).Reads statements middle ∧
      (atRank 0 middle).Reads body rest ∧ expr = .block statements body line := by
  simp only [block, expression_eq, bind_iff, map_iff, within_iff]
  constructor
  · intro given
    obtain ⟨statements, middle, _, reads, body, bodyReads, rfl⟩ := given
    exact ⟨statements, middle, body, reads, bodyReads, rfl⟩
  · intro given
    obtain ⟨statements, middle, body, reads, bodyReads, rfl⟩ := given
    exact ⟨statements, middle, reads.shorter, reads, body, bodyReads, rfl⟩

theorem primary_iff : (atRank 7 tokens).Reads expr rest ↔ Primary tokens expr rest := by
  change (primary tokens).Reads expr rest ↔ _
  rw [primary.eq_def]
  constructor
  · intro reads
    cases tokens with
    | nil => simp at reads
    | cons token others =>
      dsimp only at reads
      split at reads
      · next n kind =>
        obtain ⟨rfl, rfl⟩ := ok_iff.mp reads
        exact .literal (.number n) kind
      · next s kind =>
        obtain ⟨rfl, rfl⟩ := ok_iff.mp reads
        exact .literal (.string s) kind
      · next b kind =>
        obtain ⟨rfl, rfl⟩ := ok_iff.mp reads
        exact .literal (.boolean b) kind
      · next kind =>
        obtain ⟨rfl, rfl⟩ := ok_iff.mp reads
        exact .undefined kind
      · next kind =>
        rw [within_iff, group_iff] at reads
        obtain ⟨inner, closing, reads, closes, rfl⟩ := reads
        exact .group kind reads closes
      · next kind => exact .sequence kind (within_iff.mp reads)
      · next kind =>
        rw [within_iff, conditional_iff] at reads
        obtain ⟨_, _, _, _, _, _, _, reads, isThen, positiveReads, isElse, negativeReads, rfl⟩ :=
          reads
        exact .conditional kind reads isThen positiveReads isElse negativeReads
      · next kind =>
        rw [within_iff, block_iff] at reads
        obtain ⟨_, _, _, reads, bodyReads, rfl⟩ := reads
        exact .block kind reads bodyReads
      · next name kind => exact (constantOrCall_iff kind).mp reads
      · next figure kind =>
        simp only [bind_iff, within_iff, takeSign_iff, map_iff] at reads
        obtain ⟨opening, others, _, ⟨rfl, opens⟩, arguments, reads, rfl⟩ := reads
        exact .figure kind opens reads
      · simp at reads
  · intro primary
    cases id primary with
    | literal value kind => cases value <;> simp [kind, Literal.kind]
    | undefined kind => simp [kind]
    | group kind reads closes =>
      simp only [kind, within_iff, group_iff]
      exact ⟨_, _, reads, closes, rfl⟩
    | sequence kind reads => simpa only [kind, within_iff] using reads
    | conditional kind reads isThen positiveReads isElse negativeReads =>
      simp only [kind, within_iff, conditional_iff]
      exact ⟨_, _, _, _, _, _, _, reads, isThen, positiveReads, isElse, negativeReads, rfl⟩
    | block kind reads bodyReads =>
      simp only [kind, within_iff, block_iff]
      exact ⟨_, _, _, reads, bodyReads, rfl⟩
    | constant kind uncalled => simpa only [kind] using (constantOrCall_iff kind).mpr primary
    | call kind opens reads => simpa only [kind] using (constantOrCall_iff kind).mpr primary
    | @figure token opening others rest figure arguments kind opens reads =>
      simp only [kind, bind_iff, within_iff, takeSign_iff, map_iff]
      exact ⟨opening, others, by simp only [List.length_cons]; omega, ⟨rfl, opens⟩, arguments,
        reads, rfl⟩

/-- Signs before an operand. -/
inductive Signed : List Token → Expr → List Token → Prop where
  | plain {tokens rest : List Token} {operand : Expr} (rule : Primary tokens operand rest) :
      Signed tokens operand rest
  | signed {token : Token} {others rest : List Token} {op : UnaryOperator} {operand : Expr}
      (kind : token.kind = .sign op.sign) (reads : (atRank 6 others).Reads operand rest) :
      Signed (token :: others) (.unary op operand token.line) rest

theorem unary_iff : (atRank 6 tokens).Reads expr rest ↔ Signed tokens expr rest := by
  change (unary tokens).Reads expr rest ↔ _
  rw [unary.eq_def]
  constructor
  · intro reads
    cases tokens with
    | nil => exact .plain (primary_iff.mp reads)
    | cons token others =>
      dsimp only at reads
      split at reads
      · next kind =>
        simp only [map_iff, within_iff] at reads
        obtain ⟨operand, reads, rfl⟩ := reads
        have spelled : token.kind = .sign UnaryOperator.negate.sign := kind
        exact .signed spelled reads
      · next kind =>
        simp only [map_iff, within_iff] at reads
        obtain ⟨operand, reads, rfl⟩ := reads
        have spelled : token.kind = .sign UnaryOperator.not.sign := kind
        exact .signed spelled reads
      · exact .plain (primary_iff.mp reads)
  · intro signed
    cases signed with
    | plain rule =>
      have reads : (primary tokens).Reads expr rest := primary_iff.mpr rule
      cases rule with
      | literal value kind => cases value <;> simpa only [kind, Literal.kind] using reads
      | undefined kind | constant kind | call kind | figure kind | group kind | sequence kind
      | conditional kind | block kind => simpa only [kind] using reads
    | @signed token others rest op operand kind reads =>
      cases op with
      | negate =>
        simp only [kind, UnaryOperator.sign, map_iff, within_iff]
        exact ⟨operand, reads, rfl⟩
      | not =>
        simp only [kind, UnaryOperator.sign, map_iff, within_iff]
        exact ⟨operand, reads, rfl⟩

end Parse

/-- Whether an expression may begin with the token. -/
def TokenKind.leads : TokenKind → Bool
  | .number _ | .string _ | .boolean _ | .identifier _ | .figure _ => true
  | .keyword word => word = .undefined || word = .ifWord || word = .letWord
  | .sign first => first = .minus || first = .bang || first = .leftParen || first = .leftBrace
  | .endOfInput => false

theorem TokenKind.ne_of_leads {kind other : TokenKind} (leads : kind.leads = true)
    (unled : other.leads = false) : kind ≠ other := by
  intro same
  rw [same, unled] at leads
  contradiction

/-- An expression begins here. A name that it begins with is all of it, is called or is an operand,
and the kind of a figure is called. -/
def Leads (tokens rest : List Token) : Prop :=
  ∃ token others, tokens = token :: others ∧ token.kind.leads = true ∧
    (∀ name, token.kind = .identifier name → others = rest ∨
      ∃ next ∈ others.head?, next.kind = .sign .leftParen ∨
        ∃ op : BinaryOperator, next.kind = .sign op.sign) ∧
    ∀ figure, token.kind = .figure figure → ∃ next ∈ others.head?, next.kind = .sign .leftParen

namespace Parse

open Step Step.Reads

variable {tokens middle rest : List Token} {expr : Expr} {rank line : Nat}

theorem Leads.join {token : Token} {op : BinaryOperator} {others : List Token}
    (leads : Leads tokens (token :: others)) (kind : token.kind = .sign op.sign) :
    Leads tokens rest := by
  obtain ⟨first, following, rfl, firstLeads, named, called⟩ := leads
  refine ⟨first, following, rfl, firstLeads, fun name identifier => .inr ?_, called⟩
  rcases named name identifier with rfl | called
  · exact ⟨token, rfl, .inr ⟨op, kind⟩⟩
  · exact called

theorem Primary.leads (primary : Primary tokens expr rest) : Leads tokens rest := by
  cases primary with
  | literal value kind =>
    cases value <;> exact ⟨_, _, rfl, by simp [kind, Literal.kind, TokenKind.leads],
      by simp [kind, Literal.kind], by simp [kind, Literal.kind]⟩
  | constant kind =>
    exact ⟨_, _, rfl, by simp [kind, TokenKind.leads], fun _ _ => .inl rfl, by simp [kind]⟩
  | call kind opens =>
    exact ⟨_, _, rfl, by simp [kind, TokenKind.leads], fun _ _ => .inr ⟨_, rfl, .inl opens⟩,
      by simp [kind]⟩
  | figure kind opens =>
    exact ⟨_, _, rfl, by simp [kind, TokenKind.leads], by simp [kind], fun _ _ => ⟨_, rfl, opens⟩⟩
  | undefined kind | group kind | sequence kind | conditional kind | block kind =>
    exact ⟨_, _, rfl, by simp [kind, TokenKind.leads], by simp [kind], by simp [kind]⟩

theorem Joins.leads {left : Expr} {source : List Token} (joins : Joins rank left middle expr rest)
    (leads : Leads source middle) : Leads source rest := by
  induction joins with
  | none => exact leads
  | more _ kind _ _ ih => exact Leads.join ih kind

/-- Every rank is read over the next one, down to the last. -/
theorem rank_induction {motive : (rank : Nat) → rank ≤ 7 → Prop}
    (primary : motive 7 (by decide)) (unary : motive 7 (by decide) → motive 6 (by decide))
    (power : motive 6 (by decide) → motive 5 (by decide))
    (level : ∀ (rank : Nat) (level : rank < 5),
      motive (rank + 1) (by omega) → motive rank (by omega))
    (rank : Nat) (bounded : rank ≤ 7) : motive rank bounded := by
  have five := power (unary primary)
  have four := level 4 (by decide) five
  have three := level 3 (by decide) four
  have two := level 2 (by decide) three
  have one := level 1 (by decide) two
  match rank with
  | 0 => exact level 0 (by decide) one
  | 1 => exact one
  | 2 => exact two
  | 3 => exact three
  | 4 => exact four
  | 5 => exact five
  | 6 => exact unary primary
  | 7 => exact primary

theorem atRank_leads (bounded : rank ≤ 7) (reads : (atRank rank tokens).Reads expr rest) :
    Leads tokens rest := by
  induction rank, bounded using rank_induction generalizing expr rest with
  | primary => exact (primary_iff.mp reads).leads
  | unary _ =>
    cases unary_iff.mp reads with
    | plain rule => exact rule.leads
    | @signed _ _ _ op _ kind =>
      cases op <;> exact ⟨_, _, rfl, by simp [kind, UnaryOperator.sign, TokenKind.leads],
        by simp [kind], by simp [kind]⟩
  | power ih =>
    cases power_iff.mp reads with
    | base baseReads => exact ih baseReads
    | @raised _ _ caret _ _ baseReads kind =>
      have spelled : caret.kind = .sign BinaryOperator.power.sign := kind
      exact Leads.join (ih baseReads) spelled
  | level rank level ih =>
    obtain ⟨first, middle, reads, joins, _⟩ := (atRank_of_lt level).mp reads
    exact joins.leads (ih reads)

theorem expression_leads (reads : (atRank 0 tokens).Reads expr rest) : Leads tokens rest :=
  atRank_leads (Nat.zero_le _) reads

/-- Expressions with commas between them up to a closing sign. -/
inductive Listed (closing : Sign) : List Token → List Expr → List Token → Prop where
  | last {tokens rest : List Token} {last : Expr} {token : Token}
      (reads : (atRank 0 tokens).Reads last (token :: rest)) (kind : token.kind = .sign closing) :
      Listed closing tokens [last] rest
  | more {tokens others rest : List Token} {first : Expr} {more : List Expr} {token : Token}
      (reads : (atRank 0 tokens).Reads first (token :: others)) (kind : token.kind = .sign .comma)
      (listed : Listed closing others more rest) : Listed closing tokens (first :: more) rest

theorem someItems_listed {closing : Sign} {exprs : List Expr} {tokens : List Token}
    (reads : (someItems closing tokens).Reads exprs rest) : Listed closing tokens exprs rest := by
  rw [someItems, expression_eq, bind_iff] at reads
  obtain ⟨first, middle, shorter, firstReads, following⟩ := reads
  cases middle with
  | nil => simp at following
  | cons token others =>
    dsimp only at following
    split at following
    · next comma =>
      simp only [map_iff, within_iff] at following
      obtain ⟨more, reads, rfl⟩ := following
      exact .more firstReads comma (someItems_listed reads)
    · split at following
      · next close =>
        obtain ⟨rfl, rfl⟩ := ok_iff.mp following
        exact .last firstReads close
      · simp at following
  termination_by tokens.length
  decreasing_by exact Nat.lt_of_succ_lt shorter

theorem Listed.leads {closing : Sign} {exprs : List Expr}
    (listed : Listed closing tokens exprs rest) :
    ∃ token others, tokens = token :: others ∧ token.kind.leads = true := by
  cases listed with
  | last reads | more reads =>
    obtain ⟨token, others, rfl, leads, _⟩ := expression_leads reads
    exact ⟨token, others, rfl, leads⟩

theorem Listed.reads {closing : Sign} {exprs : List Expr}
    (listed : Listed closing tokens exprs rest) (closes : closing ≠ .comma) :
    (someItems closing tokens).Reads exprs rest := by
  induction listed with
  | last reads kind =>
    rw [someItems, expression_eq, bind_iff]
    exact ⟨_, _, reads.shorter, reads, by simp [kind, closes]⟩
  | more reads kind _ ih =>
    rw [someItems, expression_eq, bind_iff]
    exact ⟨_, _, reads.shorter, reads, by simpa [kind] using ih⟩

theorem items_iff {closing : Sign} {exprs : List Expr}
    (closes : closing = .rightParen ∨ closing = .rightBrace) :
    (items closing tokens).Reads exprs rest ↔
      (exprs = [] ∧ ∃ token, tokens = token :: rest ∧ token.kind = .sign closing) ∨
        Listed closing tokens exprs rest := by
  rw [items.eq_def]
  constructor
  · intro reads
    cases tokens with
    | nil => exact .inr (someItems_listed reads)
    | cons token others =>
      dsimp only at reads
      split at reads
      · next close =>
        obtain ⟨rfl, rfl⟩ := ok_iff.mp reads
        exact .inl ⟨rfl, token, rfl, close⟩
      · exact .inr (someItems_listed reads)
  · intro given
    rcases given with ⟨rfl, token, rfl, close⟩ | listed
    · simp [close]
    · have reads := listed.reads (by rcases closes with rfl | rfl <;> decide)
      obtain ⟨token, others, rfl, leads⟩ := listed.leads
      have unclosed : token.kind ≠ .sign closing := by
        rcases closes with rfl | rfl
        · exact TokenKind.ne_of_leads leads rfl
        · exact TokenKind.ne_of_leads leads rfl
      simpa [unclosed] using reads

/-- What may stand after an opening brace: elements, or number literals around an ellipsis. -/
inductive Braced (line : Nat) : List Token → Expr → List Token → Prop where
  | empty {closing : Token} {rest : List Token} (closes : closing.kind = .sign .rightBrace) :
      Braced line (closing :: rest) (.sequence [] line) rest
  | single {tokens rest : List Token} {element : Expr} {closing : Token}
      (reads : (atRank 0 tokens).Reads element (closing :: rest))
      (closes : closing.kind = .sign .rightBrace) :
      Braced line tokens (.sequence [element] line) rest
  | many {tokens others rest : List Token} {first : Expr} {elements : List Expr} {comma : Token}
      (reads : (atRank 0 tokens).Reads first (comma :: others))
      (kind : comma.kind = .sign .comma)
      (more : (items .rightBrace others).Reads elements rest) :
      Braced line tokens (.sequence (first :: elements) line) rest
  | infinite {tokens rest : List Token} {start : Float} {startLine : Nat}
      {ellipsis closing : Token}
      (reads : (atRank 0 tokens).Reads (.literal (.number start) startLine)
        (ellipsis :: closing :: rest))
      (kind : ellipsis.kind = .sign .ellipsis) (isBound : Number.isBound start = true)
      (closes : closing.kind = .sign .rightBrace) :
      Braced line tokens (.infinite start line) rest
  | range {tokens others rest : List Token} {start finish : Float} {startLine finishLine : Nat}
      {ellipsis closing : Token}
      (reads : (atRank 0 tokens).Reads (.literal (.number start) startLine)
        (ellipsis :: others))
      (kind : ellipsis.kind = .sign .ellipsis) (isBound : Number.isBound start = true)
      (finishReads : (atRank 0 others).Reads (.literal (.number finish) finishLine)
        (closing :: rest))
      (finishIsBound : Number.isBound finish = true)
      (closes : closing.kind = .sign .rightBrace) :
      Braced line tokens (.range start finish line) rest

theorem closedRange_iff {start : Float} : (closedRange start line tokens).Reads expr rest ↔
    ∃ finish finishLine closing,
      (atRank 0 tokens).Reads (.literal (.number finish) finishLine) (closing :: rest) ∧
      Number.isBound finish = true ∧ closing.kind = .sign .rightBrace ∧
      expr = .range start finish line := by
  rw [closedRange, expression_eq, bind_iff]
  constructor
  · intro given
    obtain ⟨last, middle, shorter, reads, following⟩ := given
    cases bounded : bound last with
    | error error => simp [bounded] at following
    | ok finish =>
      obtain ⟨finishLine, rfl, isBound⟩ := bound_eq_ok.mp bounded
      simp only [bounded, map_iff, within_iff, takeSign_iff] at following
      obtain ⟨closing, ⟨rfl, closes⟩, rfl⟩ := following
      exact ⟨finish, finishLine, closing, reads, isBound, closes, rfl⟩
  · intro given
    obtain ⟨finish, finishLine, closing, reads, isBound, closes, rfl⟩ := given
    refine ⟨_, _, reads.shorter, reads, ?_⟩
    simp [bound_eq_ok.mpr ⟨finishLine, rfl, isBound⟩, closes]

theorem range_iff {start : Float} : (range start line tokens).Reads expr rest ↔
    (expr = .infinite start line ∧
      ∃ closing, tokens = closing :: rest ∧ closing.kind = .sign .rightBrace) ∨
    (closedRange start line tokens).Reads expr rest := by
  rw [range.eq_def]
  constructor
  · intro reads
    cases tokens with
    | nil => exact .inr reads
    | cons token others =>
      dsimp only at reads
      split at reads
      · next closes =>
        obtain ⟨rfl, rfl⟩ := ok_iff.mp reads
        exact .inl ⟨rfl, token, rfl, closes⟩
      · exact .inr reads
  · intro given
    rcases given with ⟨rfl, closing, rfl, closes⟩ | reads
    · simp [closes]
    · obtain ⟨_, _, _, finishReads, _⟩ := closedRange_iff.mp reads
      obtain ⟨token, others, rfl, leads, _⟩ := expression_leads finishReads
      have unclosed : token.kind ≠ .sign .rightBrace := TokenKind.ne_of_leads leads rfl
      simpa [unclosed] using reads

theorem someSequence_braced (reads : (someSequence line tokens).Reads expr rest) :
    Braced line tokens expr rest := by
  rw [someSequence, expression_eq, bind_iff] at reads
  obtain ⟨first, middle, shorter, firstReads, following⟩ := reads
  cases middle with
  | nil => simp at following
  | cons token others =>
    dsimp only at following
    split at following
    · next ellipsis =>
      cases bounded : bound first with
      | error error => simp [bounded] at following
      | ok start =>
        obtain ⟨startLine, rfl, isBound⟩ := bound_eq_ok.mp bounded
        simp only [bounded, within_iff, range_iff, closedRange_iff] at following
        rcases following with ⟨rfl, closing, rfl, closes⟩ |
          ⟨finish, finishLine, closing, finishReads, finishIsBound, closes, rfl⟩
        · exact .infinite firstReads ellipsis isBound closes
        · exact .range firstReads ellipsis isBound finishReads finishIsBound closes
    · split at following
      · next comma =>
        simp only [map_iff, within_iff] at following
        obtain ⟨elements, more, rfl⟩ := following
        exact .many firstReads comma more
      · split at following
        · next closes =>
          obtain ⟨rfl, rfl⟩ := ok_iff.mp following
          exact .single firstReads closes
        · simp at following

/-- Past an empty sequence the brace is followed by an expression. -/
theorem Braced.sequence_reads (braced : Braced line tokens expr rest) :
    (sequence line tokens).Reads expr rest := by
  have started {first : Expr} {middle : List Token}
      (reads : (atRank 0 tokens).Reads first middle)
      (some_reads : (someSequence line tokens).Reads expr rest) :
      (sequence line tokens).Reads expr rest := by
    obtain ⟨token, others, rfl, leads, _⟩ := expression_leads reads
    have unclosed : token.kind ≠ .sign .rightBrace := TokenKind.ne_of_leads leads rfl
    rw [sequence.eq_def]
    simpa [unclosed] using some_reads
  cases braced with
  | empty closes =>
    rw [sequence.eq_def]
    simp [closes]
  | single reads closes =>
    refine started reads ?_
    rw [someSequence, expression_eq, bind_iff]
    exact ⟨_, _, reads.shorter, reads, by simp [closes]⟩
  | many reads kind more =>
    refine started reads ?_
    rw [someSequence, expression_eq, bind_iff]
    exact ⟨_, _, reads.shorter, reads, by simpa [kind] using more⟩
  | infinite reads kind isBound closes =>
    refine started reads ?_
    rw [someSequence, expression_eq, bind_iff]
    refine ⟨_, _, reads.shorter, reads, ?_⟩
    simp only [kind, if_true, bound_eq_ok.mpr ⟨_, rfl, isBound⟩, within_iff, range_iff]
    exact .inl ⟨trivial, _, rfl, closes⟩
  | range reads kind isBound finishReads finishIsBound closes =>
    refine started reads ?_
    rw [someSequence, expression_eq, bind_iff]
    refine ⟨_, _, reads.shorter, reads, ?_⟩
    simp only [kind, if_true, bound_eq_ok.mpr ⟨_, rfl, isBound⟩, within_iff, range_iff,
      closedRange_iff]
    exact .inr ⟨_, _, _, finishReads, finishIsBound, closes, rfl⟩

theorem sequence_iff : (sequence line tokens).Reads expr rest ↔ Braced line tokens expr rest := by
  constructor
  · intro reads
    rw [sequence.eq_def] at reads
    cases tokens with
    | nil => exact someSequence_braced reads
    | cons token others =>
      dsimp only at reads
      split at reads
      · next closes =>
        obtain ⟨rfl, rfl⟩ := ok_iff.mp reads
        exact .empty closes
      · exact someSequence_braced reads
  · exact Braced.sequence_reads

end Parse

end GSharp
