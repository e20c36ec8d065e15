import GSharp.Proofs.Syntax.Rules

namespace GSharp

namespace BinaryOperator

theorem sign_injective {op other : BinaryOperator} (same : op.sign = other.sign) : op = other := by
  cases op <;> cases other <;> first | rfl | cases same

end BinaryOperator

namespace Level

def rank : Level → Nat
  | logical => 0
  | equality => 1
  | ordering => 2
  | additive => 3
  | multiplicative => 4

theorem exists_rank {rank : Nat} (level : rank < 5) : ∃ level : Level, level.rank = rank := by
  match rank with
  | 0 => exact ⟨logical, rfl⟩
  | 1 => exact ⟨equality, rfl⟩
  | 2 => exact ⟨ordering, rfl⟩
  | 3 => exact ⟨additive, rfl⟩
  | 4 => exact ⟨multiplicative, rfl⟩

theorem mem_operators {level : Level} {op : BinaryOperator} :
    op ∈ level.operators ↔ op.rank = level.rank := by
  cases level <;> cases op <;> simp [operators, rank, BinaryOperator.rank]

theorem operator?_eq_some {level : Level} {kind : TokenKind} {op : BinaryOperator} :
    level.operator? kind = some op ↔ kind = .sign op.sign ∧ op.rank = level.rank := by
  constructor
  · intro found
    have spelled := List.find?_some found
    have member := List.mem_of_find?_eq_some found
    exact ⟨of_decide_eq_true spelled, mem_operators.mp member⟩
  · intro given
    obtain ⟨rfl, level⟩ := given
    cases found : Level.operator? _ (.sign op.sign) with
    | none =>
      have unspelled := List.find?_eq_none.mp found op (mem_operators.mpr level)
      simp at unspelled
    | some other =>
      have spelled := List.find?_some found
      simp only [decide_eq_true_eq, TokenKind.sign.injEq] at spelled
      rw [BinaryOperator.sign_injective spelled]

end Level

/-- No operator of the rank comes next. -/
def Unjoined (rank : Nat) (rest : List Token) : Prop :=
  ∀ token ∈ rest.head?, ∀ op : BinaryOperator, token.kind = .sign op.sign → op.rank ≠ rank

/-- No operator of the rank or of a tighter one comes next. -/
def Stops (rank : Nat) (rest : List Token) : Prop :=
  ∀ token ∈ rest.head?, ∀ op : BinaryOperator, token.kind = .sign op.sign → op.rank < rank

namespace Stops

variable {rank other : Nat} {token : Token} {rest : List Token}

theorem mono (stops : Stops rank rest) (le : rank ≤ other) : Stops other rest := by
  intro token first op kind
  exact Nat.lt_of_lt_of_le (stops token first op kind) le

theorem unjoined (stops : Stops rank rest) : Unjoined rank rest := by
  intro token first op kind
  exact Nat.ne_of_lt (stops token first op kind)

theorem loosen (stops : Stops (rank + 1) rest) (unjoined : Unjoined rank rest) :
    Stops rank rest := by
  intro token first op kind
  have bounded := stops token first op kind
  have different := unjoined token first op kind
  omega

theorem cons_iff : Stops rank (token :: rest) ↔
    ∀ op : BinaryOperator, token.kind = .sign op.sign → op.rank < rank := by
  simp [Stops]

/-- No operator binds as tightly as a sign before an operand. -/
theorem six : Stops 6 rest := by
  intro token first op kind
  exact Nat.lt_succ_of_le op.rank_le_five

theorem of_operator {op : BinaryOperator} (kind : token.kind = .sign op.sign)
    (below : op.rank < rank) : Stops rank (token :: rest) := by
  refine cons_iff.mpr ?_
  intro other same
  obtain rfl := BinaryOperator.sign_injective (TokenKind.sign.inj (kind.symm.trans same))
  exact below

end Stops

namespace Parse

open Step Step.Reads

variable {tokens middle rest : List Token} {expr : Expr} {rank line : Nat}

/-- Reading at a rank: operators of that rank and tighter ones are read, looser ones are not. -/
def atRank : Nat → (tokens : List Token) → Step Expr tokens
  | 0 => leftAssociative .logical
  | 1 => leftAssociative .equality
  | 2 => leftAssociative .ordering
  | 3 => leftAssociative .additive
  | 4 => leftAssociative .multiplicative
  | 5 => power
  | 6 => unary
  | _ => primary

theorem expression_eq (tokens : List Token) : expression tokens = atRank 0 tokens := by
  rw [expression]
  rfl

theorem leftAssociative_eq (level : Level) (tokens : List Token) :
    leftAssociative level tokens = atRank level.rank tokens := by
  cases level <;> rfl

theorem operand_eq (level : Level) (tokens : List Token) :
    operand level tokens = atRank (level.rank + 1) tokens := by
  cases level <;> rw [operand] <;> rfl

/-- Operators of one rank with their right operands, taken onto what stands to their left. -/
inductive Joins (rank : Nat) (left : Expr) (tokens : List Token) : Expr → List Token → Prop where
  | none : Joins rank left tokens left tokens
  | more {joined right : Expr} {op : BinaryOperator} {token : Token} {others rest : List Token}
      (joins : Joins rank left tokens joined (token :: others))
      (kind : token.kind = .sign op.sign) (level : op.rank = rank)
      (reads : (atRank (rank + 1) others).Reads right rest) :
      Joins rank left tokens (.binary op joined right token.line) rest

theorem Joins.first {left right : Expr} {op : BinaryOperator} {token : Token}
    (kind : token.kind = .sign op.sign) (level : op.rank = rank)
    (reads : (atRank (rank + 1) tokens).Reads right middle)
    (joins : Joins rank (.binary op left right token.line) middle expr rest) :
    Joins rank left (token :: tokens) expr rest := by
  induction joins with
  | none => exact .more .none kind level reads
  | more _ kind' level' reads' ih => exact .more ih kind' level' reads'

theorem Joins.length_le {left : Expr} (joins : Joins rank left tokens expr rest) :
    rest.length ≤ tokens.length := by
  induction joins with
  | none => exact Nat.le_refl _
  | more _ _ _ reads ih => exact Nat.le_of_lt (Nat.lt_trans reads.shorter ih)

theorem chain_joins {level : Level} {left : Expr} {source tokens : List Token}
    {shorter : tokens.length < source.length}
    (reads : (chain level left tokens shorter).Reads expr rest) :
    Joins level.rank left tokens expr rest ∧ Unjoined level.rank rest := by
  match tokens with
  | [] =>
    rw [chain.eq_def, ok_iff] at reads
    obtain ⟨rfl, rfl⟩ := reads
    exact ⟨.none, by simp [Unjoined]⟩
  | token :: others =>
    rw [chain.eq_def] at reads
    dsimp only at reads
    split at reads
    · next none =>
      obtain ⟨rfl, rfl⟩ := ok_iff.mp reads
      refine ⟨.none, ?_⟩
      rintro _ ⟨⟩ op kind level
      simp [Level.operator?_eq_some.mpr ⟨kind, level⟩] at none
    · next op found =>
      obtain ⟨right, middle, fewer, rightReads, reads⟩ := andThen_iff.mp reads
      obtain ⟨kind, rank⟩ := Level.operator?_eq_some.mp found
      obtain ⟨joins, unjoined⟩ := chain_joins reads
      rw [operand_eq] at rightReads
      exact ⟨.first kind rank rightReads joins, unjoined⟩
  termination_by tokens.length

/-- What was joined so far is where the chain goes on. -/
theorem Joins.chain_reads {level : Level} {left joined result : Expr}
    {source tokens middle rest : List Token} {shorter : tokens.length < source.length}
    (joins : Joins level.rank left tokens joined middle)
    (fewer : middle.length < source.length)
    (reads : (chain level joined middle fewer).Reads result rest) :
    (chain level left tokens shorter).Reads result rest := by
  induction joins with
  | none => exact reads
  | @more joined right op token others _ joins kind rank rightReads ih =>
    refine ih (Nat.lt_of_le_of_lt joins.length_le shorter) ?_
    rw [chain.eq_def]
    simp only [Level.operator?_eq_some.mpr ⟨kind, rank⟩, operand_eq, andThen_iff]
    exact ⟨right, _, rightReads.shorter, rightReads, reads⟩

theorem chain_iff {level : Level} {left : Expr} {source tokens : List Token}
    {shorter : tokens.length < source.length} :
    (chain level left tokens shorter).Reads expr rest ↔
      Joins level.rank left tokens expr rest ∧ Unjoined level.rank rest := by
  constructor
  · exact chain_joins
  · intro given
    obtain ⟨joins, unjoined⟩ := given
    refine joins.chain_reads (Nat.lt_of_le_of_lt joins.length_le shorter) ?_
    rw [chain.eq_def]
    cases rest with
    | nil => simp
    | cons token others =>
      dsimp only
      split
      · simp
      · next op found =>
        obtain ⟨kind, rank⟩ := Level.operator?_eq_some.mp found
        exact absurd rank (unjoined token rfl op kind)

/-- A level is read as an operand of the next one and all that its operators join to it. -/
theorem atRank_of_lt (level : rank < 5) :
    (atRank rank tokens).Reads expr rest ↔
      ∃ first middle, (atRank (rank + 1) tokens).Reads first middle ∧
        Joins rank first middle expr rest ∧ Unjoined rank rest := by
  obtain ⟨level, rfl⟩ := Level.exists_rank level
  rw [← leftAssociative_eq, leftAssociative, bind_iff]
  simp only [operand_eq, chain_iff]
  constructor
  · intro given
    obtain ⟨first, middle, _, reads, joined⟩ := given
    exact ⟨first, middle, reads, joined⟩
  · intro given
    obtain ⟨first, middle, reads, joined⟩ := given
    exact ⟨first, middle, reads.shorter, reads, joined⟩

/-- A base, or a base with an exponent that is itself read as a power. -/
inductive Powers (tokens : List Token) : Expr → List Token → Prop where
  | base {base : Expr} {rest : List Token} (reads : (atRank 6 tokens).Reads base rest)
      (unjoined : Unjoined 5 rest) : Powers tokens base rest
  | raised {base exponent : Expr} {caret : Token} {others rest : List Token}
      (reads : (atRank 6 tokens).Reads base (caret :: others))
      (kind : caret.kind = .sign .caret) (exponentReads : (atRank 5 others).Reads exponent rest) :
      Powers tokens (.binary .power base exponent caret.line) rest

theorem unjoined_power_iff {token : Token} {others : List Token} :
    Unjoined 5 (token :: others) ↔ token.kind ≠ .sign .caret := by
  constructor
  · intro unjoined kind
    exact unjoined token rfl .power kind rfl
  · rintro other _ ⟨⟩ op kind rank
    cases op <;> first | exact other kind | cases rank

theorem power_iff : (atRank 5 tokens).Reads expr rest ↔ Powers tokens expr rest := by
  change (power tokens).Reads expr rest ↔ _
  rw [power, bind_iff]
  constructor
  · intro given
    obtain ⟨base, middle, shorter, reads, following⟩ := given
    cases middle with
    | nil =>
      obtain ⟨rfl, rfl⟩ := ok_iff.mp following
      exact .base reads (by simp [Unjoined])
    | cons token others =>
      by_cases kind : token.kind = .sign .caret
      · simp only [kind, if_true, map_iff, within_iff] at following
        obtain ⟨exponent, exponentReads, rfl⟩ := following
        exact .raised reads kind exponentReads
      · simp only [kind, if_false, ok_iff] at following
        obtain ⟨rfl, rfl⟩ := following
        exact .base reads (unjoined_power_iff.mpr kind)
  · intro powers
    cases powers with
    | base reads unjoined =>
      refine ⟨expr, rest, reads.shorter, reads, ?_⟩
      cases rest with
      | nil => simp
      | cons token others => simp [unjoined_power_iff.mp unjoined]
    | @raised base exponent caret others _ reads kind exponentReads =>
      refine ⟨base, caret :: others, reads.shorter, reads, ?_⟩
      simp only [kind, if_true, map_iff, within_iff]
      exact ⟨exponent, exponentReads, rfl⟩

end Parse

end GSharp
