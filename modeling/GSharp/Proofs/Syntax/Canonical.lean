import GSharp.Number.Count
import GSharp.Syntax
import Mathlib

/-!
Trees that can be written without parentheses other than those of their groups. Operands have the
rank that their operator asks for, and the tail of a conditional or a block, which reaches as far
as it can, is never followed by an operator.
-/
namespace GSharp

namespace BinaryOperator

/-- From the logical operators, which join most loosely, to the power. -/
def rank : BinaryOperator → Nat
  | and | or => 0
  | equal | notEqual => 1
  | less | greater | lessEqual | greaterEqual => 2
  | add | subtract => 3
  | multiply | divide | remainder => 4
  | power => 5

/-- The least rank of a left operand. -/
def leftRank : BinaryOperator → Nat
  | power => 6
  | op => op.rank

/-- The least rank of a right operand. Powers alone group from the right. -/
def rightRank : BinaryOperator → Nat
  | power => 5
  | op => op.rank + 1

theorem rank_le_five (op : BinaryOperator) : op.rank ≤ 5 := by
  cases op <;> decide

theorem rank_le_rightRank (op : BinaryOperator) : op.rank ≤ op.rightRank := by
  cases op <;> decide

/-- A left operand is complete before the operator. -/
theorem rank_lt_rightRank {op inner : BinaryOperator} (tight : op.leftRank ≤ inner.rank) :
    op.rank < inner.rightRank := by
  revert tight
  cases op <;> cases inner <;> decide

/-- Away from the powers the levels group from the left. -/
theorem ranks_of_lt {op : BinaryOperator} (level : op.rank < 5) :
    op.leftRank = op.rank ∧ op.rightRank = op.rank + 1 := by
  revert level
  cases op <;> decide

end BinaryOperator

namespace Expr

def rank : Expr → Nat
  | .binary op _ _ _ => op.rank
  | .unary _ _ _ => 6
  | _ => 7

/-- Whether the tail of a conditional or of a block is the last thing written. -/
def endsOpen : Expr → Bool
  | .conditional _ _ _ _ | .block _ _ _ => true
  | .unary _ operand _ => operand.endsOpen
  | .binary _ _ right _ => right.endsOpen
  | _ => false

end Expr

namespace Statement

def isImport : Statement → Bool
  | .importFile _ _ => true
  | _ => false

def isFunction : Statement → Bool
  | .function _ _ _ _ => true
  | _ => false

end Statement

mutual

/-- The instructions of every block inside an expression, however deep they stand. -/
def Expr.instructions : Expr → List Statement
  | .literal _ _ | .undefined _ | .constant _ _ | .infinite _ _ | .range _ _ _ => []
  | .group inner _ => inner.instructions
  | .unary _ operand _ => operand.instructions
  | .binary _ left right _ => left.instructions ++ right.instructions
  | .conditional condition positive negative _ =>
    condition.instructions ++ positive.instructions ++ negative.instructions
  | .block instructions body _ => Statement.instructionsOfAll instructions ++ body.instructions
  | .call _ arguments _ | .figure _ arguments _ | .sequence arguments _ =>
    Expr.instructionsOfAll arguments

def Expr.instructionsOfAll : List Expr → List Statement
  | [] => []
  | first :: rest => first.instructions ++ Expr.instructionsOfAll rest

/-- The instructions of the blocks inside an instruction. -/
def Statement.instructions : Statement → List Statement
  | .expression value _ | .assign _ value _ | .assignMany _ value _ | .draw value _ _
  | .print value _ _ => value.instructions
  | .function _ _ body _ => body.instructions
  | .importFile _ _ | .color _ _ | .restore _ | .random _ _ _ _ => []

def Statement.instructionsOfAll : List Statement → List Statement
  | [] => []
  | first :: rest => first :: first.instructions ++ Statement.instructionsOfAll rest

end

/-- A whole number in `[0, 2 ^ 53 - 1)`. -/
def Number.isBound (x : Float) : Bool := Number.isSafeCount x && x < Number.ofNat Number.maxSafe

mutual

def Expr.isCanonical : Expr → Bool
  | .literal _ _ | .undefined _ | .constant _ _ => true
  | .group inner _ => inner.isCanonical
  | .unary _ operand _ => 6 ≤ operand.rank && operand.isCanonical
  | .binary op left right _ =>
    op.leftRank ≤ left.rank && op.rightRank ≤ right.rank && !left.endsOpen &&
      left.isCanonical && right.isCanonical
  | .conditional condition positive negative _ =>
    condition.isCanonical && positive.isCanonical && negative.isCanonical
  | .block instructions body _ =>
    !instructions.isEmpty && !instructions.any Statement.isImport &&
      Statement.allCanonical instructions && body.isCanonical
  | .call _ arguments _ | .figure _ arguments _ | .sequence arguments _ =>
    Expr.allCanonical arguments
  | .infinite start _ => Number.isBound start
  | .range start finish _ => Number.isBound start && Number.isBound finish

def Expr.allCanonical : List Expr → Bool
  | [] => true
  | first :: rest => first.isCanonical && Expr.allCanonical rest

def Statement.isCanonical : Statement → Bool
  | .expression value _ | .assign _ value _ | .draw value _ _ | .print value _ _ =>
    value.isCanonical
  | .assignMany names value _ => 2 ≤ names.length && value.isCanonical
  | .function _ parameters body _ =>
    decide parameters.Nodup && !body.instructions.any Statement.isFunction && body.isCanonical
  | .importFile _ _ | .color _ _ | .restore _ | .random _ _ _ _ => true

def Statement.allCanonical : List Statement → Bool
  | [] => true
  | first :: rest => first.isCanonical && Statement.allCanonical rest

end

/-- Every instruction is canonical, and imports come before everything else. -/
def Program.isCanonical (program : Program) : Bool :=
  Statement.allCanonical program && !(program.dropWhile Statement.isImport).any Statement.isImport

mutual

/-- The same tree with no line numbers. -/
def Expr.bare : Expr → Expr
  | .literal value _ => .literal value 0
  | .undefined _ => .undefined 0
  | .constant name _ => .constant name 0
  | .group inner _ => .group inner.bare 0
  | .unary op operand _ => .unary op operand.bare 0
  | .binary op left right _ => .binary op left.bare right.bare 0
  | .conditional condition positive negative _ =>
    .conditional condition.bare positive.bare negative.bare 0
  | .block instructions body _ => .block (Statement.bareAll instructions) body.bare 0
  | .call name arguments _ => .call name (Expr.bareAll arguments) 0
  | .figure kind arguments _ => .figure kind (Expr.bareAll arguments) 0
  | .sequence elements _ => .sequence (Expr.bareAll elements) 0
  | .infinite start _ => .infinite start 0
  | .range start finish _ => .range start finish 0

def Expr.bareAll : List Expr → List Expr
  | [] => []
  | first :: rest => first.bare :: Expr.bareAll rest

def Statement.bare : Statement → Statement
  | .expression value _ => .expression value.bare 0
  | .assign name value _ => .assign name value.bare 0
  | .assignMany names value _ => .assignMany names value.bare 0
  | .function name parameters body _ => .function name parameters body.bare 0
  | .importFile path _ => .importFile path 0
  | .draw value label _ => .draw value.bare label 0
  | .print value label _ => .print value.bare label 0
  | .color color _ => .color color 0
  | .restore _ => .restore 0
  | .random kind isSequence name _ => .random kind isSequence name 0

def Statement.bareAll : List Statement → List Statement
  | [] => []
  | first :: rest => first.bare :: Statement.bareAll rest

end

/-- The same program with no line numbers. -/
def Program.bare (program : Program) : Program := Statement.bareAll program

mutual

/-- The search for a declared function finds none exactly when no block has one. -/
theorem Expr.declaration?_eq_none (expr : Expr) :
    expr.declaration? = none ↔ ∀ inner ∈ expr.instructions, inner.isFunction = false := by
  cases expr with
  | literal | undefined | constant | infinite | range =>
    simp [Expr.declaration?, Expr.instructions]
  | group inner =>
    simpa [Expr.declaration?, Expr.instructions] using inner.declaration?_eq_none
  | unary op operand =>
    simpa [Expr.declaration?, Expr.instructions] using operand.declaration?_eq_none
  | binary op left right =>
    simp [Expr.declaration?, Expr.instructions, left.declaration?_eq_none,
      right.declaration?_eq_none, or_imp, forall_and]
  | conditional condition positive negative =>
    simp [Expr.declaration?, Expr.instructions, condition.declaration?_eq_none,
      positive.declaration?_eq_none, negative.declaration?_eq_none, or_imp, forall_and]
  | block instructions body =>
    simp [Expr.declaration?, Expr.instructions, Statement.declarations?_eq_none instructions,
      body.declaration?_eq_none, or_imp, forall_and]
  | call name arguments | figure kind arguments | sequence arguments =>
    simpa [Expr.declaration?, Expr.instructions] using Expr.declarations?_eq_none arguments

theorem Expr.declarations?_eq_none (exprs : List Expr) :
    Expr.declarations? exprs = none ↔
      ∀ inner ∈ Expr.instructionsOfAll exprs, inner.isFunction = false := by
  cases exprs with
  | nil => simp [Expr.declarations?, Expr.instructionsOfAll]
  | cons first rest =>
    simp [Expr.declarations?, Expr.instructionsOfAll, first.declaration?_eq_none,
      Expr.declarations?_eq_none rest, or_imp, forall_and]

theorem Statement.declaration?_eq_none (statement : Statement) :
    statement.declaration? = none ↔
      statement.isFunction = false ∧
        ∀ inner ∈ statement.instructions, inner.isFunction = false := by
  cases statement with
  | expression value | assign name value | assignMany names value | draw value | print value =>
    simpa [Statement.declaration?, Statement.instructions, Statement.isFunction] using
      value.declaration?_eq_none
  | function => simp [Statement.declaration?, Statement.isFunction]
  | importFile | color | restore | random =>
    simp [Statement.declaration?, Statement.instructions, Statement.isFunction]

theorem Statement.declarations?_eq_none (statements : List Statement) :
    Statement.declarations? statements = none ↔
      ∀ inner ∈ Statement.instructionsOfAll statements, inner.isFunction = false := by
  cases statements with
  | nil => simp [Statement.declarations?, Statement.instructionsOfAll]
  | cons first rest =>
    simp [Statement.declarations?, Statement.instructionsOfAll, first.declaration?_eq_none,
      Statement.declarations?_eq_none rest, or_imp, forall_and, and_assoc]

end

theorem Statement.isFunction_bare (statement : Statement) :
    statement.bare.isFunction = statement.isFunction := by
  cases statement <;> rfl

theorem Expr.bareAll_constants (names : List String) :
    Expr.bareAll (names.map (.constant · 0)) = names.map (.constant · 0) := by
  induction names with
  | nil => rfl
  | cons name more ih => simp [Expr.bareAll, Expr.bare, ih]

theorem Expr.allCanonical_constants (names : List String) :
    Expr.allCanonical (names.map (.constant · 0)) = true := by
  induction names with
  | nil => rfl
  | cons name more ih => simp [Expr.allCanonical, Expr.isCanonical, ih]

mutual

theorem Expr.instructions_bare (expr : Expr) :
    expr.bare.instructions = expr.instructions.map Statement.bare := by
  cases expr with
  | literal | undefined | constant | infinite | range => rfl
  | group inner => simpa [Expr.bare, Expr.instructions] using inner.instructions_bare
  | unary op operand => simpa [Expr.bare, Expr.instructions] using operand.instructions_bare
  | binary op left right =>
    simp [Expr.bare, Expr.instructions, left.instructions_bare, right.instructions_bare]
  | conditional condition positive negative =>
    simp [Expr.bare, Expr.instructions, condition.instructions_bare, positive.instructions_bare,
      negative.instructions_bare]
  | block instructions body =>
    simp [Expr.bare, Expr.instructions, Statement.instructionsOfAll_bare instructions,
      body.instructions_bare]
  | call name arguments | figure kind arguments | sequence arguments =>
    simpa [Expr.bare, Expr.instructions] using Expr.instructionsOfAll_bare arguments

theorem Expr.instructionsOfAll_bare (exprs : List Expr) :
    Expr.instructionsOfAll (Expr.bareAll exprs) =
      (Expr.instructionsOfAll exprs).map Statement.bare := by
  cases exprs with
  | nil => rfl
  | cons first rest =>
    simp [Expr.bareAll, Expr.instructionsOfAll, first.instructions_bare,
      Expr.instructionsOfAll_bare rest]

theorem Statement.instructions_bare (statement : Statement) :
    statement.bare.instructions = statement.instructions.map Statement.bare := by
  cases statement with
  | expression value | assign name value | assignMany names value | draw value | print value =>
    simpa [Statement.bare, Statement.instructions] using value.instructions_bare
  | function name parameters body =>
    simpa [Statement.bare, Statement.instructions] using body.instructions_bare
  | importFile | color | restore | random => rfl

theorem Statement.instructionsOfAll_bare (statements : List Statement) :
    Statement.instructionsOfAll (Statement.bareAll statements) =
      (Statement.instructionsOfAll statements).map Statement.bare := by
  cases statements with
  | nil => rfl
  | cons first rest =>
    simp [Statement.bareAll, Statement.instructionsOfAll, first.instructions_bare,
      Statement.instructionsOfAll_bare rest]

end

/-- Lines do not matter to whether a function is declared inside. -/
theorem Expr.flat_of_bare_eq {expr other : Expr} (same : expr.bare = other.bare)
    (flat : ∀ inner ∈ other.instructions, inner.isFunction = false) :
    ∀ inner ∈ expr.instructions, inner.isFunction = false := by
  intro inner member
  have bare : inner.bare ∈ expr.bare.instructions := by
    rw [Expr.instructions_bare]
    exact List.mem_map_of_mem member
  rw [same, Expr.instructions_bare] at bare
  obtain ⟨found, present, alike⟩ := List.mem_map.mp bare
  rw [← inner.isFunction_bare, ← alike, found.isFunction_bare]
  exact flat found present

end GSharp
