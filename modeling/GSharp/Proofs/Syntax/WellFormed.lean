import GSharp.Proofs.Syntax.Soundness
import GSharp.Proofs.Value.Counting

namespace GSharp

mutual

/-- Every expression inside an expression, however deep it stands. -/
def Expr.expressions : Expr → List Expr
  | .literal _ _ | .undefined _ | .constant _ _ | .infinite _ _ | .range _ _ _ => []
  | .group inner _ => inner :: inner.expressions
  | .unary _ operand _ => operand :: operand.expressions
  | .binary _ left right _ => left :: left.expressions ++ right :: right.expressions
  | .conditional condition positive negative _ =>
    condition :: condition.expressions ++ positive :: positive.expressions ++
      negative :: negative.expressions
  | .block instructions body _ =>
    Statement.expressionsOfAll instructions ++ body :: body.expressions
  | .call _ arguments _ | .figure _ arguments _ | .sequence arguments _ =>
    Expr.expressionsOfAll arguments

def Expr.expressionsOfAll : List Expr → List Expr
  | [] => []
  | first :: rest => first :: first.expressions ++ Expr.expressionsOfAll rest

/-- Every expression inside an instruction. -/
def Statement.expressions : Statement → List Expr
  | .expression value _ | .assign _ value _ | .assignMany _ value _ | .draw value _ _
  | .print value _ _ => value :: value.expressions
  | .function _ _ body _ => body :: body.expressions
  | .importFile _ _ | .color _ _ | .restore _ | .random _ _ _ _ => []

def Statement.expressionsOfAll : List Statement → List Expr
  | [] => []
  | first :: rest => first.expressions ++ Statement.expressionsOfAll rest

end

/-- Whole trees are well formed, not only at their roots. -/
structure Program.WellFormed (program : Program) : Prop where
  importsFirst : program.Pairwise fun earlier later => later.isImport → earlier.isImport
  importsOutside : ∀ inner ∈ program.flatMap Statement.instructions, inner.isImport = false
  functions : ∀ name parameters body line,
    .function name parameters body line ∈ Statement.instructionsOfAll program →
      parameters.Nodup ∧ ∀ inner ∈ body.instructions, inner.isFunction = false
  several : ∀ names value line,
    .assignMany names value line ∈ Statement.instructionsOfAll program → 2 ≤ names.length
  blocks : ∀ instructions body line,
    .block instructions body line ∈ Statement.expressionsOfAll program → instructions ≠ []
  infinite : ∀ start line, .infinite start line ∈ Statement.expressionsOfAll program →
    ∃ n < Number.maxSafe, Number.Denotes start n
  range : ∀ start finish line, .range start finish line ∈ Statement.expressionsOfAll program →
    (∃ n < Number.maxSafe, Number.Denotes start n) ∧
      ∃ n < Number.maxSafe, Number.Denotes finish n

/-- The instructions and expressions that stand inside a tree are canonical, and none of them is an
import. -/
structure Upright (instructions : List Statement) (expressions : List Expr) : Prop where
  instructions : ∀ inner ∈ instructions, inner.isCanonical = true ∧ inner.isImport = false
  expressions : ∀ inner ∈ expressions, inner.isCanonical = true

namespace Upright

variable {instructions others : List Statement} {expressions more : List Expr}

theorem nil : Upright [] [] := ⟨List.forall_mem_nil _, List.forall_mem_nil _⟩

theorem append (first : Upright instructions expressions) (second : Upright others more) :
    Upright (instructions ++ others) (expressions ++ more) :=
  ⟨List.forall_mem_append.mpr ⟨first.instructions, second.instructions⟩,
    List.forall_mem_append.mpr ⟨first.expressions, second.expressions⟩⟩

theorem cons {expr : Expr} (canonical : expr.isCanonical = true)
    (upright : Upright instructions expressions) : Upright instructions (expr :: expressions) :=
  ⟨upright.instructions, List.forall_mem_cons.mpr ⟨canonical, upright.expressions⟩⟩

end Upright

-- The induction is on the tree.
mutual

theorem Expr.upright (expr : Expr) (canonical : expr.isCanonical = true) :
    Upright expr.instructions expr.expressions := by
  cases expr with
  | literal | undefined | constant | infinite | range => exact .nil
  | group inner => exact .cons canonical (inner.upright canonical)
  | unary op operand =>
    obtain ⟨-, canonical⟩ : 6 ≤ operand.rank ∧ operand.isCanonical = true := by
      simpa [Expr.isCanonical] using canonical
    exact .cons canonical (operand.upright canonical)
  | binary op left right =>
    simp only [Expr.isCanonical, Bool.and_eq_true] at canonical
    obtain ⟨⟨-, first⟩, second⟩ := canonical
    exact .append (.cons first (left.upright first)) (.cons second (right.upright second))
  | conditional condition positive negative =>
    simp only [Expr.isCanonical, Bool.and_eq_true] at canonical
    obtain ⟨⟨first, second⟩, third⟩ := canonical
    exact .append (.append (.cons first (condition.upright first))
      (.cons second (positive.upright second))) (.cons third (negative.upright third))
  | block instructions body =>
    simp only [Expr.isCanonical, Bool.and_eq_true, Bool.not_eq_true', List.any_eq_false]
      at canonical
    obtain ⟨⟨⟨-, noImports⟩, all⟩, last⟩ := canonical
    exact .append (Statement.upright_ofAll instructions all (by simpa using noImports))
      (.cons last (body.upright last))
  | call name arguments | figure kind arguments | sequence arguments =>
    exact Expr.upright_ofAll arguments canonical

theorem Expr.upright_ofAll (exprs : List Expr) (canonical : Expr.allCanonical exprs = true) :
    Upright (Expr.instructionsOfAll exprs) (Expr.expressionsOfAll exprs) := by
  cases exprs with
  | nil => exact .nil
  | cons first rest =>
    simp only [Expr.allCanonical, Bool.and_eq_true] at canonical
    exact .append (.cons canonical.1 (first.upright canonical.1))
      (Expr.upright_ofAll rest canonical.2)

theorem Statement.upright (statement : Statement) (canonical : statement.isCanonical = true) :
    Upright statement.instructions statement.expressions := by
  cases statement with
  | expression value | assign name value | draw value | print value =>
    exact .cons canonical (value.upright canonical)
  | assignMany names value =>
    simp only [Statement.isCanonical, Bool.and_eq_true] at canonical
    exact .cons canonical.2 (value.upright canonical.2)
  | function name parameters body =>
    simp only [Statement.isCanonical, Bool.and_eq_true] at canonical
    exact .cons canonical.2 (body.upright canonical.2)
  | importFile | color | restore | random => exact .nil

theorem Statement.upright_ofAll (statements : List Statement)
    (canonical : Statement.allCanonical statements = true)
    (noImports : ∀ statement ∈ statements, statement.isImport = false) :
    Upright (Statement.instructionsOfAll statements) (Statement.expressionsOfAll statements) := by
  cases statements with
  | nil => exact .nil
  | cons first rest =>
    simp only [Statement.allCanonical, Bool.and_eq_true] at canonical
    obtain ⟨notImport, noMore⟩ := List.forall_mem_cons.mp noImports
    obtain ⟨instructions, expressions⟩ := first.upright canonical.1
    exact .append
      ⟨List.forall_mem_cons.mpr ⟨⟨canonical.1, notImport⟩, instructions⟩, expressions⟩
      (Statement.upright_ofAll rest canonical.2 noMore)

end

theorem Statement.allCanonical_iff {statements : List Statement} :
    Statement.allCanonical statements = true ↔
      ∀ statement ∈ statements, statement.isCanonical = true := by
  induction statements with
  | nil => simp [Statement.allCanonical]
  | cons first rest ih => simp [Statement.allCanonical, ih]

theorem Statement.instructionsOfAll_eq_flatMap (statements : List Statement) :
    Statement.instructionsOfAll statements =
      statements.flatMap fun statement => statement :: statement.instructions := by
  induction statements with
  | nil => rfl
  | cons first rest ih => rw [instructionsOfAll, ih, List.flatMap_cons]

theorem Statement.expressionsOfAll_eq_flatMap (statements : List Statement) :
    Statement.expressionsOfAll statements = statements.flatMap Statement.expressions := by
  induction statements with
  | nil => rfl
  | cons first rest ih => rw [expressionsOfAll, ih, List.flatMap_cons]

/-- Wherever in a program of canonical instructions one looks, what stands there is canonical. -/
theorem Program.upright {program : Program} (canonical : Statement.allCanonical program = true) :
    Upright (program.flatMap Statement.instructions) (Statement.expressionsOfAll program) := by
  rw [Statement.expressionsOfAll_eq_flatMap]
  have upright (statement : Statement) (member : statement ∈ program) :=
    statement.upright (Statement.allCanonical_iff.mp canonical statement member)
  constructor
  · intro inner member
    obtain ⟨statement, present, within⟩ := List.mem_flatMap.mp member
    exact (upright statement present).instructions inner within
  · intro inner member
    obtain ⟨statement, present, within⟩ := List.mem_flatMap.mp member
    exact (upright statement present).expressions inner within

namespace Parse

/-- Where imports are not allowed none is read, and the first other instruction forbids them. -/
theorem ofTokens_imports (allowed : Bool) (tokens : List Token) :
    (allowed = false → ∀ statement ∈ (Parsed.ofTokens allowed tokens).program,
        statement.isImport = false) ∧
      (Parsed.ofTokens allowed tokens).program.Pairwise fun earlier later =>
        later.isImport → earlier.isImport := by
  refine ofTokens_induction (motive := fun allowed program =>
    (allowed = false → ∀ statement ∈ program, statement.isImport = false) ∧
      program.Pairwise fun earlier later => later.isImport → earlier.isImport)
    ?none ?more ?skipped allowed tokens
  case none => simp
  case more =>
    intro allowed token others statement rest program rule ih
    obtain ⟨later, ordered⟩ := ih
    obtain ⟨-, -, permitted⟩ := rule.sound (Parse.sound _) (Nat.lt_succ_self _)
    refine ⟨fun forbidden => ?_, List.pairwise_cons.mpr ⟨fun other present isImport => ?_, ordered⟩⟩
    · have notFirst : statement.isImport = false := by
        by_contra isImport
        simpa [forbidden] using permitted (Bool.of_not_eq_false isImport)
      exact List.forall_mem_cons.mpr ⟨notFirst, later (by simp [forbidden])⟩
    · by_cases word : token.kind = .keyword .importWord
      · exact rule.isImport word
      · have notLater := later (by simp [word]) other present
        simp [notLater] at isImport
  case skipped =>
    intro allowed imports program ih
    exact ⟨fun forbidden => ih.1 (by simp [forbidden]), ih.2⟩

end Parse

/-- Whatever tokens there are, and whatever errors there are in them, what can be read of them is
well formed all through. -/
theorem parse_wellFormed (tokens : List Token) : (parse tokens).program.WellFormed := by
  have canonical : Statement.allCanonical (parse tokens).program = true :=
    Parse.ofTokens_canonical true tokens
  have upright := Program.upright canonical
  have within (inner : Statement)
      (member : inner ∈ Statement.instructionsOfAll (parse tokens).program) :
      inner.isCanonical = true := by
    rw [Statement.instructionsOfAll_eq_flatMap] at member
    obtain ⟨statement, present, here⟩ := List.mem_flatMap.mp member
    rcases List.mem_cons.mp here with rfl | inside
    · exact Statement.allCanonical_iff.mp canonical inner present
    · exact (upright.instructions inner (List.mem_flatMap.mpr ⟨statement, present, inside⟩)).1
  exact
    { importsFirst := (Parse.ofTokens_imports true tokens).2
      importsOutside := fun inner member => (upright.instructions inner member).2
      functions := fun name parameters body line member => by
        have declared := within _ member
        simp only [Statement.isCanonical, Bool.and_eq_true, Bool.not_eq_true', List.any_eq_false,
          decide_eq_true_eq, Bool.not_eq_true] at declared
        exact declared.1
      several := fun names value line member => by
        have assigned := within _ member
        simp only [Statement.isCanonical, Bool.and_eq_true, decide_eq_true_eq] at assigned
        exact assigned.1
      blocks := fun instructions body line member => by
        have block := upright.expressions _ member
        simp only [Expr.isCanonical, Bool.and_eq_true, Bool.not_eq_true', List.isEmpty_eq_false_iff]
          at block
        exact block.1.1.1
      infinite := fun start line member =>
        Number.isBound_iff.mp (upright.expressions _ member)
      range := fun start finish line member => by
        have bounds := upright.expressions _ member
        simp only [Expr.isCanonical, Bool.and_eq_true] at bounds
        exact ⟨Number.isBound_iff.mp bounds.1, Number.isBound_iff.mp bounds.2⟩ }

end GSharp
