import GSharp.Proofs.Syntax.Canonical
import GSharp.Syntax.Parse

namespace GSharp

variable {R : Nat → Nat → Prop}

/-- The same fault, on lines that go together. -/
structure Located.Alike {Fault : Type} (R : Nat → Nat → Prop) (one two : Located Fault) : Prop where
  fault : two.fault = one.fault
  line : R one.line two.line

/-- The same token, on lines that go together. -/
structure Token.Alike (R : Nat → Nat → Prop) (one two : Token) : Prop where
  kind : two.kind = one.kind
  lexeme : two.lexeme = one.lexeme
  line : R one.line two.line

/-- Values that are related, or errors that are alike. -/
inductive AlikeResults {Fault α β : Type} (R : Nat → Nat → Prop) (V : α → β → Prop) :
    Except (Located Fault) α → Except (Located Fault) β → Prop where
  | ok {value : α} {value' : β} (related : V value value') :
      AlikeResults R V (.ok value) (.ok value')
  | error {one two : Located Fault} (alike : one.Alike R two) :
      AlikeResults R V (.error one) (.error two)

mutual

/-- The same expression, on lines that go together. There is no import in it. -/
inductive Expr.Alike (R : Nat → Nat → Prop) : Expr → Expr → Prop where
  | literal {value : Literal} {line line' : Nat} (lines : R line line') :
      Expr.Alike R (.literal value line) (.literal value line')
  | undefined {line line' : Nat} (lines : R line line') :
      Expr.Alike R (.undefined line) (.undefined line')
  | constant {name : String} {line line' : Nat} (lines : R line line') :
      Expr.Alike R (.constant name line) (.constant name line')
  | group {inner inner' : Expr} {line line' : Nat} (alike : inner.Alike R inner')
      (lines : R line line') : Expr.Alike R (.group inner line) (.group inner' line')
  | unary {op : UnaryOperator} {operand operand' : Expr} {line line' : Nat}
      (alike : operand.Alike R operand') (lines : R line line') :
      Expr.Alike R (.unary op operand line) (.unary op operand' line')
  | binary {op : BinaryOperator} {left left' right right' : Expr} {line line' : Nat}
      (leftAlike : left.Alike R left') (rightAlike : right.Alike R right') (lines : R line line') :
      Expr.Alike R (.binary op left right line) (.binary op left' right' line')
  | conditional {condition condition' positive positive' negative negative' : Expr}
      {line line' : Nat} (conditionAlike : condition.Alike R condition')
      (positiveAlike : positive.Alike R positive') (negativeAlike : negative.Alike R negative')
      (lines : R line line') :
      Expr.Alike R (.conditional condition positive negative line)
        (.conditional condition' positive' negative' line')
  | block {instructions instructions' : List Statement} {body body' : Expr} {line line' : Nat}
      (instructionsAlike : instructions.Forall₂ (Statement.Alike R) instructions')
      (bodyAlike : body.Alike R body') (lines : R line line') :
      Expr.Alike R (.block instructions body line) (.block instructions' body' line')
  | call {name : String} {arguments arguments' : List Expr} {line line' : Nat}
      (alike : arguments.Forall₂ (Expr.Alike R) arguments') (lines : R line line') :
      Expr.Alike R (.call name arguments line) (.call name arguments' line')
  | figure {kind : FigureKind} {arguments arguments' : List Expr} {line line' : Nat}
      (alike : arguments.Forall₂ (Expr.Alike R) arguments') (lines : R line line') :
      Expr.Alike R (.figure kind arguments line) (.figure kind arguments' line')
  | sequence {elements elements' : List Expr} {line line' : Nat}
      (alike : elements.Forall₂ (Expr.Alike R) elements') (lines : R line line') :
      Expr.Alike R (.sequence elements line) (.sequence elements' line')
  | infinite {start : Float} {line line' : Nat} (lines : R line line') :
      Expr.Alike R (.infinite start line) (.infinite start line')
  | range {start finish : Float} {line line' : Nat} (lines : R line line') :
      Expr.Alike R (.range start finish line) (.range start finish line')

/-- The same instruction, on lines that go together. It is no import. -/
inductive Statement.Alike (R : Nat → Nat → Prop) : Statement → Statement → Prop where
  | expression {value value' : Expr} {line line' : Nat} (alike : value.Alike R value')
      (lines : R line line') : Statement.Alike R (.expression value line) (.expression value' line')
  | assign {name : String} {value value' : Expr} {line line' : Nat} (alike : value.Alike R value')
      (lines : R line line') :
      Statement.Alike R (.assign name value line) (.assign name value' line')
  | assignMany {names : List String} {value value' : Expr} {line line' : Nat}
      (alike : value.Alike R value') (lines : R line line') :
      Statement.Alike R (.assignMany names value line) (.assignMany names value' line')
  | function {name : String} {parameters : List String} {body body' : Expr} {line line' : Nat}
      (alike : body.Alike R body') (lines : R line line') :
      Statement.Alike R (.function name parameters body line)
        (.function name parameters body' line')
  | draw {value value' : Expr} {label : Option String} {line line' : Nat}
      (alike : value.Alike R value') (lines : R line line') :
      Statement.Alike R (.draw value label line) (.draw value' label line')
  | print {value value' : Expr} {label : Option String} {line line' : Nat}
      (alike : value.Alike R value') (lines : R line line') :
      Statement.Alike R (.print value label line) (.print value' label line')
  | color {color : Color} {line line' : Nat} (lines : R line line') :
      Statement.Alike R (.color color line) (.color color line')
  | restore {line line' : Nat} (lines : R line line') :
      Statement.Alike R (.restore line) (.restore line')
  | random {kind : FigureKind} {isSequence : Bool} {name : String} {line line' : Nat}
      (lines : R line line') :
      Statement.Alike R (.random kind isSequence name line) (.random kind isSequence name line')

end

/-- Instructions that are alike, or else imports of the same file where imports are allowed. -/
inductive Statement.Corresponds (R : Nat → Nat → Prop) (importsAllowed : Bool) :
    Statement → Statement → Prop where
  | alike {one two : Statement} (alike : one.Alike R two) : Corresponds R importsAllowed one two
  | importFile {path : String} {line line' : Nat} (lines : R line line')
      (allowed : importsAllowed = true) :
      Corresponds R importsAllowed (.importFile path line) (.importFile path line')

/-- Where imports are not allowed, there are none. -/
theorem Statement.Corresponds.toAlike {one two : Statement}
    (corresponds : Statement.Corresponds R false one two) : one.Alike R two := by
  cases corresponds with
  | alike alike => exact alike
  | importFile _ allowed => cases allowed

theorem Statement.allAlike_of_noImport {importsAllowed : Bool} {some others : List Statement}
    (related : some.Forall₂ (Statement.Corresponds R importsAllowed) others)
    (noImport : ∀ statement ∈ some, statement.isImport = false) :
    some.Forall₂ (Statement.Alike R) others := by
  induction related with
  | nil => exact .nil
  | cons first _ ih =>
    rw [List.forall_mem_cons] at noImport
    cases first with
    | alike first => exact .cons first (ih noImport.2)
    | importFile => cases noImport.1

theorem Statement.Alike.noImport {one two : Statement} (alike : one.Alike R two) :
    one.isImport = false := by cases alike <;> rfl

theorem Statement.noImport_of_allAlike {some others : List Statement}
    (alike : some.Forall₂ (Statement.Alike R) others) :
    ∀ statement ∈ others, statement.isImport = false := by
  induction alike with
  | nil => exact List.forall_mem_nil _
  | cons first _ ih =>
    exact List.forall_mem_cons.mpr ⟨by cases first <;> rfl, ih⟩

theorem Token.Alike.description {one two : Token} (alike : one.Alike R two) :
    two.description = one.description := by
  simp only [Token.description, alike.kind, alike.lexeme]

theorem Expr.Alike.line {one two : Expr} (alike : one.Alike R two) : R one.line two.line := by
  cases alike <;> assumption

/-- Whether and where a function is declared inside. -/
def AlikeDeclarations (R : Nat → Nat → Prop) (one two : Option (String × Nat)) : Prop :=
  Option.Rel (fun found found' => found'.1 = found.1 ∧ R found.2 found'.2) one two

theorem AlikeDeclarations.or {first first' second second' : Option (String × Nat)}
    (one : AlikeDeclarations R first first') (two : AlikeDeclarations R second second') :
    AlikeDeclarations R (first.or second) (first'.or second') := by
  cases one with
  | none => exact two
  | some found => exact .some found

mutual

theorem Expr.Alike.declaration? {one two : Expr} (alike : one.Alike R two) :
    AlikeDeclarations R one.declaration? two.declaration? := by
  cases one <;> cases alike
  case literal | undefined | constant | infinite | range => exact .none
  case group alike _ | unary alike _ => exact alike.declaration?
  case binary left right _ => exact left.declaration?.or right.declaration?
  case conditional condition positive negative _ =>
    exact condition.declaration?.or (positive.declaration?.or negative.declaration?)
  case block instructions body _ =>
    exact (Statement.declarations?_alike instructions).or body.declaration?
  case call arguments _ | figure arguments _ | sequence arguments _ =>
    exact Expr.declarations?_alike arguments
termination_by structural one

theorem Expr.declarations?_alike {some others : List Expr}
    (alike : some.Forall₂ (Expr.Alike R) others) :
    AlikeDeclarations R (Expr.declarations? some) (Expr.declarations? others) := by
  cases some <;> cases alike
  case nil => exact .none
  case cons first rest => exact first.declaration?.or (Expr.declarations?_alike rest)
termination_by structural some

theorem Statement.Alike.declaration? {one two : Statement} (alike : one.Alike R two) :
    AlikeDeclarations R one.declaration? two.declaration? := by
  cases one <;> cases alike
  case color | restore | random => exact .none
  case function lines => exact .some ⟨rfl, lines⟩
  case expression value _ | assign value _ | assignMany value _ | draw value _ | print value _ =>
    exact value.declaration?
termination_by structural one

theorem Statement.declarations?_alike {some others : List Statement}
    (alike : some.Forall₂ (Statement.Alike R) others) :
    AlikeDeclarations R (Statement.declarations? some) (Statement.declarations? others) := by
  cases some <;> cases alike
  case nil => exact .none
  case cons first rest => exact first.declaration?.or (Statement.declarations?_alike rest)
termination_by structural some

end

theorem Located.Alike.eq {Fault : Type} {one two : Located Fault} (alike : one.Alike Eq two) :
    one = two := by
  obtain ⟨fault, line⟩ := one
  obtain ⟨rfl, rfl⟩ := alike
  rfl

mutual

theorem Expr.Alike.eq {one two : Expr} (alike : one.Alike Eq two) : one = two := by
  cases one <;> cases alike
  case literal lines | undefined lines | constant lines | infinite lines | range lines => rw [lines]
  case group alike lines | unary alike lines => rw [alike.eq, lines]
  case binary left right lines => rw [left.eq, right.eq, lines]
  case conditional condition positive negative lines =>
    rw [condition.eq, positive.eq, negative.eq, lines]
  case block instructions body lines => rw [Statement.eq_of_allAlike instructions, body.eq, lines]
  case call arguments lines | figure arguments lines | sequence arguments lines =>
    rw [Expr.eq_of_allAlike arguments, lines]
termination_by structural one

theorem Expr.eq_of_allAlike {some others : List Expr}
    (alike : some.Forall₂ (Expr.Alike Eq) others) : some = others := by
  cases some <;> cases alike
  case nil => rfl
  case cons first rest => rw [first.eq, Expr.eq_of_allAlike rest]
termination_by structural some

theorem Statement.Alike.eq {one two : Statement} (alike : one.Alike Eq two) : one = two := by
  cases one <;> cases alike
  case color lines | restore lines | random lines => rw [lines]
  case expression value lines | assign value lines | assignMany value lines | draw value lines
  | print value lines | function value lines => rw [value.eq, lines]
termination_by structural one

theorem Statement.eq_of_allAlike {some others : List Statement}
    (alike : some.Forall₂ (Statement.Alike Eq) others) : some = others := by
  cases some <;> cases alike
  case nil => rfl
  case cons first rest => rw [first.eq, Statement.eq_of_allAlike rest]
termination_by structural some

end

theorem Statement.Corresponds.eq {importsAllowed : Bool} {one two : Statement}
    (corresponds : Statement.Corresponds Eq importsAllowed one two) : one = two := by
  cases corresponds with
  | alike alike => exact alike.eq
  | importFile lines _ => rw [lines]

mutual

/-- The lines of all nodes of an expression. -/
def Expr.lines : Expr → List Nat
  | .literal _ line | .undefined line | .constant _ line | .infinite _ line | .range _ _ line =>
    [line]
  | .group inner line => line :: inner.lines
  | .unary _ operand line => line :: operand.lines
  | .binary _ left right line => line :: (left.lines ++ right.lines)
  | .conditional condition positive negative line =>
    line :: (condition.lines ++ (positive.lines ++ negative.lines))
  | .block instructions body line => line :: (Statement.linesOfAll instructions ++ body.lines)
  | .call _ arguments line | .figure _ arguments line | .sequence arguments line =>
    line :: Expr.linesOfAll arguments

def Expr.linesOfAll : List Expr → List Nat
  | [] => []
  | first :: rest => first.lines ++ Expr.linesOfAll rest

/-- The lines of all nodes of an instruction. -/
def Statement.lines : Statement → List Nat
  | .expression value line | .assign _ value line | .assignMany _ value line
  | .function _ _ value line | .draw value _ line | .print value _ line => line :: value.lines
  | .importFile _ line | .color _ line | .restore line | .random _ _ _ line => [line]

def Statement.linesOfAll : List Statement → List Nat
  | [] => []
  | first :: rest => first.lines ++ Statement.linesOfAll rest

end

mutual

theorem Expr.alike_self (expr : Expr) (canonical : expr.isCanonical = true)
    (lines : ∀ line ∈ expr.lines, R line line) : expr.Alike R expr := by
  cases expr <;> simp only [Expr.isCanonical, Bool.and_eq_true] at canonical <;>
    simp only [Expr.lines, List.forall_mem_cons, List.forall_mem_append] at lines
  case literal => exact .literal lines.1
  case undefined => exact .undefined lines.1
  case constant => exact .constant lines.1
  case infinite => exact .infinite lines.1
  case range => exact .range lines.1
  case group inner _ => exact .group (inner.alike_self canonical lines.2) lines.1
  case unary operand _ => exact .unary (operand.alike_self canonical.2 lines.2) lines.1
  case binary left right _ =>
    exact .binary (left.alike_self canonical.1.2 lines.2.1)
      (right.alike_self canonical.2 lines.2.2) lines.1
  case conditional condition positive negative _ =>
    exact .conditional (condition.alike_self canonical.1.1 lines.2.1)
      (positive.alike_self canonical.1.2 lines.2.2.1)
      (negative.alike_self canonical.2 lines.2.2.2) lines.1
  case block instructions body _ =>
    have noImport : ∀ inner ∈ instructions, inner.isImport = false := by
      simpa using canonical.1.1.2
    exact .block (Statement.allAlike_self instructions canonical.1.2 noImport lines.2.1)
      (body.alike_self canonical.2 lines.2.2) lines.1
  case call arguments _ => exact .call (Expr.allAlike_self arguments canonical lines.2) lines.1
  case figure arguments _ => exact .figure (Expr.allAlike_self arguments canonical lines.2) lines.1
  case sequence elements _ =>
    exact .sequence (Expr.allAlike_self elements canonical lines.2) lines.1
termination_by structural expr

theorem Expr.allAlike_self (exprs : List Expr) (canonical : Expr.allCanonical exprs = true)
    (lines : ∀ line ∈ Expr.linesOfAll exprs, R line line) : exprs.Forall₂ (Expr.Alike R) exprs := by
  cases exprs with
  | nil => exact .nil
  | cons first rest =>
    simp only [Expr.allCanonical, Bool.and_eq_true] at canonical
    simp only [Expr.linesOfAll, List.forall_mem_append] at lines
    exact .cons (first.alike_self canonical.1 lines.1)
      (Expr.allAlike_self rest canonical.2 lines.2)
termination_by structural exprs

theorem Statement.alike_self (statement : Statement) (canonical : statement.isCanonical = true)
    (noImport : statement.isImport = false) (lines : ∀ line ∈ statement.lines, R line line) :
    statement.Alike R statement := by
  cases statement <;> simp only [Statement.isCanonical, Bool.and_eq_true] at canonical <;>
    simp only [Statement.lines, List.forall_mem_cons] at lines
  case importFile => cases noImport
  case color => exact .color lines.1
  case restore => exact .restore lines.1
  case random => exact .random lines.1
  case expression value _ => exact .expression (value.alike_self canonical lines.2) lines.1
  case assign value _ => exact .assign (value.alike_self canonical lines.2) lines.1
  case assignMany value _ => exact .assignMany (value.alike_self canonical.2 lines.2) lines.1
  case function body _ => exact .function (body.alike_self canonical.2 lines.2) lines.1
  case draw value _ _ => exact .draw (value.alike_self canonical lines.2) lines.1
  case print value _ _ => exact .print (value.alike_self canonical lines.2) lines.1
termination_by structural statement

theorem Statement.allAlike_self (statements : List Statement)
    (canonical : Statement.allCanonical statements = true)
    (noImport : ∀ statement ∈ statements, statement.isImport = false)
    (lines : ∀ line ∈ Statement.linesOfAll statements, R line line) :
    statements.Forall₂ (Statement.Alike R) statements := by
  cases statements with
  | nil => exact .nil
  | cons first rest =>
    simp only [Statement.allCanonical, Bool.and_eq_true] at canonical
    simp only [Statement.linesOfAll, List.forall_mem_append] at lines
    rw [List.forall_mem_cons] at noImport
    exact .cons (first.alike_self canonical.1 noImport.1 lines.1)
      (Statement.allAlike_self rest canonical.2 noImport.2 lines.2)
termination_by structural statements

end

namespace Parse

theorem boundText_alike {one two : Expr} (alike : one.Alike R two) :
    boundText two = boundText one := by
  cases one <;> cases alike
  case unary op operand _ _ _ alike _ =>
    cases op with
    | negate => simp only [boundText, boundText_alike alike]
    | not => rfl
  case literal value _ _ _ => cases value <;> rfl
  all_goals rfl

theorem bound_alike {one two : Expr} (alike : one.Alike R two) :
    AlikeResults R Eq (bound one) (bound two) := by
  have refused : (⟨.invalidBound (boundText one), one.line⟩ : SyntaxError).Alike R
      ⟨.invalidBound (boundText two), two.line⟩ :=
    ⟨by rw [boundText_alike alike], alike.line⟩
  cases alike
  case literal value _ _ lines =>
    cases value with
    | number n =>
      simp only [bound]
      split
      · exact .ok rfl
      · exact .error refused
    | string | boolean => exact .error refused
  all_goals exact .error refused

theorem parameters_alike (function : String) (earlier : List String) {some others : List Expr}
    (alike : some.Forall₂ (Expr.Alike R) others) :
    parameters function earlier others = parameters function earlier some := by
  induction alike generalizing earlier with
  | nil => rfl
  | cons first _ ih => cases first <;> simp only [parameters, ih]

end Parse

end GSharp
