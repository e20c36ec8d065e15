import GSharp.Number.Count
import GSharp.Syntax
import GSharp.Syntax.Step

namespace GSharp

/-- The levels of left-associative operators, from the loosest to the tightest. -/
inductive Level where
  | logical | equality | ordering | additive | multiplicative
  deriving DecidableEq, Repr

namespace Level

def tighter? : Level → Option Level
  | logical => some equality
  | equality => some ordering
  | ordering => some additive
  | additive => some multiplicative
  | multiplicative => none

def operators : Level → List BinaryOperator
  | logical => [.and, .or]
  | equality => [.equal, .notEqual]
  | ordering => [.less, .greater, .lessEqual, .greaterEqual]
  | additive => [.add, .subtract]
  | multiplicative => [.multiply, .divide, .remainder]

/-- The operator of this level that the token spells. -/
def operator? (level : Level) (kind : TokenKind) : Option BinaryOperator :=
  level.operators.find? fun op => kind = .sign op.sign

/-- Looser levels are read through more calls without taking a token. -/
def depth : Level → Nat
  | logical => 5
  | equality => 4
  | ordering => 3
  | additive => 2
  | multiplicative => 1

theorem depth_tighter {level next : Level} (found : level.tighter? = some next) :
    next.depth < level.depth := by
  cases level <;> simp [tighter?] at found <;> subst found <;> decide

end Level

namespace Parse

open Step

/-- How an error names a sequence bound. -/
def boundText : Expr → String
  | .literal (.number n) _ => Number.text n
  | .unary .negate operand _ => "-" ++ boundText operand
  | .literal (.string s) _ => "\"" ++ s ++ "\""
  | .constant name _ => name
  | _ => "expression"

/-- A sequence bound is a number literal, whole and small enough to be counted past. -/
def bound (expr : Expr) : Except SyntaxError Float :=
  let refused : Except SyntaxError Float := .error ⟨.invalidBound (boundText expr), expr.line⟩
  match expr with
  | .literal (.number n) _ =>
    if Number.isSafeCount n && n < Number.ofNat Number.maxSafe then .ok n else refused
  | _ => refused

/-- The parameters that the arguments of a declared call name. -/
def parameters (function : String) (earlier : List String) :
    List Expr → Except SyntaxFault (List String)
  | [] => .ok []
  | .constant name _ :: rest =>
    if name ∈ earlier then .error (.duplicateParameter function name)
    else (parameters function (name :: earlier) rest).map (name :: ·)
  | _ :: _ => .error (.invalidParameter function)

/-- Names with commas between them. -/
def names : (tokens : List Token) → Step (List String) tokens
  | [] => refuse .identifier []
  | token :: rest =>
    (takeIdentifier (token :: rest)).bind fun name _ _ =>
      match rest with
      | comma :: others =>
        if comma.kind = .sign .comma then
          ((names others).map (name :: ·)).within (by simp only [List.length_cons]; omega)
        else .ok [name] (comma :: others) (by simp)
      | [] => .ok [name] [] (by simp)

/-- A color is written as a name or as a string. -/
def color (line : Nat) : (tokens : List Token) → Step Statement tokens
  | [] => refuse .color []
  | token :: rest =>
    let choose (name : String) : Step Statement (token :: rest) :=
      match Color.ofName? name with
      | some color => .ok (.color color line) rest rest_shorter
      | none => .fail ⟨.invalidColor name, line⟩ rest (.inr rest_shorter)
    match token.kind with
    | .identifier name => choose name
    | .string name => choose name
    | _ => refuse .color (token :: rest)

/-- The figure of a random declaration, or a sequence of such figures, and its name. -/
def randomDeclaration (kind : FigureKind) (line : Nat) :
    (tokens : List Token) → Step Statement tokens
  | [] => refuse .identifier []
  | token :: rest =>
    if token.kind = .keyword .sequence then
      ((takeIdentifier rest).map fun name => .random kind true name line).within rest_shorter
    else (takeIdentifier (token :: rest)).map fun name => .random kind false name line

/-- A draw or print instruction with the label that may follow its value. -/
def labelled (build : Expr → Option String → Statement) (value : Expr) {source : List Token}
    (rest : List Token) (shorter : rest.length < source.length) : Step Statement source :=
  match rest with
  | token :: others =>
    match token.kind with
    | .string label =>
      .ok (build value (some label)) others (by simp only [List.length_cons] at shorter; omega)
    | _ => .ok (build value none) (token :: others) shorter
  | [] => .ok (build value none) [] shorter

mutual

def expression (tokens : List Token) : Step Expr tokens := leftAssociative .logical tokens
termination_by (tokens.length, 20)
decreasing_by exact Prod.Lex.right _ (by decide)

/-- Operands of the next tighter level, joined from left to right. -/
def leftAssociative (level : Level) (tokens : List Token) : Step Expr tokens :=
  (operand level tokens).bind fun left rest shorter => chain level left rest shorter
termination_by (tokens.length, 2 * level.depth + 6)

def operand (level : Level) (tokens : List Token) : Step Expr tokens :=
  match _tighter : level.tighter? with
  | some next => leftAssociative next tokens
  | none => power tokens
termination_by (tokens.length, 2 * level.depth + 5)
decreasing_by
  · have := Level.depth_tighter _tighter
    exact Prod.Lex.right _ (by omega)
  · exact Prod.Lex.right _ (by omega)

/-- Takes operators of one level and their right operands as long as there are any. -/
def chain (level : Level) (left : Expr) {source : List Token} (tokens : List Token)
    (shorter : tokens.length < source.length) : Step Expr source :=
  match tokens with
  | [] => .ok left [] shorter
  | token :: rest =>
    match level.operator? token.kind with
    | none => .ok left (token :: rest) shorter
    | some op =>
      (operand level rest).andThen (Nat.lt_of_succ_lt shorter) fun right others shorter' =>
        chain level (.binary op left right token.line) others (by
          simp only [List.length_cons] at shorter; omega)
termination_by (tokens.length, 0)

/-- The exponent extends to the right, so that powers group from the right. -/
def power (tokens : List Token) : Step Expr tokens :=
  (unary tokens).bind fun base rest shorter =>
    match rest with
    | token :: others =>
      have fewer : others.length < tokens.length := Nat.lt_of_succ_lt shorter
      if token.kind = .sign .caret then
        ((power others).within fewer).map fun exponent =>
          .binary .power base exponent token.line
      else .ok base (token :: others) shorter
    | [] => .ok base [] shorter
termination_by (tokens.length, 4)

def unary (tokens : List Token) : Step Expr tokens :=
  match tokens with
  | token :: rest =>
    match token.kind with
    | .sign .minus =>
      ((unary rest).within rest_shorter).map fun e => .unary .negate e token.line
    | .sign .bang =>
      ((unary rest).within rest_shorter).map fun e => .unary .not e token.line
    | _ => primary (token :: rest)
  | [] => primary []
termination_by (tokens.length, 3)

def primary (tokens : List Token) : Step Expr tokens :=
  match tokens with
  | [] => .fail exhausted [] (.inl rfl)
  | token :: rest =>
    let line := token.line
    let whole (value : Expr) : Step Expr (token :: rest) := .ok value rest rest_shorter
    match token.kind with
    | .number n => whole (.literal (.number n) line)
    | .string s => whole (.literal (.string s) line)
    | .boolean b => whole (.literal (.boolean b) line)
    | .keyword .undefined => whole (.undefined line)
    | .sign .leftParen => (group line rest).within rest_shorter
    | .sign .leftBrace => (sequence line rest).within rest_shorter
    | .keyword .ifWord => (conditional line rest).within rest_shorter
    | .keyword .letWord => (block line rest).within rest_shorter
    | .identifier name => constantOrCall name line rest rest_shorter
    | .figure kind =>
      ((takeSign .leftParen rest).within rest_shorter).bind fun _ others shorter =>
        ((items .rightParen others).within shorter).map fun arguments =>
          .figure kind arguments line
    | _ => .fail ⟨.noExpression token.description, line⟩ (token :: rest) (.inl rfl)
termination_by (tokens.length, 2)

/-- An expression in parentheses, the first of which is already taken. -/
def group (line : Nat) (tokens : List Token) : Step Expr tokens :=
  (expression tokens).bind fun inner rest shorter =>
    ((takeSign .rightParen rest).within shorter).map fun _ => .group inner line
termination_by (tokens.length, 21)

/-- A name, or a call when an opening parenthesis follows it. -/
def constantOrCall (name : String) (line : Nat) {source : List Token} (tokens : List Token)
    (shorter : tokens.length < source.length) : Step Expr source :=
  match tokens with
  | token :: rest =>
    if token.kind = .sign .leftParen then
      ((items .rightParen rest).within (Nat.lt_of_succ_lt shorter)).map fun arguments =>
        .call name arguments line
    else .ok (.constant name line) (token :: rest) shorter
  | [] => .ok (.constant name line) [] shorter
termination_by (tokens.length, 0)

/-- Expressions with commas between them up to a closing sign, none of them if it comes first. -/
def items (closing : Sign) (tokens : List Token) : Step (List Expr) tokens :=
  match tokens with
  | token :: rest =>
    if token.kind = .sign closing then .ok [] rest rest_shorter
    else someItems closing (token :: rest)
  | [] => someItems closing []
termination_by (tokens.length, 22)

def someItems (closing : Sign) (tokens : List Token) : Step (List Expr) tokens :=
  (expression tokens).bind fun first rest shorter =>
    match rest with
    | token :: others =>
      have fewer : others.length < tokens.length := Nat.lt_of_succ_lt shorter
      if token.kind = .sign .comma then
        ((someItems closing others).within fewer).map (first :: ·)
      else if token.kind = .sign closing then .ok [first] others fewer
      else (refuse (.commaOr closing) (token :: others)).within shorter
    | [] => (refuse (.commaOr closing) []).within shorter
termination_by (tokens.length, 21)

/-- A sequence, its opening brace already taken: elements, or bounds around an ellipsis. -/
def sequence (line : Nat) (tokens : List Token) : Step Expr tokens :=
  match tokens with
  | token :: rest =>
    if token.kind = .sign .rightBrace then .ok (.sequence [] line) rest rest_shorter
    else someSequence line (token :: rest)
  | [] => someSequence line []
termination_by (tokens.length, 22)

def someSequence (line : Nat) (tokens : List Token) : Step Expr tokens :=
  (expression tokens).bind fun first rest shorter =>
    match rest with
    | token :: others =>
      have fewer : others.length < tokens.length := Nat.lt_of_succ_lt shorter
      if token.kind = .sign .ellipsis then
        match bound first with
        | .ok start => (range start line others).within fewer
        | .error error => .fail error others (.inr fewer)
      else if token.kind = .sign .comma then
        ((items .rightBrace others).within fewer).map fun elements =>
          .sequence (first :: elements) line
      else if token.kind = .sign .rightBrace then
        .ok (.sequence [first] line) others fewer
      else (refuse (.commaOr .rightBrace) (token :: others)).within shorter
    | [] => (refuse (.commaOr .rightBrace) []).within shorter
termination_by (tokens.length, 21)

/-- What follows the ellipsis: the closing brace, or a second bound before it. -/
def range (start : Float) (line : Nat) (tokens : List Token) : Step Expr tokens :=
  match tokens with
  | token :: rest =>
    if token.kind = .sign .rightBrace then .ok (.infinite start line) rest rest_shorter
    else closedRange start line (token :: rest)
  | [] => closedRange start line []
termination_by (tokens.length, 22)

def closedRange (start : Float) (line : Nat) (tokens : List Token) : Step Expr tokens :=
  (expression tokens).bind fun last rest shorter =>
    match bound last with
    | .ok finish =>
      ((takeSign .rightBrace rest).within shorter).map fun _ => .range start finish line
    | .error error => .fail error rest (.inr shorter)
termination_by (tokens.length, 21)

def conditional (line : Nat) (tokens : List Token) : Step Expr tokens :=
  (expression tokens).bind fun condition rest shorter =>
    ((takeWord .thenWord rest).within shorter).bind fun _ rest shorter =>
    ((expression rest).within shorter).bind fun positive rest shorter =>
    ((takeWord .elseWord rest).within shorter).bind fun _ rest shorter =>
    ((expression rest).within shorter).map fun negative =>
      .conditional condition positive negative line
termination_by (tokens.length, 21)

/-- Instructions and the expression that they are for. -/
def block (line : Nat) (tokens : List Token) : Step Expr tokens :=
  (instructions tokens).bind fun statements rest shorter =>
    ((expression rest).within shorter).map fun body => .block statements body line
termination_by (tokens.length, 24)

/-- At least one instruction, each with its semicolon, up to the word that ends them. -/
def instructions (tokens : List Token) : Step (List Statement) tokens :=
  (instruction false tokens).bind fun first rest shorter =>
    ((takeSign .semicolon rest).within shorter).bind fun _ rest shorter =>
      match rest with
      | token :: others =>
        have fewer : others.length < tokens.length := Nat.lt_of_succ_lt shorter
        if token.kind = .keyword .inWord then .ok [first] others fewer
        else ((instructions (token :: others)).within shorter).map (first :: ·)
      | [] => .fail exhausted [] (.inr shorter)
termination_by (tokens.length, 23)

/-- One instruction without its semicolon. -/
def instruction (importsAllowed : Bool) (tokens : List Token) : Step Statement tokens :=
  match tokens with
  | [] => .fail exhausted [] (.inl rfl)
  | token :: rest =>
    let line := token.line
    let second := rest.head?.map Token.kind
    match token.kind with
    | .figure kind =>
      if second = some (.sign .leftParen) then valueOrFunction line (token :: rest)
      else (randomDeclaration kind line rest).within rest_shorter
    | .keyword .importWord =>
      if importsAllowed then
        ((takeString .filePath rest).within rest_shorter).map (.importFile · line)
      else .fail ⟨.misplacedImport, line⟩ (token :: rest) (.inl rfl)
    | .keyword .draw =>
      ((expression rest).within rest_shorter).bind fun value others shorter =>
        labelled (.draw · · line) value others shorter
    | .keyword .print =>
      ((expression rest).within rest_shorter).bind fun value others shorter =>
        labelled (.print · · line) value others shorter
    | .keyword .color => (color line rest).within rest_shorter
    | .keyword .restore => .ok (.restore line) rest rest_shorter
    | .identifier name =>
      if second = some (.sign .comma) then
        (names (token :: rest)).bind fun names others shorter =>
          ((takeSign .equals others).within shorter).bind fun _ others shorter =>
          ((expression others).within shorter).map (.assignMany names · line)
      else if second = some (.sign .equals) then
        ((expression rest.tail).within (by
          simp only [List.length_tail, List.length_cons]; omega)).map (.assign name · line)
      else valueOrFunction line (token :: rest)
    | _ => valueOrFunction line (token :: rest)
termination_by (tokens.length, 22)

/-- An expression; a call that an equals sign follows declares a function. -/
def valueOrFunction (line : Nat) (tokens : List Token) : Step Statement tokens :=
  (expression tokens).bind fun value rest shorter =>
    match rest with
    | token :: others =>
      have fewer : others.length < tokens.length := Nat.lt_of_succ_lt shorter
      if token.kind = .sign .equals then
        match value with
        | .call name arguments line =>
          (function name arguments line others).within fewer
        | _ => .ok (.expression value line) (token :: others) shorter
      else .ok (.expression value line) (token :: others) shorter
    | [] => .ok (.expression value line) [] shorter
termination_by (tokens.length, 21)

/-- The body of a declared function. No function may be declared inside it. -/
def function (name : String) (arguments : List Expr) (line : Nat) (tokens : List Token) :
    Step Statement tokens :=
  match parameters name [] arguments with
  | .error fault => .fail ⟨fault, line⟩ tokens (.inl rfl)
  | .ok parameters =>
    (expression tokens).bind fun body rest shorter =>
      match body.declaration? with
      | some (inner, innerLine) => .fail ⟨.nestedFunction inner, innerLine⟩ rest (.inr shorter)
      | none => .ok (.function name parameters body line) rest shorter
termination_by (tokens.length, 21)

end

/-- Skips through the next semicolon, or up to the end of input. -/
def recover : List Token → List Token
  | [] => []
  | token :: rest =>
    if token.kind = .endOfInput then token :: rest
    else if token.kind = .sign .semicolon then rest
    else recover rest

theorem length_recover_le (tokens : List Token) : (recover tokens).length ≤ tokens.length := by
  fun_induction recover tokens with
  | case1 => exact Nat.le_refl _
  | case2 => exact Nat.le_refl _
  | case3 => exact Nat.le_succ _
  | case4 token rest _ _ shorter => exact Nat.le_succ_of_le shorter

theorem length_recover_lt {token : Token} {rest : List Token} (more : token.kind ≠ .endOfInput) :
    (recover (token :: rest)).length < (token :: rest).length := by
  simp only [recover, more, if_false]
  split
  · exact rest_shorter
  · exact Nat.lt_succ_of_le (length_recover_le rest)

end Parse

/-- The instructions that could be read, and the errors in between, each in source order. -/
structure Parsed where
  program : Program
  errors : List SyntaxError

/-- Reads instructions to the end of input. Imports are allowed while nothing else came before. -/
def Parsed.ofTokens (importsAllowed : Bool) (tokens : List Token) : Parsed :=
  match tokens with
  | [] => ⟨[], []⟩
  | token :: rest =>
    if _more : token.kind = .endOfInput then ⟨[], []⟩
    else
      let importsAllowed := importsAllowed && token.kind = .keyword .importWord
      let step :=
        (Parse.instruction importsAllowed (token :: rest)).bind fun statement others shorter =>
          ((Step.takeSign .semicolon others).within shorter).map fun _ => statement
      match step with
      | .ok statement others _shorter =>
        let after := ofTokens importsAllowed others
        { after with program := statement :: after.program }
      | .fail error others _bounded =>
        let after := ofTokens importsAllowed (Parse.recover others)
        { after with errors := error :: after.errors }
termination_by tokens.length
decreasing_by
  · exact _shorter
  · rcases _bounded with same | shorter
    · exact same ▸ Parse.length_recover_lt _more
    · exact Nat.lt_of_le_of_lt (Parse.length_recover_le others) shorter

def parse (tokens : List Token) : Parsed := .ofTokens true tokens

end GSharp
