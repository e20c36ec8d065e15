import GSharp.Syntax
import Mathlib

namespace GSharp

/-- One place of a written form. -/
inductive Mark where
  | token (kind : TokenKind)
  | colorName (color : Color)
  | optionalComma

namespace Mark

abbrev sign (sign : Sign) : Mark := .token (.sign sign)

abbrev word (word : Keyword) : Mark := .token (.keyword word)

abbrev name (name : String) : Mark := .token (.identifier name)

/-- Names with commas between them. -/
def names : List String → List Mark
  | [] => []
  | [last] => [name last]
  | first :: rest => name first :: sign .comma :: names rest

/-- The string that may end a draw or print instruction. -/
def label : Option String → List Mark
  | none => []
  | some text => [.token (.string text)]

/-- The spelling that a place usually has. -/
def usual : Mark → List TokenKind
  | .token kind => [kind]
  | .colorName color => [.identifier color.text]
  | .optionalComma => []

/-- The spellings that a place may have. -/
inductive Spelled : Mark → List TokenKind → Prop where
  | token (kind : TokenKind) : Spelled (.token kind) [kind]
  | identifier {color : Color} {name : String} (found : Color.ofName? name = some color) :
      Spelled (.colorName color) [.identifier name]
  | string {color : Color} {name : String} (found : Color.ofName? name = some color) :
      Spelled (.colorName color) [.string name]
  | comma : Spelled .optionalComma [.sign .comma]
  | noComma : Spelled .optionalComma []

end Mark

/-- The kinds spell the places one after the other. -/
inductive Spells : List Mark → List TokenKind → Prop where
  | nil : Spells [] []
  | cons {mark : Mark} {marks : List Mark} {first rest : List TokenKind}
      (spelled : mark.Spelled first) (spells : Spells marks rest) :
      Spells (mark :: marks) (first ++ rest)

def Literal.kind : Literal → TokenKind
  | .number value => .number value
  | .string value => .string value
  | .boolean value => .boolean value

mutual

def Expr.marks : Expr → List Mark
  | .literal value _ => [.token value.kind]
  | .undefined _ => [.word .undefined]
  | .constant name _ => [.name name]
  | .group inner _ => .sign .leftParen :: inner.marks ++ [.sign .rightParen]
  | .unary op operand _ => .sign op.sign :: operand.marks
  | .binary op left right _ => left.marks ++ .sign op.sign :: right.marks
  | .conditional condition positive negative _ =>
    .word .ifWord :: condition.marks ++ .word .thenWord :: positive.marks ++
      .word .elseWord :: negative.marks
  | .block instructions body _ =>
    .word .letWord :: Statement.marksAll instructions ++ .word .inWord :: body.marks
  | .call name arguments _ =>
    .name name :: .sign .leftParen :: Expr.listed arguments ++ [.sign .rightParen]
  | .figure kind arguments _ =>
    .token (.figure kind) :: .sign .leftParen :: Expr.listed arguments ++ [.sign .rightParen]
  | .sequence elements _ =>
    .sign .leftBrace :: Expr.listed elements ++
      (if elements.length = 1 then [.optionalComma] else []) ++ [.sign .rightBrace]
  | .infinite start _ =>
    [.sign .leftBrace, .token (.number start), .sign .ellipsis, .sign .rightBrace]
  | .range start finish _ =>
    [.sign .leftBrace, .token (.number start), .sign .ellipsis, .token (.number finish),
      .sign .rightBrace]

/-- Expressions with commas between them. -/
def Expr.listed : List Expr → List Mark
  | [] => []
  | [last] => last.marks
  | first :: rest => first.marks ++ .sign .comma :: Expr.listed rest

def Statement.marks : Statement → List Mark
  | .expression value _ => value.marks
  | .assign name value _ => .name name :: .sign .equals :: value.marks
  | .assignMany names value _ => Mark.names names ++ .sign .equals :: value.marks
  | .function name parameters body _ =>
    .name name :: .sign .leftParen :: Mark.names parameters ++
      .sign .rightParen :: .sign .equals :: body.marks
  | .importFile path _ => [.word .importWord, .token (.string path)]
  | .draw value label _ => .word .draw :: value.marks ++ Mark.label label
  | .print value label _ => .word .print :: value.marks ++ Mark.label label
  | .color color _ => [.word .color, .colorName color]
  | .restore _ => [.word .restore]
  | .random kind isSequence name _ =>
    .token (.figure kind) :: (if isSequence then [.word .sequence] else []) ++ [.name name]

/-- Instructions, each with its semicolon. -/
def Statement.marksAll : List Statement → List Mark
  | [] => []
  | first :: rest => first.marks ++ .sign .semicolon :: Statement.marksAll rest

end

theorem Expr.listed_cons {first : Expr} {more : List Expr} (some : more ≠ []) :
    Expr.listed (first :: more) = first.marks ++ .sign .comma :: Expr.listed more := by
  cases more with
  | nil => contradiction
  | cons next more =>
    rw [Expr.listed]
    simp

theorem Expr.marks_single (element : Expr) (line : Nat) :
    (Expr.sequence [element] line).marks =
      .sign .leftBrace :: (element.marks ++ [.optionalComma, .sign .rightBrace]) := by
  simp [Expr.marks, Expr.listed]

theorem Expr.marks_several {first : Expr} {more : List Expr} (some : more ≠ []) (line : Nat) :
    (Expr.sequence (first :: more) line).marks =
      .sign .leftBrace ::
        (first.marks ++ .sign .comma :: (Expr.listed more ++ [.sign .rightBrace])) := by
  rw [Expr.marks, Expr.listed_cons some]
  simp [some]

def Program.marks (program : Program) : List Mark := Statement.marksAll program

/-- The tokens of a program in their usual spelling. -/
def Program.render (program : Program) : List TokenKind := program.marks.flatMap Mark.usual

theorem Color.ofName?_text (color : Color) : Color.ofName? color.text = some color := by
  cases color <;> decide +kernel

theorem Mark.usual_spelled (mark : Mark) : mark.Spelled mark.usual := by
  cases mark with
  | token kind => exact .token kind
  | colorName color => exact .identifier color.ofName?_text
  | optionalComma => exact .noComma

theorem spells_usual (marks : List Mark) : Spells marks (marks.flatMap Mark.usual) := by
  induction marks with
  | nil => exact .nil
  | cons mark marks ih => exact .cons mark.usual_spelled ih

/-- The tokens up to the rest spell the places. -/
def Spans (marks : List Mark) (tokens rest : List Token) : Prop :=
  ∃ used, tokens = used ++ rest ∧ Spells marks (used.map Token.kind)

namespace Spans

variable {mark : Mark} {marks others : List Mark} {tokens middle rest : List Token}

@[simp]
theorem nil_iff : Spans [] tokens rest ↔ tokens = rest := by
  constructor
  · intro given
    obtain ⟨used, rfl, spells⟩ := given
    have empty : used = [] := by
      cases used with
      | nil => rfl
      | cons token used => cases spells
    simp [empty]
  · intro same
    subst same
    exact ⟨[], rfl, .nil⟩

theorem cons_iff :
    Spans (mark :: marks) tokens rest ↔
      ∃ first middle, tokens = first ++ middle ∧ mark.Spelled (first.map Token.kind) ∧
        Spans marks middle rest := by
  constructor
  · intro given
    obtain ⟨used, rfl, spells⟩ := given
    generalize same : used.map Token.kind = kinds at spells
    cases spells with
    | cons spelled spells =>
      obtain ⟨first, others, rfl, rfl, rfl⟩ := List.map_eq_append_iff.mp same
      exact ⟨first, others ++ rest, by simp, spelled, others, rfl, spells⟩
  · intro given
    obtain ⟨first, middle, rfl, spelled, used, rfl, spells⟩ := given
    exact ⟨first ++ used, by simp, by simpa using Spells.cons spelled spells⟩

theorem token_iff {kind : TokenKind} :
    Spans (.token kind :: marks) tokens rest ↔
      ∃ token middle, tokens = token :: middle ∧ token.kind = kind ∧ Spans marks middle rest := by
  rw [cons_iff]
  constructor
  · intro given
    obtain ⟨first, middle, rfl, spelled, spans⟩ := given
    generalize same : first.map Token.kind = kinds at spelled
    obtain ⟨⟩ := spelled
    obtain ⟨token, rfl, kind⟩ := List.map_eq_singleton_iff.mp same
    exact ⟨token, middle, rfl, kind, spans⟩
  · intro given
    obtain ⟨token, middle, rfl, rfl, spans⟩ := given
    exact ⟨[token], middle, rfl, .token token.kind, spans⟩

@[simp]
theorem token_cons_iff {kind : TokenKind} {token : Token} :
    Spans (.token kind :: marks) (token :: middle) rest ↔
      token.kind = kind ∧ Spans marks middle rest := by
  rw [token_iff]
  constructor
  · intro given
    obtain ⟨_, _, same, kind, spans⟩ := given
    cases same
    exact ⟨kind, spans⟩
  · intro given
    obtain ⟨kind, spans⟩ := given
    exact ⟨token, middle, rfl, kind, spans⟩

theorem single_iff {kind : TokenKind} :
    Spans [.token kind] tokens rest ↔ ∃ token, tokens = token :: rest ∧ token.kind = kind := by
  rw [token_iff]
  constructor
  · intro given
    obtain ⟨token, middle, rfl, kind, nothing⟩ := given
    obtain rfl := nil_iff.mp nothing
    exact ⟨token, rfl, kind⟩
  · intro given
    obtain ⟨token, rfl, kind⟩ := given
    exact ⟨token, rest, rfl, kind, nil_iff.mpr rfl⟩

@[simp]
theorem append_iff :
    Spans (marks ++ others) tokens rest ↔
      ∃ middle, Spans marks tokens middle ∧ Spans others middle rest := by
  induction marks generalizing tokens with
  | nil => simp
  | cons mark marks ih =>
    rw [List.cons_append, cons_iff]
    constructor
    · intro given
      obtain ⟨first, middle, rfl, spelled, spans⟩ := given
      obtain ⟨after, spans, following⟩ := ih.mp spans
      exact ⟨after, cons_iff.mpr ⟨first, middle, rfl, spelled, spans⟩, following⟩
    · intro given
      obtain ⟨after, spans, following⟩ := given
      obtain ⟨first, middle, rfl, spelled, spans⟩ := cons_iff.mp spans
      exact ⟨first, middle, rfl, spelled, ih.mpr ⟨after, spans, following⟩⟩

theorem colorName_iff {color : Color} :
    Spans (.colorName color :: marks) tokens rest ↔
      ∃ token middle name, tokens = token :: middle ∧ Color.ofName? name = some color ∧
        (token.kind = .identifier name ∨ token.kind = .string name) ∧
        Spans marks middle rest := by
  rw [cons_iff]
  constructor
  · intro given
    obtain ⟨first, middle, rfl, spelled, spans⟩ := given
    generalize same : first.map Token.kind = kinds at spelled
    cases spelled with
    | identifier found =>
      obtain ⟨token, rfl, kind⟩ := List.map_eq_singleton_iff.mp same
      exact ⟨token, middle, _, rfl, found, .inl kind, spans⟩
    | string found =>
      obtain ⟨token, rfl, kind⟩ := List.map_eq_singleton_iff.mp same
      exact ⟨token, middle, _, rfl, found, .inr kind, spans⟩
  · intro given
    rcases given with ⟨token, middle, name, rfl, found, kind | kind, spans⟩
    · exact ⟨[token], middle, rfl, by simpa [kind] using .identifier found, spans⟩
    · exact ⟨[token], middle, rfl, by simpa [kind] using .string found, spans⟩

theorem optionalComma_iff :
    Spans (.optionalComma :: marks) tokens rest ↔
      Spans marks tokens rest ∨ Spans (.sign .comma :: marks) tokens rest := by
  rw [cons_iff, cons_iff]
  constructor
  · intro given
    obtain ⟨first, middle, rfl, spelled, spans⟩ := given
    generalize same : first.map Token.kind = kinds at spelled
    cases spelled with
    | comma => exact .inr ⟨first, middle, rfl, same ▸ .token _, spans⟩
    | noComma =>
      rw [List.map_eq_nil_iff] at same
      exact .inl (by simpa [same] using spans)
  · intro given
    rcases given with spans | ⟨first, middle, rfl, spelled, spans⟩
    · exact ⟨[], tokens, rfl, .noComma, spans⟩
    · generalize same : first.map Token.kind = kinds at spelled
      obtain ⟨⟩ := spelled
      exact ⟨first, middle, rfl, same ▸ .comma, spans⟩

theorem length_le (spans : Spans marks tokens rest) : rest.length ≤ tokens.length := by
  obtain ⟨used, rfl, _⟩ := spans
  simp

theorem trans (spans : Spans marks tokens middle) (following : Spans others middle rest) :
    Spans (marks ++ others) tokens rest :=
  append_iff.mpr ⟨middle, spans, following⟩

end Spans

end GSharp
