import GSharp.Figure

namespace GSharp

/-- The words that start or join constructs and cannot be names. -/
inductive Keyword where
  | letWord | inWord | ifWord | thenWord | elseWord | importWord
  | draw | print | color | restore | undefined | sequence
  deriving DecidableEq, Repr

namespace Keyword

def text : Keyword → String
  | letWord => "let"
  | inWord => "in"
  | ifWord => "if"
  | thenWord => "then"
  | elseWord => "else"
  | importWord => "import"
  | draw => "draw"
  | print => "print"
  | color => "color"
  | restore => "restore"
  | undefined => "undefined"
  | sequence => "sequence"

def all : List Keyword :=
  [letWord, inWord, ifWord, thenWord, elseWord, importWord, draw, print, color, restore, undefined,
    sequence]

end Keyword

/-- Operators and punctuation. -/
inductive Sign where
  | plus | minus | star | slash | percent | caret | ampersand | pipe | bang
  | equalEqual | bangEqual | greater | greaterEqual | less | lessEqual | equals
  | leftParen | rightParen | leftBrace | rightBrace | comma | semicolon | ellipsis
  deriving DecidableEq, Repr

def Sign.text : Sign → String
  | plus => "+"
  | minus => "-"
  | star => "*"
  | slash => "/"
  | percent => "%"
  | caret => "^"
  | ampersand => "&"
  | pipe => "|"
  | bang => "!"
  | equalEqual => "=="
  | bangEqual => "!="
  | greater => ">"
  | greaterEqual => ">="
  | less => "<"
  | lessEqual => "<="
  | equals => "="
  | leftParen => "("
  | rightParen => ")"
  | leftBrace => "\x7b"
  | rightBrace => "\x7d"
  | comma => ","
  | semicolon => ";"
  | ellipsis => "..."

/-- The kinds of the tokens that are parsed. A string that is never closed, a comment, a line break
and other space have none: as pieces of a source they are a fault or blank, and no token is made of
them. -/
inductive TokenKind where
  | number (value : Float)
  | string (value : String)
  | boolean (value : Bool)
  | identifier (name : String)
  | keyword (word : Keyword)
  | figure (kind : FigureKind)
  | sign (sign : Sign)
  | endOfInput
  deriving DecidableEq

/-- A token with its source text and the line on which it starts. -/
structure Token where
  kind : TokenKind
  lexeme : String
  line : Nat
  deriving DecidableEq

/-- How an error names the token. -/
def Token.description (token : Token) : String :=
  match token.kind with
  | .endOfInput => "end of input"
  | _ => token.lexeme

def FigureKind.all : List FigureKind := [.point, .line, .segment, .ray, .circle, .arc, .measure]

/-- What a word means: a constant, a keyword, a figure kind, or a name. -/
def TokenKind.ofWord (word : String) : TokenKind :=
  if word = "PI" then .number 3.141592653589793
  else if word = "E" then .number 2.718281828459045
  else if word = "true" then .boolean true
  else if word = "false" then .boolean false
  else match Keyword.all.find? (·.text = word), FigureKind.all.find? (·.text = word) with
    | some found, _ => .keyword found
    | none, some kind => .figure kind
    | none, none => .identifier word

end GSharp
