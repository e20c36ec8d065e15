import GSharp.Token
import GSharp.Fault.Lexical

/-!
From source text to tokens. The text is first cut into pieces that follow each other without a gap;
a piece is a token, a fault, or blank space. Lines are counted afterwards over the pieces.
-/
namespace GSharp

inductive PieceKind where
  | token (kind : TokenKind)
  | fault (fault : LexicalFault)
  | blank
  deriving DecidableEq

structure Piece where
  kind : PieceKind
  text : List Char
  deriving DecidableEq

namespace Piece

/-- Space, tab, carriage return, form feed and line feed. -/
def isBlank (c : Char) : Bool :=
  c = ' ' || c = '\t' || c = '\r' || c = '\x0c' || c = '\n'

def isLetter (c : Char) : Bool := c.isAlpha || c = '_'

def isWordCharacter (c : Char) : Bool := c.isAlphanum || c = '_'

/-- A point and the digits after it, when a digit follows the point. -/
def fraction : List Char → List Char
  | '.' :: d :: rest => if d.isDigit then '.' :: d :: rest.takeWhile Char.isDigit else []
  | _ => []

/-- The double nearest to a decimal with a whole part and an optional fraction. -/
def decimal (whole fraction : List Char) : Float :=
  let digits := fraction.drop 1
  let value := (whole ++ digits).foldl (fun n d => 10 * n + (d.toNat - '0'.toNat)) 0
  Float.ofScientific value true digits.length

/-- A number takes any letters that touch it, and is then a fault. -/
def number (whole rest : List Char) : PieceKind × List Char :=
  let fraction := fraction rest
  let written := whole ++ fraction
  match (rest.drop fraction.length).takeWhile isWordCharacter with
  | [] => (.token (.number (decimal whole fraction)), written)
  | letters => (.fault (.invalidNumber (.ofList (written ++ letters))), written ++ letters)

/-- A string runs to the next quote, over line ends too. Without one it takes the whole rest. -/
def quoted (rest : List Char) : PieceKind × List Char :=
  let body := rest.takeWhile (· ≠ '"')
  if body.length < rest.length then
    (.token (.string (.ofList body)), '"' :: body ++ ['"'])
  else (.fault .unfinishedString, '"' :: body)

/-- The longest sign at the front of the text. -/
def sign? : List Char → Option Sign
  | '=' :: '=' :: _ => some .equalEqual
  | '!' :: '=' :: _ => some .bangEqual
  | '>' :: '=' :: _ => some .greaterEqual
  | '<' :: '=' :: _ => some .lessEqual
  | '.' :: '.' :: '.' :: _ => some .ellipsis
  | '+' :: _ => some .plus
  | '-' :: _ => some .minus
  | '*' :: _ => some .star
  | '/' :: _ => some .slash
  | '%' :: _ => some .percent
  | '^' :: _ => some .caret
  | '&' :: _ => some .ampersand
  | '|' :: _ => some .pipe
  | '!' :: _ => some .bang
  | '>' :: _ => some .greater
  | '<' :: _ => some .less
  | '=' :: _ => some .equals
  | '(' :: _ => some .leftParen
  | ')' :: _ => some .rightParen
  | '\x7b' :: _ => some .leftBrace
  | '\x7d' :: _ => some .rightBrace
  | ',' :: _ => some .comma
  | ';' :: _ => some .semicolon
  | _ => none

/-- A sign, or else one unexpected character. Two points that are no ellipsis are one fault. -/
def signOrFault (c : Char) (rest : List Char) : PieceKind × List Char :=
  match sign? (c :: rest) with
  | some sign => (.token (.sign sign), sign.text.toList)
  | none =>
    let text := if c = '.' ∧ rest.head? = some '.' then ['.', '.'] else [c]
    (.fault (.unexpectedCharacter (.ofList text)), text)

/-- What the piece at the front of the text is, and its characters. -/
def classify (c : Char) (rest : List Char) : PieceKind × List Char :=
  if isBlank c then (.blank, [c])
  else if c = '/' ∧ rest.head? = some '/' then
    (.blank, '/' :: rest.takeWhile fun d => d ≠ '\n' && d ≠ '\r')
  else if c = '"' then quoted rest
  else if c.isDigit then
    let whole := c :: rest.takeWhile Char.isDigit
    number whole (rest.drop (whole.length - 1))
  else if isLetter c then
    let word := c :: rest.takeWhile isWordCharacter
    (.token (.ofWord (.ofList word)), word)
  else signOrFault c rest

/-- Cuts a text into pieces. A piece takes at least one character. -/
def cut : List Char → List Piece
  | [] => []
  | c :: rest =>
    let (kind, text) := classify c rest
    ⟨kind, text⟩ :: cut (rest.drop (text.length - 1))
termination_by source => source.length
decreasing_by simp only [List.length_cons, List.length_drop]; omega

end Piece

/-- The tokens of a source, the last one being the end of input, and its lexical errors. -/
structure Scan where
  tokens : List Token
  errors : List (Located LexicalFault)

/-- Places pieces from a line on. The end of input is on the line after the last line break. -/
def Scan.ofPieces (line : Nat) : List Piece → Scan
  | [] => ⟨[⟨.endOfInput, "", line⟩], []⟩
  | piece :: rest =>
    let after := ofPieces (line + piece.text.count '\n') rest
    match piece.kind with
    | .token kind => { after with tokens := ⟨kind, .ofList piece.text, line⟩ :: after.tokens }
    | .fault fault => { after with errors := ⟨fault, line⟩ :: after.errors }
    | .blank => after

/-- Scanning never stops at an error: it goes on after the offending text. -/
def scan (source : String) : Scan := .ofPieces 1 (Piece.cut source.toList)

end GSharp
