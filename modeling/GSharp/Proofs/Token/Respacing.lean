import GSharp.Proofs.Token.Concatenation

namespace GSharp

open TokenKind (Pattern)

namespace Piece

theorem isWordCharacter_of_isLetter {c : Char} (letter : isLetter c = true) :
    isWordCharacter c = true := by
  simp only [isLetter, isWordCharacter, Char.isAlphanum, Bool.or_eq_true] at letter ⊢
  exact letter.imp_left .inl

/-- No token begins with a blank. -/
theorem isBlank_head {kind : TokenKind} {c : Char} {more : List Char}
    (matched : Pattern kind (c :: more)) : isBlank c = false := by
  by_contra blank
  rw [Bool.not_eq_false] at blank
  rcases matched.of_cons with ⟨digit, -⟩ | ⟨rfl, -⟩ | ⟨letter, -⟩ | ⟨-, sign, -, text⟩
  · exact absurd digit (by simp [isDigit_of_isBlank blank])
  · exact absurd blank (by decide)
  · have character := isWordCharacter_of_isLetter letter
    exact absurd character (by simp [isWordCharacter_of_isBlank blank])
  · exact not_mem_sign blank sign (text ▸ List.mem_cons_self)

namespace Fits

variable {after after' text : List Char} {kind kind' : TokenKind}
  (fits : Fits after (.token kind) text)

include fits

/-- A text that is a token is a token of one kind. -/
theorem kind_eq (fits' : Fits after' (.token kind') text) : kind' = kind := by
  cases fits with
  | token matched _ first =>
    cases fits' with
    | token matched' _ first' =>
      rcases first kind' matched' with same | name
      · exact same
      · rcases first' kind matched with same | name'
        · exact same.symm
        · exact name.trans name'.symm

theorem ne_nil : text ≠ [] := by
  cases fits with
  | token matched => exact matched.ne_nil

/-- A token does not begin like a comment. -/
theorem plain {c : Char} {more : List Char} (text_eq : text = c :: more) :
    ¬(c = '/' ∧ more.head? = some '/') := by
  rintro ⟨rfl, second⟩
  obtain ⟨body, rfl⟩ := List.head?_eq_some_iff.mp second
  cases fits with
  | token _ _ _ plain => exact plain ⟨body ++ after, by simp [text_eq]⟩

/-- Nothing but the whole of it can be taken from the text of a token. -/
theorem taken {left text' : List Char} {found : PieceKind} (whole : text = text' ++ left)
    (fits' : Fits left found text') : text' = text ∧ ∃ kind', found = .token kind' := by
  have isNoComment : ∀ {c : Char} {more : List Char}, text = c :: more →
      ¬(c = '/' ∧ more.head? = some '/') := fits.plain
  cases fits with
  | token matched =>
    cases fits' with
    | @token kind' _ _ longest =>
      have longer := longest kind text matched (whole ▸ List.prefix_refl _)
      exact ⟨List.IsPrefix.eq_of_length_le ⟨left, whole.symm⟩ longer, kind', rfl⟩
    | @invalidNumber written letters _ numeral longest glued =>
      obtain ⟨c, rest, rfl, digit⟩ := numeral.head
      obtain ⟨more, rfl⟩ : ∃ more, text = c :: more := ⟨_, whole⟩
      rcases matched.of_cons with ⟨-, value, -, longer⟩ | ⟨rfl, -⟩ | ⟨letter, -⟩ | ⟨⟨other, -⟩, -⟩
      · have bound := longest _ value longer (whole ▸ List.prefix_refl _)
        have some := List.length_pos_of_ne_nil glued
        have lengths := congrArg List.length whole
        simp only [List.length_append] at lengths
        omega
      · exact absurd digit (by decide)
      · exact absurd digit (by simp [(isLetter_bounds letter).1])
      · exact absurd digit (by simp [other])
    | unfinishedString unclosed last =>
      obtain rfl := (last ▸ whole).trans (List.append_nil _)
      rcases matched.of_cons with
        ⟨digit, -⟩ | ⟨-, body, -, -, rfl⟩ | ⟨letter, -⟩ | ⟨⟨-, other, -⟩, -⟩
      · exact absurd digit (by decide)
      · exact absurd (by simp) unclosed
      · exact absurd letter (by decide)
      · exact absurd rfl other
    | unexpectedCharacter _ _ unmatched =>
      exact absurd (whole ▸ List.prefix_refl _) (unmatched kind text matched)
    | unexpectedPoints unmatched =>
      exact absurd (whole ▸ List.prefix_refl _) (unmatched kind text matched)
    | space blank =>
      subst whole
      exact absurd blank (by simp [isBlank_head matched])
    | comment => exact absurd ⟨rfl, rfl⟩ (isNoComment whole)

end Fits

/-- What was cut as a token is the same token on its own. -/
theorem classify_lexeme {after more : List Char} {kind : TokenKind} {c : Char}
    (fits : Fits after (.token kind) (c :: more)) :
    classify c more = (.token kind, c :: more) := by
  obtain ⟨left, whole, -, fits'⟩ := front_classify c more
  obtain ⟨same, kind', isToken⟩ := fits.taken whole fits'
  rw [isToken, same] at fits'
  exact Prod.ext (isToken.trans (congrArg PieceKind.token (fits.kind_eq fits'))) same

section Lexeme

variable {after text : List Char} {kind : TokenKind} (fits : Fits after (.token kind) text)

include fits

theorem cut_lexeme : cut text = [⟨.token kind, text⟩] := by
  obtain ⟨c, more, rfl⟩ := List.exists_cons_of_ne_nil fits.ne_nil
  rw [cut, classify_lexeme fits]
  simp [cut]

/-- A space ends the token, whatever comes after it. -/
theorem cut_spaced (source : List Char) :
    cut (text ++ ' ' :: source) = ⟨.token kind, text⟩ :: ⟨.blank, [' ']⟩ :: cut source := by
  obtain ⟨c, more, rfl⟩ := List.exists_cons_of_ne_nil fits.ne_nil
  have alone := classify_lexeme fits
  have spaced : classify c (more ++ ' ' :: source) = (.token kind, c :: more) := by
    rw [← alone]
    refine classify_append (by decide) more source c (by simp [alone]) fun comment => ?_
    exact absurd comment (fits.plain rfl)
  have blank : cut (' ' :: source) = ⟨.blank, [' ']⟩ :: cut source := by
    rw [cut]
    simp [classify, isBlank]
  rw [List.cons_append, cut, spaced, ← blank]
  simp

end Lexeme

end Piece

/-- The token was cut from a text. -/
def Token.Lexed (token : Token) : Prop :=
  ∃ after, Piece.Fits after (.token token.kind) token.lexeme.toList

theorem Piece.Tiles.lexed {source : List Char} {pieces : List Piece} (tiles : Tiles source pieces)
    (line : Nat) : ∀ token ∈ (placed line pieces).filterMap token?, token.Lexed := by
  induction tiles generalizing line with
  | nil => exact List.forall_mem_nil _
  | @cons kind text after pieces _ fits _ ih =>
    cases kind with
    | token kind =>
      refine List.forall_mem_cons.mpr ⟨⟨after, ?_⟩, ih _⟩
      simpa using fits
    | fault | blank => exact ih _

namespace Scan

/-- No errors, and the same tokens, on whatever lines. -/
structure Retells (result : Scan) (tokens : List Token) : Prop where
  errors : result.errors = []
  kinds : result.tokens.map Token.kind = tokens.map Token.kind
  lexemes : result.tokens.map Token.lexeme = tokens.map Token.lexeme

theorem ofPieces_spaced (line : Nat) {tokens : List Token}
    (lexed : ∀ token ∈ tokens, token.Lexed) {last : Token} (ends : last.kind = .endOfInput)
    (empty : last.lexeme = "") :
    (ofPieces line (Piece.cut ([' '].intercalate (tokens.map (·.lexeme.toList))))).Retells
      (tokens ++ [last]) := by
  induction tokens generalizing line with
  | nil =>
    rw [List.map_nil, List.intercalate_nil, Piece.cut]
    exact ⟨rfl, by simp [ofPieces, ends], by simp [ofPieces, empty]⟩
  | cons token rest ih =>
    obtain ⟨⟨after, fits⟩, others⟩ := List.forall_mem_cons.mp lexed
    cases rest with
    | nil =>
      rw [List.map_singleton, List.intercalate_singleton, Piece.cut_lexeme fits]
      exact ⟨rfl, by simp [ofPieces, ends], by simp [ofPieces, empty]⟩
    | cons next more =>
      rw [List.map_cons, List.map_cons, List.intercalate_cons_cons, List.append_assoc,
        List.singleton_append, Piece.cut_spaced fits]
      obtain ⟨errors, kinds, lexemes⟩ := ih _ others
      refine ⟨errors, congrArg (token.kind :: ·) kinds, ?_⟩
      exact congrArg₂ List.cons String.ofList_toList lexemes

end Scan

/-- The lexemes of the tokens, with a space between each and the next. -/
def Scan.spaced (result : Scan) : String :=
  " ".intercalate (result.tokens.dropLast.map Token.lexeme)

/-- The tokens of any source are scanned again without an error from their lexemes alone: from all
of them with spaces in between, and each from its own. -/
theorem scan_spaced (source : String) :
    (scan (scan source).spaced).Retells (scan source).tokens ∧
      ∀ token ∈ (scan source).tokens.dropLast, scan token.lexeme =
        ⟨[⟨token.kind, token.lexeme, 1⟩, ⟨.endOfInput, "", lineCount token.lexeme⟩], []⟩ := by
  have lexed := (Piece.cut_tiles source.toList).lexed 1
  have tokens := congrArg Scan.tokens (Piece.ofPieces_eq 1 (Piece.cut source.toList))
  dsimp only at tokens
  constructor
  · rw [Scan.spaced, scan, scan, tokens, List.dropLast_concat, String.toList_intercalate,
      List.map_map]
    exact Scan.ofPieces_spaced 1 lexed rfl rfl
  · intro token present
    rw [scan, tokens, List.dropLast_concat] at present
    obtain ⟨after, fits⟩ := lexed token present
    rw [scan, Piece.cut_lexeme fits]
    simp [Scan.ofPieces, lineCount, Nat.add_comm]

end GSharp
