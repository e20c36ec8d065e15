import GSharp.Proofs.Token.Tiling

/-!
Texts with a blank between them are cut on their own. Nothing reaches over a blank but an unfinished
string, and nothing over a line break but that.
-/
namespace GSharp

namespace Piece

section Blank

variable {b : Char} (blank : isBlank b = true)

include blank

theorem isWordCharacter_of_isBlank : isWordCharacter b = false := by
  simp only [isBlank, Bool.or_eq_true, decide_eq_true_eq] at blank
  rcases blank with (((rfl | rfl) | rfl) | rfl) | rfl <;> decide

theorem isDigit_of_isBlank : b.isDigit = false := by
  simp only [isBlank, Bool.or_eq_true, decide_eq_true_eq] at blank
  rcases blank with (((rfl | rfl) | rfl) | rfl) | rfl <;> decide

theorem not_mem_sign (sign : Sign) : b ∉ sign.text.toList := by
  simp only [isBlank, Bool.or_eq_true, decide_eq_true_eq] at blank
  rcases blank with (((rfl | rfl) | rfl) | rfl) | rfl <;> cases sign <;> decide

end Blank

section Stops

variable {p : Char → Bool} {b : Char} (stop : p b = false) (rest more : List Char)

include stop

theorem takeWhile_append_stop : (rest ++ b :: more).takeWhile p = rest.takeWhile p := by
  rw [List.takeWhile_append, List.takeWhile_cons_of_neg (by simp [stop])]
  split
  next whole => rw [List.append_nil, (List.takeWhile_prefix p).eq_of_length whole]
  next => rfl

end Stops

theorem fraction_of_ne {c : Char} (other : c ≠ '.') (rest : List Char) :
    fraction (c :: rest) = [] := by
  cases rest <;> simp [fraction, other]

variable {b : Char} (blank : isBlank b = true) (rest more : List Char)

include blank

theorem fraction_append : fraction (rest ++ b :: more) = fraction rest := by
  cases rest with
  | nil => 
    rw [List.nil_append, fraction_of_ne (fun point => by subst point; simp [isBlank] at blank)]
    rfl
  | cons c rest =>
    rw [List.cons_append]
    by_cases point : c = '.'
    · rw [point, fraction_point, fraction_point,
        takeWhile_append_stop (isDigit_of_isBlank blank) rest more]
    · rw [fraction_of_ne point, fraction_of_ne point]

theorem number_append (whole : List Char) :
    number whole (rest ++ b :: more) = number whole rest := by
  have shorter := (fraction_front rest).length_le
  simp only [number, fraction_append blank]
  rw [List.drop_append_of_le_length shorter,
    takeWhile_append_stop (isWordCharacter_of_isBlank blank)]

/-- A sign does not go on into a blank. -/
theorem sign?_append : sign? (rest ++ b :: more) = sign? rest := by
  have front (sign : Sign) :
      sign.text.toList <+: rest ++ b :: more ↔ sign.text.toList <+: rest := by
    refine ⟨fun front => ?_, fun front => front.trans (List.prefix_append ..)⟩
    refine List.prefix_of_prefix_length_le front (List.prefix_append ..)
      (le_of_not_gt fun long => ?_)
    have reached : rest ++ [b] <+: sign.text.toList :=
      List.prefix_of_prefix_length_le ⟨more, by simp⟩ front (by simpa using long)
    exact not_mem_sign blank sign (reached.subset (by simp))
  ext sign
  simp only [sign?_eq_some, front]

theorem head?_append (c : Char) (visible : isBlank c = false) :
    (rest ++ b :: more).head? = some c ↔ rest.head? = some c := by
  cases rest with
  | nil =>
    simp only [List.nil_append, List.head?_cons, Option.some.injEq, List.head?_nil, reduceCtorEq,
      iff_false]
    rintro rfl
    simp [blank] at visible
  | cons => rfl

theorem signOrFault_append (c : Char) : signOrFault c (rest ++ b :: more) = signOrFault c rest := by
  have signs : sign? (c :: rest ++ b :: more) = sign? (c :: rest) := sign?_append blank ..
  simp only [signOrFault, ← List.cons_append, signs, head?_append blank rest more '.' (by decide)]

omit blank in
theorem quoted_append (finished : (quoted rest).1 ≠ .fault .unfinishedString) :
    quoted (rest ++ b :: more) = quoted rest := by
  have closed : (rest.takeWhile (· ≠ '"')).length < rest.length := by
    by_contra longer
    exact finished (by simp only [quoted, if_neg longer])
  have body : (rest ++ b :: more).takeWhile (· ≠ '"') = rest.takeWhile (· ≠ '"') := by
    rw [List.takeWhile_append, if_neg closed.ne]
  have within : (rest.takeWhile (· ≠ '"')).length < (rest ++ b :: more).length :=
    closed.trans_le (List.length_append ▸ Nat.le_add_right ..)
  simp only [quoted, body, if_pos closed, if_pos within]

/-- A piece does not reach over a blank, unless it is an unfinished string or a comment and the
blank does not end the line. -/
theorem classify_append (c : Char) (finished : (classify c rest).1 ≠ .fault .unfinishedString)
    (lineEnd : c = '/' ∧ rest.head? = some '/' → b = '\n') :
    classify c (rest ++ b :: more) = classify c rest := by
  unfold classify at finished ⊢
  simp only [head?_append blank rest more '/' (by decide)]
  by_cases isSpace : isBlank c = true
  · simp only [if_pos isSpace]
  by_cases comment : c = '/' ∧ rest.head? = some '/'
  · simp only [if_neg isSpace, if_pos comment]
    rw [takeWhile_append_stop (by simp [lineEnd comment])]
  by_cases quote : c = '"'
  · simp only [if_neg isSpace, if_neg comment, if_pos quote] at finished ⊢
    exact quoted_append rest more finished
  by_cases digit : c.isDigit = true
  · simp only [if_neg isSpace, if_neg comment, if_neg quote, if_pos digit, List.length_cons,
      Nat.add_sub_cancel, takeWhile_append_stop (isDigit_of_isBlank blank),
      List.drop_append_of_le_length (List.takeWhile_prefix Char.isDigit).length_le,
      number_append blank]
  · simp only [if_neg isSpace, if_neg comment, if_neg quote, if_neg digit,
      takeWhile_append_stop (isWordCharacter_of_isBlank blank), signOrFault_append blank]

omit blank in
theorem length_classify_le (c : Char) (rest : List Char) :
    (classify c rest).2.length ≤ rest.length + 1 := by
  obtain ⟨after, whole, -, -⟩ := front_classify c rest
  have lengths := congrArg List.length whole
  simp only [List.length_cons, List.length_append] at lengths
  omega

omit blank in
/-- Cutting goes on after a line break as at the start. -/
theorem cut_append (source more : List Char)
    (finished : ∀ piece ∈ cut source, piece.kind ≠ .fault .unfinishedString) :
    cut (source ++ '\n' :: more) = cut source ++ ⟨.blank, ['\n']⟩ :: cut more := by
  fun_induction cut source with
  | case1 => 
    rw [List.nil_append, cut]
    rfl
  | case2 c rest kind text taken ih =>
    rw [List.forall_mem_cons] at finished
    have same := classify_append (by decide : isBlank '\n' = true) rest more c
      (taken ▸ finished.1) fun _ => rfl
    have bound := length_classify_le c rest
    rw [taken] at same bound
    rw [List.cons_append, cut, same, List.cons_append, ← ih finished.2]
    dsimp only at bound ⊢
    rw [List.drop_append_of_le_length (by omega)]

end Piece

/-- The token as it stands a number of lines further down. -/
def Token.lowered (lines : Nat) (token : Token) : Token := { token with line := token.line + lines }

def Located.lowered {Fault : Type} (lines : Nat) (error : Located Fault) : Located Fault :=
  { error with line := error.line + lines }

namespace Piece

theorem placed_append (line : Nat) (first second : List Piece) :
    placed line (first ++ second) =
      placed line first ++ placed (line + (first.flatMap Piece.text).count '\n') second := by
  induction first generalizing line with
  | nil => rfl
  | cons piece rest ih =>
    rw [List.cons_append, placed, ih, placed, List.flatMap_cons, List.count_append, Nat.add_assoc]
    rfl

end Piece

namespace Scan

open Piece

/-- The end of input comes last. -/
theorem ofPieces_append (line : Nat) (first second : List Piece) :
    ofPieces line (first ++ second) =
      let before := ofPieces line first
      let after := ofPieces (line + (first.flatMap Piece.text).count '\n') second
      ⟨before.tokens.dropLast ++ after.tokens, before.errors ++ after.errors⟩ := by
  simp only [ofPieces_eq, placed_append, List.filterMap_append, List.dropLast_concat,
    List.flatMap_append, List.count_append, List.append_assoc, Nat.add_assoc]

theorem ofPieces_lowered (lines line : Nat) (pieces : List Piece) :
    ofPieces (line + lines) pieces =
      let before := ofPieces line pieces
      ⟨before.tokens.map (.lowered lines), before.errors.map (.lowered lines)⟩ := by
  induction pieces generalizing line with
  | nil => rfl
  | cons piece rest ih =>
    obtain ⟨kind, text⟩ := piece
    simp only [ofPieces, Nat.add_right_comm line lines, ih]
    cases kind <;> rfl

theorem exists_error (line : Nat) {pieces : List Piece} {piece : Piece} {fault : LexicalFault}
    (present : piece ∈ pieces) (kind : piece.kind = .fault fault) :
    ∃ error ∈ (ofPieces line pieces).errors, error.fault = fault := by
  induction pieces generalizing line with
  | nil => cases present
  | cons first rest ih =>
    rcases List.mem_cons.mp present with rfl | later
    · exact ⟨⟨fault, line⟩, by simp [ofPieces, kind], rfl⟩
    · obtain ⟨error, found, same⟩ := ih (line + first.text.count '\n') later
      refine ⟨error, ?_, same⟩
      simp only [ofPieces]
      cases first.kind <;> simp [found]

end Scan

/-- The end of input comes once, and it comes last. -/
theorem scan_ends (source : String) : ∃ body last, (scan source).tokens = body ++ [last] ∧
    last.kind = .endOfInput ∧ ∀ token ∈ body, token.kind ≠ .endOfInput := by
  rw [scan, Piece.ofPieces_eq]
  exact ⟨_, _, rfl, rfl, (Piece.cut_tiles source.toList).real 1⟩

/-- The lines of a source: one more than it has line breaks. -/
def lineCount (source : String) : Nat := source.toList.count '\n' + 1

/-- What follows a line break is scanned on its own, unless a string is still open there. -/
theorem scan_append {first : String} (second : String)
    (finished : ∀ error ∈ (scan first).errors, error.fault ≠ .unfinishedString) :
    scan (first ++ "\n" ++ second) =
      ⟨(scan first).tokens.dropLast ++ (scan second).tokens.map (.lowered (lineCount first)),
        (scan first).errors ++ (scan second).errors.map (.lowered (lineCount first))⟩ := by
  have whole : (first ++ "\n" ++ second).toList = first.toList ++ '\n' :: second.toList := by
    simp
  have pieces := Piece.cut_append first.toList second.toList fun piece present kind => by
    obtain ⟨error, found, fault⟩ := Scan.exists_error 1 present kind
    exact finished error found fault
  have text := (Piece.cut_tiles first.toList).flatMap_text
  have broken : Scan.ofPieces (1 + first.toList.count '\n')
      (⟨.blank, ['\n']⟩ :: Piece.cut second.toList) =
        Scan.ofPieces (1 + lineCount first) (Piece.cut second.toList) := by
    simp only [Scan.ofPieces, lineCount, Nat.add_assoc]
    rfl
  simp only [scan, whole, pieces, Scan.ofPieces_append, text, broken, Scan.ofPieces_lowered]

end GSharp
