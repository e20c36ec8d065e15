import GSharp.Token.Scan
import Mathlib

namespace GSharp

open Piece

/-- A text is a prefix of the run of such characters at the front of the source. -/
theorem prefix_takeWhile {p : Char → Bool} {text source : List Char} (all : ∀ c ∈ text, p c = true)
    (front : text <+: source) : text <+: source.takeWhile p := by
  obtain ⟨after, rfl⟩ := front
  rw [List.takeWhile_append_of_pos all]
  exact List.prefix_append _ _

theorem drop_takeWhile (p : Char → Bool) (source : List Char) :
    source.drop (source.takeWhile p).length = source.dropWhile p := by
  induction source with
  | nil => rfl
  | cons c rest ih => rcases holds : p c with _ | _ <;> simp [holds, ih]

/-- One digit or more. -/
structure Digits (text : List Char) : Prop where
  some : text ≠ []
  all : ∀ c ∈ text, c.isDigit = true

/-- Numbers as they are written, a fraction having digits before its point and after it. -/
inductive Numeral : List Char → Float → Prop where
  | whole {digits : List Char} (digitsOnly : Digits digits) : Numeral digits (decimal digits [])
  | fraction {digits decimals : List Char} (digitsOnly : Digits digits)
      (decimalsOnly : Digits decimals) :
      Numeral (digits ++ '.' :: decimals) (decimal digits ('.' :: decimals))

namespace Piece

/-- A letter or an underscore, and any letters, digits and underscores after it. -/
def isWord : List Char → Bool
  | [] => false
  | c :: rest => isLetter c && rest.all isWordCharacter

theorem isWord_cons {c : Char} {rest : List Char} :
    isWord (c :: rest) = true ↔ isLetter c = true ∧ ∀ d ∈ rest, isWordCharacter d = true := by
  simp [isWord]

theorem fraction_point (rest : List Char) :
    fraction ('.' :: rest) =
      if rest.takeWhile Char.isDigit = [] then [] else '.' :: rest.takeWhile Char.isDigit := by
  cases rest with
  | nil => rfl
  | cons d rest =>
    rcases digit : d.isDigit with _ | _ <;> simp [fraction, digit]

/-- A fraction that is there has digits after its point, and stands at the front of the text. -/
theorem fraction_spec (rest : List Char) :
    fraction rest = [] ∨
      ∃ decimals, Digits decimals ∧ fraction rest = '.' :: decimals ∧ fraction rest <+: rest := by
  fun_cases fraction rest with
  | case1 d rest digit =>
    refine .inr ⟨d :: rest.takeWhile Char.isDigit, ⟨List.cons_ne_nil _ _, ?_⟩, rfl, ?_⟩
    · exact List.forall_mem_cons.mpr ⟨digit, fun c member => List.mem_takeWhile_imp member⟩
    · simpa using List.takeWhile_prefix _
  | case2 => exact .inl rfl
  | case3 => exact .inl rfl

theorem fraction_front (rest : List Char) : fraction rest <+: rest := by
  rcases fraction_spec rest with none | ⟨_, -, -, front⟩
  · exact none ▸ List.nil_prefix
  · exact front

/-- No longer fraction stands at the front of the text. -/
theorem fraction_longest {decimals rest : List Char} (digits : Digits decimals)
    (front : '.' :: decimals <+: rest) : decimals.length + 1 ≤ (fraction rest).length := by
  obtain ⟨after, rfl⟩ := front
  have run := (prefix_takeWhile digits.all (List.prefix_append decimals after)).length_le
  have some := List.length_pos_of_ne_nil digits.some
  rw [List.cons_append, fraction_point, if_neg (List.ne_nil_of_length_pos (by omega))]
  simpa using run

end Piece

namespace Numeral

variable {text source : List Char} {value : Float}

theorem digits_point (digitsOnly : Digits source) (after : List Char) :
    (source ++ '.' :: after).takeWhile Char.isDigit = source ∧
      (source ++ '.' :: after).dropWhile Char.isDigit = '.' :: after := by
  rw [List.takeWhile_append_of_pos digitsOnly.all, List.dropWhile_append_of_pos digitsOnly.all]
  constructor <;> simp

/-- A numeral has one value. -/
theorem value_eq (numeral : Numeral text value) :
    value = decimal (text.takeWhile Char.isDigit) (text.dropWhile Char.isDigit) := by
  cases numeral with
  | whole digitsOnly =>
    rw [List.takeWhile_eq_self_iff.mpr digitsOnly.all,
      List.dropWhile_eq_nil_iff.mpr digitsOnly.all]
  | @fraction digits decimals digitsOnly decimalsOnly =>
    rw [(digits_point digitsOnly decimals).1, (digits_point digitsOnly decimals).2]

theorem head (numeral : Numeral text value) : ∃ c rest, text = c :: rest ∧ c.isDigit = true := by
  obtain ⟨digits, after, digitsOnly, rfl⟩ : ∃ digits after, Digits digits ∧ text = digits ++ after
  := by
    cases numeral with
    | whole digitsOnly => exact ⟨_, [], digitsOnly, (List.append_nil _).symm⟩
    | fraction digitsOnly decimalsOnly => exact ⟨_, _, digitsOnly, rfl⟩
  obtain ⟨c, rest, rfl⟩ := List.exists_cons_of_ne_nil digitsOnly.some
  exact ⟨c, rest ++ after, rfl, digitsOnly.all c List.mem_cons_self⟩

/-- The digits at the front of a text and the fraction after them are a numeral. -/
theorem ofFront (digitsOnly : Digits text) (rest : List Char) :
    Numeral (text ++ Piece.fraction rest) (decimal text (Piece.fraction rest)) := by
  rcases fraction_spec rest with none | ⟨decimals, decimalsOnly, fraction, -⟩
  · rw [none, List.append_nil]
    exact .whole digitsOnly
  · rw [fraction]
    exact .fraction digitsOnly decimalsOnly

/-- It is the longest numeral there. -/
theorem length_le (numeral : Numeral text value) (front : text <+: source) :
    text.length ≤ (source.takeWhile Char.isDigit).length +
      (Piece.fraction (source.dropWhile Char.isDigit)).length := by
  cases numeral with
  | whole digitsOnly => exact (prefix_takeWhile digitsOnly.all front).length_le.trans le_self_add
  | @fraction digits decimals digitsOnly decimalsOnly =>
    obtain ⟨after, rfl⟩ := front
    rw [List.append_assoc, List.cons_append, (digits_point digitsOnly _).1,
      (digits_point digitsOnly _).2, List.length_append, List.length_cons]
    exact Nat.add_le_add_left
      (fraction_longest decimalsOnly (List.prefix_append ('.' :: decimals) after)) _

end Numeral

namespace Piece

variable {sign : Sign} {source : List Char}

theorem sign?_front (found : sign? source = some sign) : sign.text.toList <+: source := by
  revert found
  fun_cases sign? source <;> rintro ⟨⟩ <;> simp [Sign.text]

/-- The sign that is found is the longest one at the front of the text. -/
theorem sign?_longest (front : sign.text.toList <+: source) :
    ∃ found, sign? source = some found ∧ sign.text.toList.length ≤ found.text.toList.length := by
  obtain ⟨after, rfl⟩ := front
  cases sign
  case bang | greater | less | equals =>
    rcases after with _ | ⟨d, after⟩
    · exact ⟨_, rfl, le_rfl⟩
    · by_cases equals : d = '='
      · subst equals
        exact ⟨_, rfl, by decide⟩
      · simp [Sign.text, sign?, equals]
  all_goals exact ⟨_, rfl, le_rfl⟩

theorem sign?_text (sign : Sign) : sign? sign.text.toList = some sign := by
  cases sign <;> rfl

theorem sign?_eq_some : sign? source = some sign ↔ sign.text.toList <+: source ∧
    ∀ other : Sign, other.text.toList <+: source →
      other.text.toList.length ≤ sign.text.toList.length := by
  constructor
  · intro found
    refine ⟨sign?_front found, fun other front => ?_⟩
    obtain ⟨found', same, longer⟩ := sign?_longest front
    obtain rfl := Option.some.inj (found.symm.trans same)
    exact longer
  · rintro ⟨front, longest⟩
    obtain ⟨found, same, longer⟩ := sign?_longest front
    have front' := sign?_front same
    have text : sign.text.toList = found.text.toList :=
      (List.prefix_of_prefix_length_le front front' longer).eq_of_length_le (longest found front')
    rw [same, ← sign?_text found, ← text, sign?_text]

end Piece

namespace TokenKind

/-- The words that mean something else than a name. -/
def words : List (String × TokenKind) :=
  [("PI", number 3.141592653589793), ("E", number 2.718281828459045), ("true", boolean true),
    ("false", boolean false)] ++ Keyword.all.map (fun word => (word.text, keyword word)) ++
    FigureKind.all.map fun kind => (kind.text, figure kind)

/-- The texts that may stand for a token of a kind. What means something else may stand for a name
as well, and a shorter text may stand where a longer one does. -/
inductive Pattern : TokenKind → List Char → Prop where
  | number {text : List Char} {value : Float} (numeral : Numeral text value) :
      Pattern (.number value) text
  | string {body : List Char} (closed : '"' ∉ body) :
      Pattern (.string (.ofList body)) ('"' :: body ++ ['"'])
  | word {text : String} {kind : TokenKind} (known : (text, kind) ∈ words) :
      Pattern kind text.toList
  | identifier {text : List Char} (word : isWord text = true) :
      Pattern (.identifier (.ofList text)) text
  | sign (sign : Sign) : Pattern (.sign sign) sign.text.toList

theorem ofWord_of_mem : ∀ entry ∈ words, ofWord entry.1 = entry.2 := by decide +kernel

theorem isWord_of_mem : ∀ entry ∈ words, isWord entry.1.toList = true := by decide +kernel

theorem ofWord_spec (word : String) :
    (word, ofWord word) ∈ words ∨ ofWord word = .identifier word := by
  unfold ofWord
  split_ifs with pi e yes no
  · simp [words, pi]
  · simp [words, e]
  · simp [words, yes]
  · simp [words, no]
  · rcases keyword : Keyword.all.find? (·.text = word) with _ | found
    · rcases figure : FigureKind.all.find? (·.text = word) with _ | found
      · exact .inr (by simp only [keyword, figure])
      · have named : found.text = word := by simpa using List.find?_some figure
        refine .inl (List.mem_append_right _ (List.mem_map.mpr ⟨found, ?_, ?_⟩))
        · exact List.mem_of_find?_eq_some figure
        · simp only [named, keyword, figure]
    · have named : found.text = word := by simpa using List.find?_some keyword
      refine .inl (List.mem_append_left _ (List.mem_append_right _ ?_))
      refine List.mem_map.mpr ⟨found, List.mem_of_find?_eq_some keyword, ?_⟩
      simp only [named, keyword]

/-- No word of the language means a name. -/
theorem identifier_not_mem (word name : String) : (word, .identifier name) ∉ words := by
  simp [words]

/-- The first character of a text settles which patterns match it. -/
theorem Pattern.of_cons {kind : TokenKind} {c : Char} {rest : List Char}
    (matched : Pattern kind (c :: rest)) :
    (c.isDigit = true ∧ ∃ value, kind = .number value ∧ Numeral (c :: rest) value) ∨
    (c = '"' ∧ ∃ body, kind = .string (.ofList body) ∧ '"' ∉ body ∧ rest = body ++ ['"']) ∨
    (isLetter c = true ∧ isWord (c :: rest) = true ∧
      (kind = ofWord (.ofList (c :: rest)) ∨ kind = .identifier (.ofList (c :: rest)))) ∨
    ((c.isDigit = false ∧ c ≠ '"' ∧ isLetter c = false) ∧
      ∃ sign : Sign, kind = .sign sign ∧ sign.text.toList = c :: rest) := by
  generalize same : c :: rest = text at matched
  cases matched with
  | number numeral =>
    obtain ⟨d, after, shape, digit⟩ := numeral.head
    obtain ⟨rfl, rfl⟩ := List.cons.inj (same.trans shape)
    exact .inl ⟨digit, _, rfl, numeral⟩
  | @string body closed =>
    obtain ⟨rfl, rfl⟩ := List.cons.inj (same.trans (List.cons_append ..))
    exact .inr (.inl ⟨rfl, body, rfl, closed, rfl⟩)
  | @word text kind known =>
    have word := isWord_of_mem _ known
    refine .inr (.inr (.inl ⟨(isWord_cons.mp (same ▸ word)).1, word, .inl ?_⟩))
    rw [String.ofList_toList, ofWord_of_mem _ known]
  | identifier word =>
    subst same
    exact .inr (.inr (.inl ⟨(isWord_cons.mp word).1, word, .inr rfl⟩))
  | sign sign =>
    refine .inr (.inr (.inr ⟨?_, sign, rfl, rfl⟩))
    cases sign <;> obtain ⟨rfl, rfl⟩ := List.cons.inj same <;> decide

theorem Pattern.ne_nil {kind : TokenKind} {text : List Char} (matched : Pattern kind text) :
    text ≠ [] := by
  cases matched with
  | number numeral =>
    obtain ⟨c, rest, rfl, -⟩ := numeral.head
    exact List.cons_ne_nil c rest
  | string closed => exact List.cons_ne_nil _ _
  | word known =>
    intro empty
    simpa [empty, isWord] using isWord_of_mem _ known
  | identifier word => exact fun empty => by simp [empty, isWord] at word
  | sign sign => cases sign <;> decide

/-- No text stands for the end of input. -/
theorem Pattern.ne_endOfInput {kind : TokenKind} {text : List Char} (matched : Pattern kind text) :
    kind ≠ .endOfInput := by
  cases matched with
  | word known =>
    rintro rfl
    simp [words] at known
  | number | string | identifier | sign => exact nofun

/-- What matches at the front of a text begins with its first character. -/
theorem Pattern.of_front {kind : TokenKind} {text rest : List Char} {c : Char}
    (matched : Pattern kind text) (front : text <+: c :: rest) :
    ∃ more, text = c :: more ∧ more <+: rest :=
  (List.prefix_cons_iff.mp front).resolve_left matched.ne_nil

end TokenKind

end GSharp
