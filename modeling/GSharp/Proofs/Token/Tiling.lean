import GSharp.Proofs.Token.Pattern

namespace GSharp

open TokenKind (Pattern)

namespace Piece

/-- What may be taken from the front of a text when some text comes after it. -/
inductive Fits (after : List Char) : PieceKind → List Char → Prop where
  /-- The longest match of all, a word with a meaning being no name. -/
  | token {kind : TokenKind} {text : List Char} (matched : Pattern kind text)
      (longest : ∀ other match', Pattern other match' → match' <+: text ++ after →
        match'.length ≤ text.length)
      (first : ∀ other, Pattern other text → other = kind ∨ other = .identifier (.ofList text))
      (plain : ¬['/', '/'] <+: text ++ after)
      (apart : ∀ value, Numeral text value → ∀ c ∈ after.head?, isWordCharacter c = false) :
      Fits after (.token kind) text
  /-- The longest number with all that touches it. -/
  | invalidNumber {written letters : List Char} {value : Float} (numeral : Numeral written value)
      (longest : ∀ other value, Numeral other value → other <+: written ++ letters ++ after →
        other.length ≤ written.length)
      (glued : letters ≠ []) (characters : ∀ c ∈ letters, isWordCharacter c = true)
      (apart : ∀ c ∈ after.head?, isWordCharacter c = false) :
      Fits after (.fault (.invalidNumber (.ofList (written ++ letters)))) (written ++ letters)
  | unfinishedString {body : List Char} (unclosed : '"' ∉ body) (last : after = []) :
      Fits after (.fault .unfinishedString) ('"' :: body)
  /-- A character at which nothing starts. -/
  | unexpectedCharacter {c : Char} (visible : isBlank c = false) (quote : c ≠ '"')
      (unmatched : ∀ kind text, Pattern kind text → ¬text <+: c :: after)
      (single : c = '.' → after.head? ≠ some '.') :
      Fits after (.fault (.unexpectedCharacter (.ofList [c]))) [c]
  | unexpectedPoints (unmatched : ∀ kind text, Pattern kind text → ¬text <+: '.' :: '.' :: after) :
      Fits after (.fault (.unexpectedCharacter (.ofList ['.', '.']))) ['.', '.']
  | space {c : Char} (blank : isBlank c = true) : Fits after .blank [c]
  /-- A comment goes on to the end of its line. -/
  | comment {body : List Char} (inside : ∀ c ∈ body, c ≠ '\n' ∧ c ≠ '\r')
      (stopped : ∀ c ∈ after.head?, c = '\n' ∨ c = '\r') :
      Fits after .blank ('/' :: '/' :: body)

/-- Something that fits is at the front of the text. -/
def Front (source : List Char) (taken : PieceKind × List Char) : Prop :=
  ∃ after, source = taken.2 ++ after ∧ taken.2 ≠ [] ∧ Fits after taken.1 taken.2

theorem isLetter_bounds {c : Char} (letter : isLetter c = true) :
    c.isDigit = false ∧ c ≠ '"' ∧ c ≠ '/' := by
  have bounds : 65 ≤ c.toNat := by
    simp only [isLetter, Char.isAlpha, Char.isUpper, Char.isLower, Bool.or_eq_true,
      Bool.and_eq_true, decide_eq_true_eq, UInt32.le_iff_toNat_le, ge_iff_le] at letter
    change ((65 ≤ c.toNat ∧ c.toNat ≤ 90) ∨ 97 ≤ c.toNat ∧ c.toNat ≤ 122) ∨ c = '_' at letter
    rcases letter with (upper | lower) | rfl
    · exact upper.1
    · exact Nat.le_trans (by decide) lower.1
    · decide
  refine ⟨?_, fun quote => ?_, fun slash => ?_⟩
  · simp only [Char.isDigit, Bool.and_eq_false_iff, decide_eq_false_iff_not, UInt32.le_iff_toNat_le]
    change _ ∨ ¬c.toNat ≤ 57
    omega
  · subst quote
    exact absurd bounds (by decide)
  · subst slash
    exact absurd bounds (by decide)

theorem head?_dropWhile (p : Char → Bool) (source : List Char) :
    ∀ c ∈ (source.dropWhile p).head?, p c = false := by
  have boundary := List.head?_dropWhile_not p source
  intro c first
  rw [Option.mem_def] at first
  simpa [first] using boundary

section Taken

variable {c : Char} {rest : List Char}

/-- Among the patterns only those have to be looked at that begin with the first character. -/
theorem front_token {kind : TokenKind} {text after : List Char} (whole : text ++ after = c :: rest)
    (matched : Pattern kind text)
    (longest : ∀ other more, Pattern other (c :: more) → more <+: rest →
      (c :: more).length ≤ text.length)
    (first : ∀ other, Pattern other text → other = kind ∨ other = .identifier (.ofList text))
    (plain : ¬(c = '/' ∧ rest.head? = some '/'))
    (apart : ∀ value, Numeral text value → ∀ d ∈ after.head?, isWordCharacter d = false) :
    Front (c :: rest) (.token kind, text) := by
  refine ⟨after, whole.symm, matched.ne_nil, .token matched ?_ first ?_ apart⟩
  · intro other match' otherMatched front
    obtain ⟨more, rfl, inside⟩ := otherMatched.of_front (whole ▸ front)
    exact longest other more otherMatched inside
  · rw [whole]
    rintro ⟨body, comment⟩
    obtain ⟨rfl, rfl⟩ := List.cons.inj comment
    exact plain ⟨rfl, rfl⟩

theorem front_word (letter : isLetter c = true) :
    Front (c :: rest) (.token (.ofWord (.ofList (c :: rest.takeWhile isWordCharacter))),
      c :: rest.takeWhile isWordCharacter) := by
  obtain ⟨digit, quote, slash⟩ := isLetter_bounds letter
  have word : isWord (c :: rest.takeWhile isWordCharacter) = true :=
    isWord_cons.mpr ⟨letter, fun d member => List.mem_takeWhile_imp member⟩
  have matches_word {other : TokenKind} {more : List Char} (matched : Pattern other (c :: more)) :
      isWord (c :: more) = true ∧
        (other = .ofWord (.ofList (c :: more)) ∨ other = .identifier (.ofList (c :: more))) := by
    rcases matched.of_cons with ⟨isDigit, -⟩ | ⟨isQuote, -⟩ | ⟨-, meant⟩ | ⟨⟨-, -, isOther⟩, -⟩
    · exact absurd isDigit (by simp [digit])
    · exact absurd isQuote quote
    · exact meant
    · exact absurd letter (by simp [isOther])
  have whole :
      c :: rest.takeWhile isWordCharacter ++ rest.dropWhile isWordCharacter = c :: rest := by
    rw [List.cons_append, List.takeWhile_append_dropWhile]
  refine front_token whole ?_ ?_ ?_ (slash ·.1) ?_
  · rcases TokenKind.ofWord_spec (.ofList (c :: rest.takeWhile isWordCharacter)) with known | name
    · simpa only [String.toList_ofList] using Pattern.word known
    · rw [name]
      exact .identifier word
  · intro other more matched inside
    have characters := (isWord_cons.mp (matches_word matched).1).2
    exact Nat.succ_le_succ (prefix_takeWhile characters inside).length_le
  · exact fun other matched => (matches_word matched).2
  · exact fun _ _ => head?_dropWhile isWordCharacter rest

theorem front_quoted : Front ('"' :: rest) (quoted rest) := by
  have unclosed : '"' ∉ rest.takeWhile (· ≠ '"') := fun member => by
    simpa using List.mem_takeWhile_imp member
  have matches_string {other : TokenKind} {more : List Char}
      (matched : Pattern other ('"' :: more)) :
      ∃ body, other = .string (.ofList body) ∧ '"' ∉ body ∧ more = body ++ ['"'] := by
    rcases matched.of_cons with ⟨isDigit, -⟩ | ⟨-, string⟩ | ⟨isLetter, -⟩ | ⟨⟨-, isQuote, -⟩, -⟩
    · exact absurd isDigit (by decide)
    · exact string
    · exact absurd isLetter (by decide)
    · exact absurd rfl isQuote
  dsimp only [quoted]
  split
  next shorter =>
    obtain ⟨d, after, beyond⟩ : ∃ d after, rest.dropWhile (· ≠ '"') = d :: after := by
      refine List.exists_cons_of_ne_nil fun none => ?_
      have whole := List.takeWhile_append_dropWhile (p := (· ≠ '"')) (l := rest)
      rw [none, List.append_nil] at whole
      exact absurd shorter (by rw [whole]; exact lt_irrefl _)
    obtain rfl : d = '"' := by
      have boundary := head?_dropWhile (· ≠ '"') rest
      rw [beyond] at boundary
      simpa using boundary
    have whole : '"' :: rest.takeWhile (· ≠ '"') ++ ['"'] ++ after = '"' :: rest := by
      rw [List.append_assoc, List.cons_append, List.singleton_append, ← beyond,
        List.takeWhile_append_dropWhile]
    refine front_token whole (.string unclosed) ?_ ?_ (by simp) ?_
    · intro other more matched inside
      obtain ⟨body, -, closed, rfl⟩ := matches_string matched
      have run : body <+: rest.takeWhile (· ≠ '"') :=
        prefix_takeWhile (fun d member => by
          simpa using ne_of_mem_of_not_mem member closed) ((List.prefix_append body _).trans inside)
      simpa using run.length_le
    · intro other matched
      obtain ⟨body, rfl, -, same⟩ := matches_string matched
      rw [List.append_cancel_right same]
      exact .inl rfl
    · intro value numeral
      obtain ⟨d, _, shape, digit⟩ := numeral.head
      obtain ⟨rfl, -⟩ := List.cons.inj shape
      exact absurd digit (by decide)
  next longer =>
    have whole : rest.takeWhile (· ≠ '"') = rest :=
      (List.takeWhile_prefix _).eq_of_length_le (not_lt.mp longer)
    exact ⟨[], by simp only [whole, List.append_nil], List.cons_ne_nil _ _,
      .unfinishedString unclosed rfl⟩

theorem front_number (digit : c.isDigit = true) :
    Front (c :: rest)
      (number (c :: rest.takeWhile Char.isDigit) (rest.dropWhile Char.isDigit)) := by
  set digits := c :: rest.takeWhile Char.isDigit with digits_eq
  set beyond := rest.dropWhile Char.isDigit with beyond_eq
  have digitsOnly : Digits digits := ⟨List.cons_ne_nil _ _,
    List.forall_mem_cons.mpr ⟨digit, fun d member => List.mem_takeWhile_imp member⟩⟩
  have source_digits : (c :: rest).takeWhile Char.isDigit = digits := by simp [digit, digits_eq]
  have source_beyond : (c :: rest).dropWhile Char.isDigit = beyond := by simp [digit, beyond_eq]
  have whole : digits ++ beyond = c :: rest := by
    rw [← source_digits, ← source_beyond, List.takeWhile_append_dropWhile]
  have longest {text : List Char} {value : Float} (numeral : Numeral text value)
      (front : text <+: c :: rest) : text.length ≤ (digits ++ fraction beyond).length := by
    simpa only [source_digits, source_beyond, List.length_append] using numeral.length_le front
  have matches_number {other : TokenKind} {more : List Char} (matched : Pattern other (c :: more)) :
      ∃ value, other = .number value ∧ Numeral (c :: more) value := by
    rcases matched.of_cons with ⟨-, number⟩ | ⟨isQuote, -⟩ | ⟨letter, -⟩ | ⟨⟨isOther, -⟩, -⟩
    · exact number
    · exact absurd digit (by simp [isQuote])
    · exact absurd digit (by simp [(isLetter_bounds letter).1])
    · exact absurd digit (by simp [isOther])
  obtain ⟨left, fractionSplit⟩ := fraction_front beyond
  have remaining : beyond.drop (fraction beyond).length = left :=
    (congrArg (List.drop _) fractionSplit.symm).trans List.drop_left
  have written : digits ++ fraction beyond ++ left = c :: rest := by
    rw [List.append_assoc, fractionSplit, whole]
  simp only [number, remaining]
  have numeral := Numeral.ofFront digitsOnly beyond
  have boundary := head?_dropWhile isWordCharacter left
  have split_left := List.takeWhile_append_dropWhile (p := isWordCharacter) (l := left)
  rcases run : left.takeWhile isWordCharacter with _ | ⟨d, letters⟩
  · rw [run, List.nil_append] at split_left
    rw [split_left] at boundary
    refine front_token written (.number numeral) ?_ ?_ ?_ fun _ _ => boundary
    · intro other more matched inside
      obtain ⟨value, -, found⟩ := matches_number matched
      exact longest found (List.cons_prefix_cons.mpr ⟨rfl, inside⟩)
    · intro other matched
      obtain ⟨value, rfl, found⟩ := matches_number matched
      rw [found.value_eq, numeral.value_eq]
      exact .inl rfl
    · rintro ⟨rfl, -⟩
      exact absurd digit (by decide)
  · rw [run] at split_left
    have shape : digits ++ fraction beyond ++ d :: letters ++ left.dropWhile isWordCharacter =
        c :: rest := by
      rw [List.append_assoc, split_left, written]
    have characters : ∀ e ∈ d :: letters, isWordCharacter e = true := fun e member =>
      List.mem_takeWhile_imp (run ▸ member)
    refine ⟨left.dropWhile isWordCharacter, shape.symm, List.append_ne_nil_of_right_ne_nil _
      (List.cons_ne_nil d letters), .invalidNumber numeral ?_ (List.cons_ne_nil d letters)
      characters boundary⟩
    intro other value found front
    exact longest found (shape ▸ front)

theorem front_signOrFault (visible : isBlank c = false) (quote : c ≠ '"')
    (digit : c.isDigit = false) (letter : isLetter c = false)
    (plain : ¬(c = '/' ∧ rest.head? = some '/')) : Front (c :: rest) (signOrFault c rest) := by
  have matches_sign {other : TokenKind} {more : List Char} (matched : Pattern other (c :: more)) :
      ∃ sign : Sign, other = .sign sign ∧ sign.text.toList = c :: more := by
    rcases matched.of_cons with ⟨isDigit, -⟩ | ⟨isQuote, -⟩ | ⟨isLetter, -⟩ | ⟨-, sign⟩
    · exact absurd isDigit (by simp [digit])
    · exact absurd isQuote quote
    · exact absurd isLetter (by simp [letter])
    · exact sign
  have exists_longer {other : TokenKind} {more : List Char} (matched : Pattern other (c :: more))
      (inside : more <+: rest) : ∃ sign, sign? (c :: rest) = some sign ∧
        (c :: more).length ≤ sign.text.toList.length := by
    obtain ⟨sign, -, text⟩ := matches_sign matched
    rw [← text]
    exact sign?_longest (text ▸ List.cons_prefix_cons.mpr ⟨rfl, inside⟩)
  unfold signOrFault
  split
  next sign found =>
    have front := sign?_front found
    obtain ⟨more, text, -⟩ := (Pattern.sign sign).of_front front
    obtain ⟨after, whole⟩ := front
    refine front_token whole (.sign sign) ?_ ?_ plain ?_
    · intro other more matched inside
      obtain ⟨found', same, longer⟩ := exists_longer matched inside
      obtain rfl := Option.some.inj (found.symm.trans same)
      exact longer
    · intro other matched
      obtain ⟨sign', rfl, text'⟩ := matches_sign (text ▸ matched)
      have same := (sign?_text sign').symm.trans ((congrArg sign? (text'.trans text.symm)).trans
        (sign?_text sign))
      exact .inl (congrArg TokenKind.sign (Option.some.inj same))
    · intro value numeral
      obtain ⟨d, _, shape, isDigit⟩ := numeral.head
      obtain ⟨rfl, -⟩ := List.cons.inj (text.symm.trans shape)
      exact absurd isDigit (by simp [digit])
  next none =>
    have unmatched : ∀ kind text, Pattern kind text → ¬text <+: c :: rest := by
      intro kind text matched front
      obtain ⟨more, rfl, inside⟩ := matched.of_front front
      obtain ⟨found, same, -⟩ := exists_longer matched inside
      exact absurd (none.symm.trans same) (Option.some_ne_none found).symm
    split_ifs with points
    · obtain ⟨rfl, second⟩ := points
      obtain ⟨after, rfl⟩ := List.head?_eq_some_iff.mp second
      exact ⟨after, rfl, List.cons_ne_nil _ _, .unexpectedPoints unmatched⟩
    · exact ⟨rest, rfl, List.cons_ne_nil _ _,
        .unexpectedCharacter visible quote unmatched fun point second => points ⟨point, second⟩⟩

theorem front_comment {body : List Char} :
    Front ('/' :: '/' :: body)
      (.blank, '/' :: ('/' :: body).takeWhile fun d => d ≠ '\n' && d ≠ '\r') := by
  set inside : Char → Bool := fun d => d ≠ '\n' && d ≠ '\r' with inside_eq
  have slash : inside '/' = true := by decide
  rw [List.takeWhile_cons_of_pos slash]
  refine ⟨body.dropWhile inside, ?_, List.cons_ne_nil _ _, .comment ?_ ?_⟩
  · simp only [List.cons_append, List.takeWhile_append_dropWhile]
  · intro d member
    simpa [inside_eq] using List.mem_takeWhile_imp member
  · intro d first
    have stopped := head?_dropWhile inside body d first
    by_contra! other
    simp [inside_eq, other] at stopped

/-- What is taken from a text is always at its front. -/
theorem front_classify (c : Char) (rest : List Char) : Front (c :: rest) (classify c rest) := by
  unfold classify
  split_ifs with blank comment quote digit letter
  · exact ⟨rest, rfl, List.cons_ne_nil _ _, .space blank⟩
  · obtain ⟨rfl, second⟩ := comment
    obtain ⟨body, rfl⟩ := List.head?_eq_some_iff.mp second
    exact front_comment
  · exact quote ▸ front_quoted
  · dsimp only
    rw [List.length_cons, Nat.add_sub_cancel, drop_takeWhile]
    exact front_number digit
  · exact front_word letter
  · exact front_signOrFault (by simpa using blank) quote (by simpa using digit)
      (by simpa using letter) comment

end Taken

/-- Pieces that lie end to end, each of them fitting the text from where it starts. -/
inductive Tiles : List Char → List Piece → Prop where
  | nil : Tiles [] []
  | cons {kind : PieceKind} {text after : List Char} {pieces : List Piece} (some : text ≠ [])
      (fits : Fits after kind text) (rest : Tiles after pieces) :
      Tiles (text ++ after) (⟨kind, text⟩ :: pieces)

theorem cut_tiles (source : List Char) : Tiles source (cut source) := by
  fun_induction cut source with
  | case1 => exact .nil
  | case2 c rest kind text taken ih =>
    obtain ⟨after, whole, some, fits⟩ := front_classify c rest
    rw [taken] at whole some fits
    dsimp only at whole some fits
    obtain ⟨d, more, rfl⟩ := List.exists_cons_of_ne_nil some
    obtain ⟨rfl, remaining⟩ := List.cons.inj (whole.trans List.cons_append)
    rw [List.length_cons, Nat.add_sub_cancel, remaining, List.drop_left] at ih ⊢
    exact .cons (List.cons_ne_nil c more) fits ih

namespace Tiles

variable {source : List Char} {pieces before after : List Piece} {piece : Piece}

/-- Nothing is lost, repeated or changed. -/
theorem flatMap_text (tiles : Tiles source pieces) : pieces.flatMap Piece.text = source := by
  induction tiles with
  | nil => rfl
  | cons _ _ _ ih => rw [List.flatMap_cons, ih]

/-- Where a piece stands, it fits what comes after it, and the others tile that. -/
theorem of_append (tiles : Tiles source (before ++ piece :: after)) :
    Fits (after.flatMap Piece.text) piece.kind piece.text ∧
      Tiles (after.flatMap Piece.text) after := by
  induction before generalizing source with
  | nil =>
    cases tiles with
    | cons _ fits rest => exact rest.flatMap_text.symm ▸ ⟨fits, rest⟩
  | cons _ _ ih =>
    cases tiles with
    | cons _ _ rest => exact ih rest

theorem eq_nil (tiles : Tiles [] pieces) : pieces = [] := by
  generalize same : ([] : List Char) = source at tiles
  cases tiles with
  | nil => rfl
  | cons some => exact absurd (List.append_eq_nil_iff.mp same.symm).1 some

end Tiles

/-- A name means nothing else and is not cut short. -/
theorem Fits.identifier {after : List Char} {name : String} {text : List Char}
    (fits : Fits after (.token (.identifier name)) text) :
    (∀ kind, (name, kind) ∉ TokenKind.words) ∧ ∀ c ∈ after.head?, isWordCharacter c = false := by
  cases fits with
  | token matched longest first =>
    cases matched with
    | word known => exact absurd known (TokenKind.identifier_not_mem _ _)
    | identifier word =>
      constructor
      · intro kind known
        have matched : Pattern kind text := by
          simpa only [String.toList_ofList] using Pattern.word known
        obtain rfl := (first kind matched).elim id id
        exact TokenKind.identifier_not_mem _ _ known
      · intro c next
        obtain ⟨more, rfl⟩ := List.head?_eq_some_iff.mp next
        by_contra character
        have longer : isWord (text ++ [c]) = true := by
          obtain ⟨d, more, rfl⟩ := List.exists_cons_of_ne_nil (Pattern.identifier word).ne_nil
          obtain ⟨letter, characters⟩ := isWord_cons.mp word
          refine isWord_cons.mpr ⟨letter, List.forall_mem_append.mpr ⟨characters, ?_⟩⟩
          simpa using character
        have bound := longest _ _ (.identifier longer) ⟨more, by simp⟩
        simp at bound

/-- Pieces with the lines on which they start, the first one starting on a line. -/
def placed (line : Nat) : List Piece → List (Located PieceKind × List Char)
  | [] => []
  | piece :: rest =>
    (⟨piece.kind, line⟩, piece.text) :: placed (line + piece.text.count '\n') rest

def token? : Located PieceKind × List Char → Option Token
  | (⟨.token kind, line⟩, text) => some ⟨kind, .ofList text, line⟩
  | _ => none

def fault? : Located PieceKind × List Char → Option (Located LexicalFault)
  | (⟨.fault fault, line⟩, _) => some ⟨fault, line⟩
  | _ => none

theorem ofPieces_eq (line : Nat) (pieces : List Piece) :
    Scan.ofPieces line pieces =
      ⟨(placed line pieces).filterMap token? ++
        [⟨.endOfInput, "", line + (pieces.flatMap Piece.text).count '\n'⟩],
        (placed line pieces).filterMap fault?⟩ := by
  induction pieces generalizing line with
  | nil => rfl
  | cons piece rest ih =>
    obtain ⟨kind, text⟩ := piece
    cases kind <;>
      simp [Scan.ofPieces, ih, placed, token?, fault?, List.filterMap_cons, Nat.add_assoc]

/-- No piece of a text is its end. -/
theorem Tiles.real {source : List Char} {pieces : List Piece} (tiles : Tiles source pieces)
    (line : Nat) : ∀ token ∈ (placed line pieces).filterMap token?, token.kind ≠ .endOfInput := by
  induction tiles generalizing line with
  | nil => exact List.forall_mem_nil _
  | cons _ fits _ ih =>
    cases fits with
    | token matched => exact List.forall_mem_cons.mpr ⟨matched.ne_endOfInput, ih _⟩
    | _ => exact ih _

/-- An unfinished string is the last error. -/
theorem Tiles.once {source : List Char} {pieces : List Piece} (tiles : Tiles source pieces)
    (line : Nat) : ∀ error ∈ ((placed line pieces).filterMap fault?).dropLast,
      error.fault ≠ .unfinishedString := by
  induction tiles generalizing line with
  | nil => exact List.forall_mem_nil _
  | @cons kind text after pieces _ fits rest ih =>
    cases kind with
    | token | blank => exact ih _
    | fault fault => 
      have head : (placed line (⟨.fault fault, text⟩ :: pieces)).filterMap fault? =
        ⟨fault, line⟩ :: (placed (line + text.count '\n') pieces).filterMap fault? := rfl
      rw [head]
      rcases more : (placed (line + text.count '\n') pieces).filterMap fault? with _ | ⟨next, later⟩
      · exact List.forall_mem_nil _
      · rw [List.dropLast_cons_of_ne_nil (List.cons_ne_nil next later), ← more]
        refine List.forall_mem_cons.mpr ⟨?_, ih _⟩
        rintro rfl
        cases fits with
        | unfinishedString _ last =>
          subst last
          rw [rest.eq_nil] at more
          cases more

end Piece

/-- How a scan comes from the pieces of its source. -/
structure Scan.Tiled (result : Scan) (source : List Char) (pieces : List Piece) : Prop where
  tiles : Piece.Tiles source pieces
  covered : pieces.flatMap Piece.text = source
  tokens : result.tokens = (Piece.placed 1 pieces).filterMap Piece.token? ++
    [⟨.endOfInput, "", 1 + source.count '\n'⟩]
  errors : result.errors = (Piece.placed 1 pieces).filterMap Piece.fault?
  /-- No token and no other error comes after a string that is not finished. -/
  unfinished : ∀ before after text,
    pieces = before ++ ⟨.fault .unfinishedString, text⟩ :: after → after = []
  once : ∀ error ∈ result.errors.dropLast, error.fault ≠ .unfinishedString
  names : ∀ before after name text,
    pieces = before ++ ⟨.token (.identifier name), text⟩ :: after →
      (∀ kind, (name, kind) ∉ TokenKind.words) ∧
        ∀ c ∈ (after.flatMap Piece.text).head?, Piece.isWordCharacter c = false

theorem scan_tiled (source : String) :
    ∃ pieces, (scan source).Tiled source.toList pieces := by
  have tiles := Piece.cut_tiles source.toList
  refine ⟨Piece.cut source.toList, tiles, tiles.flatMap_text, ?_, ?_, ?_, ?_, ?_⟩
  · rw [scan, Piece.ofPieces_eq, tiles.flatMap_text]
  · rw [scan, Piece.ofPieces_eq]
  · intro before after text same
    obtain ⟨fits, rest⟩ := (same ▸ tiles).of_append
    cases fits with
    | unfinishedString _ last => exact (last ▸ rest).eq_nil
  · rw [scan, Piece.ofPieces_eq]
    exact tiles.once 1
  · intro before after name text same
    exact (same ▸ tiles).of_append.1.identifier

end GSharp
