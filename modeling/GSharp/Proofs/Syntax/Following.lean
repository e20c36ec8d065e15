import GSharp.Proofs.Syntax.Alike
import GSharp.Proofs.Syntax.Rules

/-!
Reading two token lists side by side, the second of which may go on where the first one ends. What
is read of the first is read of the second as well, and the errors are the same, until the first
list is used up.
-/
namespace GSharp

variable {R : Nat → Nat → Prop} {tail : List Token}

/-- The second list has the tokens of the first one, on lines that go with theirs, and the tail. -/
inductive Followed (R : Nat → Nat → Prop) (tail : List Token) : List Token → List Token → Prop where
  | ended : Followed R tail [] tail
  | cons {one two : Token} {rest rest' : List Token} (alike : one.Alike R two)
      (followed : Followed R tail rest rest') : Followed R tail (one :: rest) (two :: rest')

/-- There is nothing in a tail but the end of input. -/
def Ended (tail : List Token) : Prop := ∀ token ∈ tail.head?, token.kind = .endOfInput

theorem Ended.cases (ended : Ended tail) :
    tail = [] ∨ ∃ token more, tail = token :: more ∧ token.kind = .endOfInput := by
  cases tail with
  | nil => exact .inl rfl
  | cons token more => exact .inr ⟨token, more, rfl, ended token rfl⟩

/-- The error of the second list. Where the first list is at its end, the second one may be at the
end of input. -/
inductive Reports (R : Nat → Nat → Prop) (tail : List Token) :
    SyntaxError → SyntaxError → Prop where
  | alike {one two : SyntaxError} (alike : one.Alike R two) : Reports R tail one two
  | exhausted (none : tail = []) : Reports R tail Step.exhausted Step.exhausted
  | noExpression {token : Token} {more : List Token} (last : tail = token :: more)
      (kind : token.kind = .endOfInput) :
      Reports R tail Step.exhausted ⟨.noExpression token.description, token.line⟩
  | expected {token : Token} {more : List Token} (last : tail = token :: more)
      (kind : token.kind = .endOfInput) (expectation : Expectation) :
      Reports R tail Step.exhausted ⟨.expected expectation token.description, token.line⟩

namespace Step

variable {α β γ δ : Type} {source source' inner inner' : List Token} {V : α → β → Prop}
  {W : γ → δ → Prop}

def rest : Step α source → List Token
  | ok _ rest _ | fail _ rest _ => rest

theorem rest_of_nil (step : Step α []) : step.rest = [] := by
  cases step with
  | ok _ _ shorter => exact absurd shorter (Nat.not_lt_zero _)
  | fail _ _ bounded => exact bounded.resolve_right (Nat.not_lt_zero _)

@[simp]
theorem rest_within (step : Step α inner) (part : inner.length < source.length) :
    (step.within part).rest = step.rest := by
  cases step <;> rfl

@[simp]
theorem rest_map (f : α → γ) (step : Step α source) : (step.map f).rest = step.rest := by
  cases step <;> rfl

/-- After the last token nothing can be read, and nothing is left. -/
theorem rest_bind_nil {step : Step α []} {part : ([] : List Token).length < source.length}
    {next : α → (rest : List Token) → rest.length < source.length → Step γ source} :
    ((step.within part).bind next).rest = [] := by
  cases step with
  | ok _ _ shorter => exact absurd shorter (Nat.not_lt_zero _)
  | fail _ _ bounded => exact bounded.resolve_right (Nat.not_lt_zero _)

/-- The second step does what the first one does. If the first one used up its tokens and there is
more for the second, it may do anything; if there is no more than the end, both fail there. -/
inductive Follows (R : Nat → Nat → Prop) (tail : List Token) (V : α → β → Prop) :
    Step α source → Step β source' → Prop where
  | ok {value : α} {value' : β} {rest rest' : List Token} {shorter : rest.length < source.length}
      {shorter' : rest'.length < source'.length} (related : V value value')
      (followed : Followed R tail rest rest') :
      Follows R tail V (.ok value rest shorter) (.ok value' rest' shorter')
  | fail {error error' : SyntaxError} {rest rest' : List Token}
      {bounded : rest = source ∨ rest.length < source.length}
      {bounded' : rest' = source' ∨ rest'.length < source'.length}
      (alike : error.Alike R error') (followed : Followed R tail rest rest') :
      Follows R tail V (.fail error rest bounded) (.fail error' rest' bounded')
  | ended {error' : SyntaxError} {bounded : [] = source ∨ ([] : List Token).length < source.length}
      {bounded' : tail = source' ∨ tail.length < source'.length}
      (reported : Reports R tail exhausted error') :
      Follows R tail V (.fail exhausted [] bounded) (.fail error' tail bounded')
  | spent {step : Step α source} {step' : Step β source'} (used : step.rest = [])
      (more : ¬Ended tail) : Follows R tail V step step'

namespace Follows

variable {step : Step α source} {step' : Step β source'}

/-- Where the first list is used up, only a tail that is no more than the end matters. -/
theorem of_used (used : step.rest = [])
    (follows : Ended tail → Follows R tail V step step') : Follows R tail V step step' := by
  by_cases ended : Ended tail
  · exact follows ended
  · exact .spent used ended

theorem mono {V' : α → β → Prop} (follows : Follows R tail V step step')
    (weaker : ∀ value value', V value value' → V' value value') : Follows R tail V' step step' := by
  cases follows with
  | ok related followed => exact .ok (weaker _ _ related) followed
  | fail alike followed => exact .fail alike followed
  | ended reported => exact .ended reported
  | spent used more => exact .spent used more

theorem within {step : Step α inner} {step' : Step β inner'} {part : inner.length < source.length}
    {part' : inner'.length < source'.length} (follows : Follows R tail V step step') :
    Follows R tail V (step.within part) (step'.within part') := by
  cases follows with
  | ok related followed => exact .ok related followed
  | fail alike followed => exact .fail alike followed
  | ended reported => exact .ended reported
  | spent used more => exact .spent (by simpa using used) more

theorem map {f : α → γ} {g : β → δ} (follows : Follows R tail V step step')
    (related : ∀ value value', V value value' → W (f value) (g value')) :
    Follows R tail W (step.map f) (step'.map g) := by
  cases follows with
  | ok alike followed => exact .ok (related _ _ alike) followed
  | fail alike followed => exact .fail alike followed
  | ended reported => exact .ended reported
  | spent used more => exact .spent (by simpa using used) more

theorem bind {next : α → (rest : List Token) → rest.length < source.length → Step γ source}
    {next' : β → (rest : List Token) → rest.length < source'.length → Step δ source'}
    (follows : Follows R tail V step step')
    (used : ∀ value shorter, (next value [] shorter).rest = [])
    (goes : ∀ value value' rest rest' shorter shorter', V value value' →
      Followed R tail rest rest' →
        Follows R tail W (next value rest shorter) (next' value' rest' shorter')) :
    Follows R tail W (step.bind next) (step'.bind next') := by
  cases follows with
  | ok related followed => exact goes _ _ _ _ _ _ related followed
  | fail alike followed => exact .fail alike followed
  | ended reported => exact .ended reported
  | spent empty more =>
    refine .spent ?_ more
    cases step with
    | ok value rest shorter =>
      obtain rfl : rest = [] := empty
      exact used value shorter
    | fail => exact empty

theorem andThen {step : Step α inner} {step' : Step β inner'}
    {part : inner.length < source.length} {part' : inner'.length < source'.length}
    {next : α → (rest : List Token) → rest.length < inner.length → Step γ source}
    {next' : β → (rest : List Token) → rest.length < inner'.length → Step δ source'}
    (follows : Follows R tail V step step')
    (used : ∀ value shorter, (next value [] shorter).rest = [])
    (goes : ∀ value value' rest rest' shorter shorter', V value value' →
      Followed R tail rest rest' →
        Follows R tail W (next value rest shorter) (next' value' rest' shorter')) :
    Follows R tail W (step.andThen part next) (step'.andThen part' next') := by
  cases follows with
  | ok related followed => exact goes _ _ _ _ _ _ related followed
  | fail alike followed => exact .fail alike followed
  | ended reported => exact .ended reported
  | spent empty more =>
    refine .spent ?_ more
    cases step with
    | ok value rest shorter =>
      obtain rfl : rest = [] := empty
      exact used value shorter
    | fail => exact empty

end Follows

variable {tokens tokens' : List Token}

theorem refuse_follows (expectation : Expectation) (followed : Followed R tail tokens tokens') :
    Follows R tail V (refuse expectation tokens) (refuse expectation tokens') := by
  cases followed with
  | ended =>
    refine .of_used rfl fun ended => ?_
    rcases ended.cases with rfl | ⟨token, more, rfl, kind⟩
    · exact .ended (.exhausted rfl)
    · exact .ended (.expected rfl kind expectation)
  | cons alike followed =>
    exact .fail ⟨by rw [alike.description], alike.line⟩ (.cons alike followed)

theorem take_follows {kind : TokenKind} (real : kind ≠ .endOfInput) (expectation : Expectation)
    (followed : Followed R tail tokens tokens') :
    Follows R tail (Token.Alike R) (take kind expectation tokens)
      (take kind expectation tokens') := by
  cases followed with
  | ended =>
    refine .of_used (rest_of_nil _) fun ended => ?_
    have refused := refuse_follows (V := Token.Alike R) expectation
      (.ended : Followed R tail [] tail)
    rcases ended.cases with rfl | ⟨token, more, rfl, last⟩
    · exact refused
    · simpa only [take, last, if_neg real.symm] using refused
  | cons alike followed =>
    simp only [take, alike.kind]
    split
    · exact .ok alike followed
    · exact refuse_follows expectation (.cons alike followed)

theorem takeSign_follows (sign : Sign) (followed : Followed R tail tokens tokens') :
    Follows R tail (Token.Alike R) (takeSign sign tokens) (takeSign sign tokens') := by
  unfold takeSign
  exact take_follows TokenKind.noConfusion _ followed

theorem takeWord_follows (word : Keyword) (followed : Followed R tail tokens tokens') :
    Follows R tail (Token.Alike R) (takeWord word tokens) (takeWord word tokens') := by
  unfold takeWord
  exact take_follows TokenKind.noConfusion _ followed

theorem takeIdentifier_follows (followed : Followed R tail tokens tokens') :
    Follows R tail Eq (takeIdentifier tokens) (takeIdentifier tokens') := by
  cases followed with
  | ended =>
    refine .of_used (rest_of_nil _) fun ended => ?_
    have refused := refuse_follows (V := @Eq String) .identifier (.ended : Followed R tail [] tail)
    rcases ended.cases with rfl | ⟨token, more, rfl, last⟩
    · exact refused
    · simpa only [takeIdentifier, last] using refused
  | cons alike followed =>
    simp only [takeIdentifier, alike.kind]
    split
    · exact .ok rfl followed
    · exact refuse_follows .identifier (.cons alike followed)

theorem takeString_follows (expectation : Expectation) (followed : Followed R tail tokens tokens') :
    Follows R tail Eq (takeString expectation tokens) (takeString expectation tokens') := by
  cases followed with
  | ended =>
    refine .of_used (rest_of_nil _) fun ended => ?_
    have refused := refuse_follows (V := @Eq String) expectation (.ended : Followed R tail [] tail)
    rcases ended.cases with rfl | ⟨token, more, rfl, last⟩
    · exact refused
    · simpa only [takeString, last] using refused
  | cons alike followed =>
    simp only [takeString, alike.kind]
    split
    · exact .ok rfl followed
    · exact refuse_follows expectation (.cons alike followed)

end Step

namespace Parse

open Step

variable {tokens tokens' : List Token} {line line' : Nat}

theorem names_refused {token : Token} (other : ∀ name, token.kind ≠ .identifier name)
    (rest : List Token) : names (token :: rest) = refuse .identifier (token :: rest) := by
  have refused (rest : List Token) :
      takeIdentifier (token :: rest) = refuse .identifier (token :: rest) := by
    simp only [takeIdentifier]
  cases rest with
  | nil =>
    rw [names_single, refused]
    rfl
  | cons comma others =>
    rw [names_cons, refused]
    rfl

theorem names_follows {tokens tokens' : List Token} (followed : Followed R tail tokens tokens') :
    Follows R tail Eq (names tokens) (names tokens') := by
  have refused {left right : List Token} (followed : Followed R tail left right) :=
    refuse_follows (V := @Eq (List String)) .identifier followed
  cases followed with
  | ended =>
    refine .of_used (rest_of_nil _) fun ended => ?_
    rcases ended.cases with rfl | ⟨token, more, rfl, last⟩
    · exact refused .ended
    · rw [names_refused (by simp [last])]
      exact refused .ended
  | @cons token token' rest rest' alike followed =>
    by_cases named : ∃ name, token.kind = .identifier name
    · obtain ⟨name, kind⟩ := named
      have kind' := alike.kind.trans kind
      cases followed with
      | ended =>
        rw [names_single]
        simp only [takeIdentifier, kind, Step.bind]
        refine .of_used rfl fun ended => ?_
        rcases ended.cases with rfl | ⟨last, more, rfl, last_kind⟩
        · simp only [names_single, takeIdentifier, kind', Step.bind]
          exact .ok rfl .ended
        · simp only [names_cons, takeIdentifier, kind', last_kind, Step.bind]
          exact .ok rfl .ended
      | @cons comma comma' others others' commaAlike followed =>
        simp only [names_cons, takeIdentifier, kind, kind', Step.bind, commaAlike.kind]
        split
        · refine ((names_follows followed).map ?_).within
          rintro names _ rfl
          rfl
        · exact .ok rfl (.cons commaAlike followed)
    · rw [not_exists] at named
      rw [names_refused named, names_refused (by simpa [alike.kind] using named)]
      exact refused (.cons alike followed)
termination_by tokens.length

theorem color_follows (lines : R line line') (followed : Followed R tail tokens tokens') :
    Follows R tail (Statement.Alike R) (color line tokens) (color line' tokens') := by
  cases followed with
  | ended =>
    refine .of_used (rest_of_nil _) fun ended => ?_
    have refused :=
      refuse_follows (V := Statement.Alike R) .color (.ended : Followed R tail [] tail)
    rcases ended.cases with rfl | ⟨token, more, rfl, last⟩
    · exact refused
    · simpa only [color, last] using refused
  | @cons token token' rest rest' alike followed =>
    simp only [color, alike.kind]
    split
    case h_1 | h_2 =>
      split
      · exact .ok (.color lines) followed
      · exact .fail ⟨rfl, lines⟩ followed
    case h_3 => exact refuse_follows .color (.cons alike followed)

theorem randomDeclaration_follows (kind : FigureKind) (lines : R line line')
    (followed : Followed R tail tokens tokens') :
    Follows R tail (Statement.Alike R) (randomDeclaration kind line tokens)
      (randomDeclaration kind line' tokens') := by
  cases followed with
  | ended =>
    refine .of_used (rest_of_nil _) fun ended => ?_
    have refused := refuse_follows (V := Statement.Alike R) .identifier
      (.ended : Followed R tail [] tail)
    rcases ended.cases with rfl | ⟨token, more, rfl, last⟩
    · exact refused
    · simpa [randomDeclaration, takeIdentifier, last, refuse, Step.map] using refused
  | cons alike followed =>
    simp only [randomDeclaration, alike.kind]
    split
    · refine ((takeIdentifier_follows followed).map ?_).within
      rintro name _ rfl
      exact .random lines
    · refine (takeIdentifier_follows (.cons alike followed)).map ?_
      rintro name _ rfl
      exact .random lines

/-- Ways to build an instruction that keep what is alike so. -/
theorem labelled_follows {build build' : Expr → Option String → Statement}
    (built : ∀ value value' label, value.Alike R value' →
      (build value label).Alike R (build' value' label))
    {value value' : Expr} (alike : value.Alike R value') {source source' : List Token}
    (followed : Followed R tail tokens tokens') (shorter : tokens.length < source.length)
    (shorter' : tokens'.length < source'.length) :
    Follows R tail (Statement.Alike R) (labelled build value tokens shorter)
      (labelled build' value' tokens' shorter') := by
  cases followed with
  | ended =>
    refine .of_used rfl fun ended => ?_
    rcases ended.cases with rfl | ⟨token, more, rfl, last⟩
    · exact .ok (built _ _ _ alike) .ended
    · simp only [labelled, last]
      exact .ok (built _ _ _ alike) .ended
  | cons tokensAlike followed =>
    simp only [labelled, tokensAlike.kind]
    split
    · exact .ok (built _ _ _ alike) followed
    · exact .ok (built _ _ _ alike) (.cons tokensAlike followed)

theorem operator?_end (level : Level) : level.operator? .endOfInput = none := by
  cases level <;> rfl

/-- The parts of the parser that are entered again further on, each of them following. -/
structure Readings (R : Nat → Nat → Prop) (tail tokens tokens' : List Token) : Prop where
  unary : Follows R tail (Expr.Alike R) (unary tokens) (unary tokens')
  power : Follows R tail (Expr.Alike R) (power tokens) (power tokens')
  operand (level : Level) : Follows R tail (Expr.Alike R) (operand level tokens)
    (operand level tokens')
  chain (level : Level) {left left' : Expr} (alike : left.Alike R left')
    {source source' : List Token} (fewer : tokens.length < source.length)
    (fewer' : tokens'.length < source'.length) :
    Follows R tail (Expr.Alike R) (chain level left tokens fewer) (chain level left' tokens' fewer')
  expression : Follows R tail (Expr.Alike R) (expression tokens) (expression tokens')
  someItems (closing : Sign) : Follows R tail (List.Forall₂ (Expr.Alike R))
    (someItems closing tokens) (someItems closing tokens')
  instruction (importsAllowed : Bool) : Follows R tail (Statement.Corresponds R importsAllowed)
    (instruction importsAllowed tokens) (instruction importsAllowed tokens')
  instructions : Follows R tail (List.Forall₂ (Statement.Alike R)) (instructions tokens)
    (instructions tokens')

/-- All of them follow where the first list has fewer tokens than the bound. -/
def Shorter (R : Nat → Nat → Prop) (tail : List Token) (bound : Nat) : Prop :=
  ∀ tokens tokens', Followed R tail tokens tokens' → tokens.length < bound →
    Readings R tail tokens tokens'

section Inner

variable {bound : Nat} (shorter : Shorter R tail bound)

include shorter

theorem group_follows (lines : R line line') (followed : Followed R tail tokens tokens')
    (fits : tokens.length < bound) :
    Follows R tail (Expr.Alike R) (group line tokens) (group line' tokens') := by
  rw [group, group]
  refine (shorter _ _ followed fits).expression.bind ?_ ?_
  · intro inner _
    simp [rest_of_nil]
  · intro inner inner' rest rest' _ _ alike followed
    exact (takeSign_follows _ followed).within.map fun _ _ _ => .group alike lines

theorem items_follows (closing : Sign) (followed : Followed R tail tokens tokens')
    (fits : tokens.length < bound) :
    Follows R tail (List.Forall₂ (Expr.Alike R)) (items closing tokens)
      (items closing tokens') := by
  have some := (shorter _ _ followed fits).someItems closing
  cases followed with
  | ended =>
    refine .of_used (rest_of_nil _) fun ended => ?_
    rcases ended.cases with rfl | ⟨token, more, rfl, last⟩
    · simpa only [items] using some
    · simpa [items, last] using some
  | cons alike followed =>
    rw [items, items, alike.kind]
    split
    · exact .ok .nil followed
    · exact some

theorem constantOrCall_follows (name : String) (lines : R line line')
    {source source' : List Token} (followed : Followed R tail tokens tokens')
    (fits : tokens.length < bound) (fewer : tokens.length < source.length)
    (fewer' : tokens'.length < source'.length) :
    Follows R tail (Expr.Alike R) (constantOrCall name line tokens fewer)
      (constantOrCall name line' tokens' fewer') := by
  cases followed with
  | ended =>
    rw [constantOrCall]
    refine .of_used rfl fun ended => ?_
    rcases ended.cases with rfl | ⟨token, more, rfl, last⟩
    · rw [constantOrCall]
      exact .ok (.constant lines) .ended
    · simp only [constantOrCall, last, reduceCtorEq, if_false]
      exact .ok (.constant lines) .ended
  | cons alike followed =>
    rw [constantOrCall, constantOrCall, alike.kind]
    split
    · refine (items_follows shorter .rightParen followed (Nat.lt_of_succ_lt fits)).within.map ?_
      exact fun _ _ alike => .call alike lines
    · exact .ok (.constant lines) (.cons alike followed)

theorem closedRange_follows (start : Float) (lines : R line line')
    (followed : Followed R tail tokens tokens') (fits : tokens.length < bound) :
    Follows R tail (Expr.Alike R) (closedRange start line tokens)
      (closedRange start line' tokens') := by
  rw [closedRange, closedRange]
  refine (shorter _ _ followed fits).expression.bind ?_ ?_
  · intro last _
    split
    · simp [rest_of_nil]
    · rfl
  · intro last last' rest rest' _ _ alike followed
    have ends := bound_alike alike
    revert ends
    cases Parse.bound last <;> cases Parse.bound last' <;> intro ends <;> cases ends
    case error alike => exact .fail alike followed
    case ok same =>
      subst same
      exact (takeSign_follows _ followed).within.map fun _ _ _ => .range lines

theorem range_follows (start : Float) (lines : R line line')
    (followed : Followed R tail tokens tokens') (fits : tokens.length < bound) :
    Follows R tail (Expr.Alike R) (range start line tokens) (range start line' tokens') := by
  have closed := closedRange_follows shorter start lines followed fits
  cases followed with
  | ended =>
    refine .of_used (rest_of_nil _) fun ended => ?_
    rcases ended.cases with rfl | ⟨token, more, rfl, last⟩
    · simpa only [range] using closed
    · simpa [range, last] using closed
  | cons alike followed =>
    rw [range, range, alike.kind]
    split
    · exact .ok (.infinite lines) followed
    · exact closed

theorem someSequence_follows (lines : R line line') (followed : Followed R tail tokens tokens')
    (fits : tokens.length < bound) :
    Follows R tail (Expr.Alike R) (someSequence line tokens) (someSequence line' tokens') := by
  rw [someSequence, someSequence]
  refine (shorter _ _ followed fits).expression.bind ?_ ?_
  · intro first _
    simp [rest_of_nil]
  · intro first first' rest rest' fewer _ alike followed
    have refused {left right : List Token} (followed : Followed R tail left right) :=
      refuse_follows (V := Expr.Alike R) (.commaOr .rightBrace) followed
    cases followed with
    | ended => 
      refine .of_used (by simp [rest_of_nil]) fun ended => ?_
      rcases ended.cases with rfl | ⟨token, more, rfl, last⟩
      · exact (refused .ended).within
      · simp only [last, reduceCtorEq, if_false]
        exact (refused .ended).within
    | @cons token token' others others' tokenAlike followed =>
      have fits : others.length < bound := by
        simp only [List.length_cons] at fewer
        omega
      simp only [tokenAlike.kind]
      split
      · have starts := bound_alike alike
        revert starts
        cases Parse.bound first <;> cases Parse.bound first' <;> intro starts <;> cases starts
        case error alike => exact .fail alike followed
        case ok start _ same =>
          subst same
          exact (range_follows shorter start lines followed fits).within
      split
      · refine (items_follows shorter .rightBrace followed fits).within.map ?_
        exact fun _ _ others => .sequence (.cons alike others) lines
      split
      · exact .ok (.sequence (.cons alike .nil) lines) followed
      · exact (refused (.cons tokenAlike followed)).within

theorem sequence_follows (lines : R line line') (followed : Followed R tail tokens tokens')
    (fits : tokens.length < bound) :
    Follows R tail (Expr.Alike R) (sequence line tokens) (sequence line' tokens') := by
  have some := someSequence_follows shorter lines followed fits
  cases followed with
  | ended =>
    refine .of_used (rest_of_nil _) fun ended => ?_
    rcases ended.cases with rfl | ⟨token, more, rfl, last⟩
    · simpa only [sequence] using some
    · simpa [sequence, last] using some
  | cons alike followed =>
    rw [sequence, sequence, alike.kind]
    split
    · exact .ok (.sequence .nil lines) followed
    · exact some

theorem conditional_follows (lines : R line line') (followed : Followed R tail tokens tokens')
    (fits : tokens.length < bound) :
    Follows R tail (Expr.Alike R) (conditional line tokens) (conditional line' tokens') := by
  rw [conditional, conditional]
  refine (shorter _ _ followed fits).expression.bind (fun _ _ => rest_bind_nil) ?_
  intro condition condition' rest rest' fewer _ conditionAlike followed
  refine (takeWord_follows .thenWord followed).within.bind (fun _ _ => rest_bind_nil) ?_
  intro _ _ rest rest' fewer _ _ followed
  refine (shorter _ _ followed (fewer.trans fits)).expression.within.bind
    (fun _ _ => rest_bind_nil) ?_
  intro positive positive' rest rest' fewer _ positiveAlike followed
  refine (takeWord_follows .elseWord followed).within.bind ?_ ?_
  · intro _ _
    simp [rest_of_nil]
  · intro _ _ rest rest' fewer _ _ followed
    refine (shorter _ _ followed (fewer.trans fits)).expression.within.map ?_
    exact fun _ _ negativeAlike => .conditional conditionAlike positiveAlike negativeAlike lines

theorem block_follows (lines : R line line') (followed : Followed R tail tokens tokens')
    (fits : tokens.length < bound) :
    Follows R tail (Expr.Alike R) (block line tokens) (block line' tokens') := by
  rw [block, block]
  refine (shorter _ _ followed fits).instructions.bind ?_ ?_
  · intro _ _
    simp [rest_of_nil]
  · intro instructions instructions' rest rest' fewer _ instructionsAlike followed
    refine (shorter _ _ followed (fewer.trans fits)).expression.within.map ?_
    exact fun _ _ bodyAlike => .block instructionsAlike bodyAlike lines

theorem function_follows (name : String) {arguments arguments' : List Expr}
    (alike : arguments.Forall₂ (Expr.Alike R) arguments') (lines : R line line')
    (followed : Followed R tail tokens tokens') (fits : tokens.length < bound) :
    Follows R tail (Statement.Alike R) (function name arguments line tokens)
      (function name arguments' line' tokens') := by
  rw [function, function, parameters_alike name [] alike]
  cases parameters name [] arguments with
  | error fault => exact .fail ⟨rfl, lines⟩ followed
  | ok parameters =>
    refine (shorter _ _ followed fits).expression.bind ?_ ?_
    · intro body _
      split <;> rfl
    · intro body body' rest rest' _ _ bodyAlike followed
      have declared := bodyAlike.declaration?
      revert declared
      cases body.declaration? <;> cases body'.declaration? <;> intro declared <;> cases declared
      case none => exact .ok (.function bodyAlike lines) followed
      case some found => 
        obtain ⟨same, lines⟩ := found
        exact .fail ⟨by rw [same], lines⟩ followed

/-- The instructions that draw or print. -/
theorem shown_follows {build build' : Expr → Option String → Statement}
    (built : ∀ value value' label, value.Alike R value' →
      (build value label).Alike R (build' value' label))
    (followed : Followed R tail tokens tokens') (fits : tokens.length < bound)
    {source source' : List Token} (part : tokens.length < source.length)
    (part' : tokens'.length < source'.length) :
    Follows R tail (Statement.Alike R)
      (((expression tokens).within part).bind fun value others fewer =>
        labelled build value others fewer)
      (((expression tokens').within part').bind fun value others fewer =>
        labelled build' value others fewer) := by
  refine (shorter _ _ followed fits).expression.within.bind (fun _ _ => rfl) ?_
  intro value value' others others' fewer fewer' alike followed
  exact labelled_follows built alike followed fewer fewer'

end Inner

section Outer

variable (shorter : Shorter R tail tokens.length) (followed : Followed R tail tokens tokens')

include shorter followed

theorem primary_follows : Follows R tail (Expr.Alike R) (primary tokens) (primary tokens') := by
  cases followed with
  | ended =>
    refine .of_used (rest_of_nil _) fun ended => ?_
    rcases ended.cases with rfl | ⟨token, more, rfl, last⟩
    · rw [primary]
      exact .ended (.exhausted rfl)
    · simp only [primary, last]
      exact .ended (.noExpression rfl last)
  | @cons token token' rest rest' alike followed =>
    have fits : rest.length < (token :: rest).length := rest_shorter
    simp only [primary, alike.kind]
    split
    · exact .ok (.literal alike.line) followed
    · exact .ok (.literal alike.line) followed
    · exact .ok (.literal alike.line) followed
    · exact .ok (.undefined alike.line) followed
    · exact (group_follows shorter alike.line followed fits).within
    · exact (sequence_follows shorter alike.line followed fits).within
    · exact (conditional_follows shorter alike.line followed fits).within
    · exact (block_follows shorter alike.line followed fits).within
    · exact constantOrCall_follows shorter _ alike.line followed fits _ _
    · refine (takeSign_follows _ followed).within.bind ?_ ?_
      · intro _ _
        simp [rest_of_nil]
      · intro _ _ others others' fewer _ _ followed
        refine (items_follows shorter .rightParen followed fewer).within.map ?_
        exact fun _ _ arguments => .figure arguments alike.line
    · exact .fail ⟨by rw [alike.description], alike.line⟩ (.cons alike followed)

theorem unary_follows : Follows R tail (Expr.Alike R) (unary tokens) (unary tokens') := by
  have primary := primary_follows shorter followed
  cases followed with
  | ended =>
    refine .of_used (rest_of_nil _) fun ended => ?_
    rcases ended.cases with rfl | ⟨token, more, rfl, last⟩
    · simpa only [unary] using primary
    · simpa only [unary, last] using primary
  | @cons token token' rest rest' alike followed =>
    have operand := (shorter _ _ followed rest_shorter).unary
    rw [unary, unary, alike.kind]
    split
    · exact operand.within.map fun _ _ operand => .unary operand alike.line
    · exact operand.within.map fun _ _ operand => .unary operand alike.line
    · exact primary

theorem power_follows : Follows R tail (Expr.Alike R) (power tokens) (power tokens') := by
  rw [power, power]
  refine (unary_follows shorter followed).bind (fun _ _ => rfl) ?_
  intro base base' rest rest' fewer _ baseAlike followed
  cases followed with
  | ended =>
    refine .of_used rfl fun ended => ?_
    rcases ended.cases with rfl | ⟨token, more, rfl, last⟩
    · exact .ok baseAlike .ended
    · simp only [last, reduceCtorEq, if_false]
      exact .ok baseAlike .ended
  | cons alike followed =>
    simp only [alike.kind]
    split
    · refine (shorter _ _ followed (Nat.lt_of_succ_lt fewer)).power.within.map ?_
      exact fun _ _ exponent => .binary baseAlike exponent alike.line
    · exact .ok baseAlike (.cons alike followed)

theorem chain_follows (level : Level) {left left' : Expr} (alike : left.Alike R left')
    {source source' : List Token} (fewer : tokens.length < source.length)
    (fewer' : tokens'.length < source'.length) :
    Follows R tail (Expr.Alike R) (chain level left tokens fewer)
      (chain level left' tokens' fewer') := by
  cases followed with
  | ended =>
    rw [chain]
    refine .of_used rfl fun ended => ?_
    rcases ended.cases with rfl | ⟨token, more, rfl, last⟩
    · rw [chain]
      exact .ok alike .ended
    · rw [chain, last, operator?_end]
      exact .ok alike .ended
  | @cons token token' rest rest' tokenAlike followed =>
    rw [chain, chain, tokenAlike.kind]
    split
    next => exact .ok alike (.cons tokenAlike followed)
    next op _ =>
      refine ((shorter _ _ followed rest_shorter).operand level).andThen ?_ ?_
      · intro right _
        rw [chain]
        rfl
      · intro right right' others others' less less' rightAlike followed
        have joined : (Expr.binary op left right token.line).Alike R
            (.binary op left' right' token'.line) := .binary alike rightAlike tokenAlike.line
        exact (shorter _ _ followed (Nat.lt_succ_of_lt less)).chain level joined _ _

omit followed in
theorem leftAssociative_follows {level : Level}
    (operands : Follows R tail (Expr.Alike R) (operand level tokens) (operand level tokens')) :
    Follows R tail (Expr.Alike R) (leftAssociative level tokens)
      (leftAssociative level tokens') := by
  rw [leftAssociative, leftAssociative]
  refine operands.bind ?_ ?_
  · intro value _
    rw [chain]
    rfl
  · intro value value' rest rest' fewer fewer' alike followed
    exact (shorter _ _ followed fewer).chain level alike fewer fewer'

/-- The tightest level first, and then each level from the next tighter one. -/
theorem operand_follows (level : Level) :
    Follows R tail (Expr.Alike R) (operand level tokens) (operand level tokens') := by
  rw [operand, operand]
  split
  next next tighter =>
    have closer := Level.depth_tighter tighter
    exact leftAssociative_follows shorter (operand_follows next)
  next => exact power_follows shorter followed
termination_by level.depth
decreasing_by assumption

theorem expression_follows :
    Follows R tail (Expr.Alike R) (expression tokens) (expression tokens') := by
  rw [expression, expression]
  exact leftAssociative_follows shorter (operand_follows shorter followed .logical)

theorem someItems_follows (closing : Sign) :
    Follows R tail (List.Forall₂ (Expr.Alike R)) (someItems closing tokens)
      (someItems closing tokens') := by
  rw [someItems, someItems]
  have refused {left right : List Token} (followed : Followed R tail left right) :=
    refuse_follows (V := List.Forall₂ (Expr.Alike R)) (.commaOr closing) followed
  refine (expression_follows shorter followed).bind ?_ ?_
  · intro first _
    simp [rest_of_nil]
  · intro first first' rest rest' fewer _ alike followed
    cases followed with
    | ended =>
      refine .of_used (by simp [rest_of_nil]) fun ended => ?_
      rcases ended.cases with rfl | ⟨token, more, rfl, last⟩
      · exact (refused .ended).within
      · simp only [last, reduceCtorEq, if_false]
        exact (refused .ended).within
    | cons tokenAlike followed =>
      simp only [tokenAlike.kind]
      split
      · refine ((shorter _ _ followed (Nat.lt_of_succ_lt fewer)).someItems closing).within.map ?_
        exact fun _ _ others => .cons alike others
      split
      · exact .ok (.cons alike .nil) followed
      · exact (refused (.cons tokenAlike followed)).within

theorem valueOrFunction_follows (lines : R line line') :
    Follows R tail (Statement.Alike R) (valueOrFunction line tokens)
      (valueOrFunction line' tokens') := by
  rw [valueOrFunction, valueOrFunction]
  refine (expression_follows shorter followed).bind (fun _ _ => rfl) ?_
  intro value value' rest rest' fewer _ alike followed
  have given : (Statement.expression value line).Alike R (.expression value' line') :=
    .expression alike lines
  cases followed with
  | ended =>
    refine .of_used rfl fun ended => ?_
    rcases ended.cases with rfl | ⟨token, more, rfl, last⟩
    · exact .ok given .ended
    · simp only [last, reduceCtorEq, if_false]
      exact .ok given .ended
  | cons tokenAlike followed =>
    simp only [tokenAlike.kind]
    split
    · cases alike with
      | call arguments callLines =>
        exact (function_follows shorter _ arguments callLines followed
          (Nat.lt_of_succ_lt fewer)).within
      | _ => exact .ok given (.cons tokenAlike followed)
    · exact .ok given (.cons tokenAlike followed)

omit shorter in
/-- What comes second is the same, unless the first list ends before it and there is more. -/
theorem second_iff {kind : TokenKind} (real : kind ≠ .endOfInput)
    (seen : tokens ≠ [] ∨ Ended tail) :
    tokens'.head?.map Token.kind = some kind ↔ tokens.head?.map Token.kind = some kind := by
  cases followed with
  | ended =>
    rcases (seen.resolve_left (· rfl)).cases with rfl | ⟨token, more, rfl, last⟩
    · rfl
    · simp [last, real.symm]
  | cons alike _ => simp [alike.kind]

omit shorter followed in
theorem expression_nil : expression [] = .fail exhausted [] (.inl rfl) := by
  simp [expression, leftAssociative, operand, Level.tighter?, power, unary, primary, Step.bind]

omit shorter followed in
theorem valueOrFunction_name {token : Token} {name : String} (kind : token.kind = .identifier name) :
    (valueOrFunction line [token]).rest = [] := by
  simp [valueOrFunction, expression, leftAssociative, operand, Level.tighter?, power, unary, primary,
    constantOrCall, chain, kind, Step.bind, Step.rest]

omit shorter followed in
theorem instructions_nil : instructions [] = .fail exhausted [] (.inl rfl) := by
  rw [instructions, instruction]
  rfl

/-- Where no token is left, neither an expression nor a function can begin. -/
theorem valueOrFunction_end (none : tokens = []) (ended : Ended tail) :
    Follows R tail (Statement.Alike R) (.fail exhausted [] (.inl rfl) : Step Statement [])
      (valueOrFunction line tokens') := by
  have begins := expression_follows shorter followed
  subst none
  rw [expression_nil] at begins
  rw [valueOrFunction]
  generalize expression tokens' = step at begins
  cases begins with
  | fail alike followed => exact .fail alike followed
  | ended reported => exact .ended reported
  | spent _ more => exact absurd ended more

theorem instruction_follows (importsAllowed : Bool) :
    Follows R tail (Statement.Corresponds R importsAllowed) (instruction importsAllowed tokens)
      (instruction importsAllowed tokens') := by
  have plain {step : Step Statement tokens} {step' : Step Statement tokens'}
      (follows : Follows R tail (Statement.Alike R) step step') :
      Follows R tail (Statement.Corresponds R importsAllowed) step step' :=
    follows.mono fun _ _ alike => .alike alike
  have whole {line line' : Nat} (lines : R line line') :=
    plain (valueOrFunction_follows shorter followed lines)
  cases followed with
  | ended =>
    refine .of_used (rest_of_nil _) fun ended => ?_
    rw [instruction]
    rcases ended.cases with rfl | ⟨token, more, rfl, last⟩
    · rw [instruction]
      exact .ended (.exhausted rfl)
    · simp only [instruction, last]
      exact plain (valueOrFunction_end shorter .ended rfl ended)
  | @cons token token' rest rest' alike followed =>
    have second (sign : Sign) (seen : rest ≠ [] ∨ Ended tail) :=
      second_iff followed (by simp : TokenKind.sign sign ≠ .endOfInput) seen
    have fits : rest.length < (token :: rest).length := rest_shorter
    simp only [instruction, alike.kind]
    split
    next kind _ =>
      by_cases seen : rest ≠ [] ∨ Ended tail
      · simp only [second .leftParen seen]
        split
        · exact whole alike.line
        · exact plain (randomDeclaration_follows kind alike.line followed).within
      · rw [not_or, not_not] at seen
        obtain ⟨rfl, more⟩ := seen
        exact .spent (by simp [rest_of_nil]) more
    next =>
      split
      next allowed =>
        refine (takeString_follows .filePath followed).within.map ?_
        rintro path _ rfl
        exact .importFile alike.line allowed
      next => exact .fail ⟨rfl, alike.line⟩ (.cons alike followed)
    next =>
      refine plain (shown_follows shorter ?_ followed fits _ _)
      exact fun _ _ _ value => .draw value alike.line
    next =>
      refine plain (shown_follows shorter ?_ followed fits _ _)
      exact fun _ _ _ value => .print value alike.line
    next => exact plain (color_follows alike.line followed).within
    next => exact plain (.ok (.restore alike.line) followed)
    next name kind =>
      by_cases seen : rest ≠ [] ∨ Ended tail
      · simp only [second .comma seen, second .equals seen]
        split
        · refine plain ((names_follows (.cons alike followed)).bind (fun _ _ => rest_bind_nil) ?_)
          rintro names _ others others' fewer _ rfl followed
          refine (takeSign_follows .equals followed).within.bind ?_ ?_
          · intro _ _
            simp [rest_of_nil]
          · intro _ _ others others' fewer _ _ followed
            refine (shorter _ _ followed fewer).expression.within.map ?_
            exact fun _ _ value => .assignMany value alike.line
        split
        next equals =>
          cases followed with
          | ended => cases equals
          | cons _ followed =>
            refine plain <|
              (shorter _ _ followed (Nat.lt_succ_of_lt rest_shorter)).expression.within.map ?_
            exact fun _ _ value => .assign value alike.line
        next => exact whole alike.line
      · rw [not_or, not_not] at seen
        obtain ⟨rfl, more⟩ := seen
        exact .spent (by simpa using valueOrFunction_name kind) more
    next => exact whole alike.line

theorem instructions_follows :
    Follows R tail (List.Forall₂ (Statement.Alike R)) (instructions tokens)
      (instructions tokens') := by
  rw [instructions, instructions]
  refine (instruction_follows shorter followed false).bind (fun _ _ => rest_bind_nil) ?_
  intro first first' rest rest' fewer _ corresponds followed
  have firstAlike := corresponds.toAlike
  refine (takeSign_follows .semicolon followed).within.bind (fun _ _ => rfl) ?_
  intro _ _ rest rest' fewer fewer' _ followed
  have more : Follows R tail (List.Forall₂ (Statement.Alike R))
      (((instructions rest).within fewer).map (first :: ·))
      (((instructions rest').within fewer').map (first' :: ·)) :=
    (shorter _ _ followed fewer).instructions.within.map fun _ _ others => .cons firstAlike others
  cases followed with
  | ended =>
    refine .of_used rfl fun ended => ?_
    rcases ended.cases with rfl | ⟨token, others, rfl, last⟩
    · exact .ended (.exhausted rfl)
    · simp only [last, reduceCtorEq, if_false]
      rw [instructions_nil] at more
      exact more
  | cons alike followed =>
    simp only [alike.kind]
    split
    · exact .ok (.cons firstAlike .nil) followed
    · exact more

end Outer

theorem shorter_of_le (bound : Nat) : Shorter R tail bound := by
  induction bound with
  | zero => exact fun _ _ _ fits => absurd fits (Nat.not_lt_zero _)
  | succ bound ih =>
    intro tokens tokens' followed fits
    have shorter : Shorter R tail tokens.length := fun left right followed fewer =>
      ih left right followed (fewer.trans_le (Nat.le_of_lt_succ fits))
    exact
      { unary := unary_follows shorter followed
        power := power_follows shorter followed
        operand := operand_follows shorter followed
        chain := fun level _ _ alike _ _ fewer fewer' =>
          chain_follows shorter followed level alike fewer fewer'
        expression := expression_follows shorter followed
        someItems := someItems_follows shorter followed
        instruction := instruction_follows shorter followed
        instructions := instructions_follows shorter followed }

/-- Every part of the parser follows. -/
theorem readings (followed : Followed R tail tokens tokens') : Readings R tail tokens tokens' :=
  shorter_of_le (tokens.length + 1) tokens tokens' followed (Nat.lt_succ_self _)

end Parse

end GSharp
