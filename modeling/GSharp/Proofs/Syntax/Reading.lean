import GSharp.Proofs.Syntax.Written
import GSharp.Syntax.Step

namespace GSharp

namespace Step

variable {α β : Type} {source inner : List Token}

/-- The step succeeds with the value and leaves the rest. -/
def Reads (step : Step α source) (value : α) (rest : List Token) : Prop :=
  ∃ shorter, step = .ok value rest shorter

namespace Reads

theorem shorter {step : Step α source} {value : α} {rest : List Token}
    (reads : step.Reads value rest) : rest.length < source.length := by
  obtain ⟨shorter, _⟩ := reads
  exact shorter

variable {value : α} {result : β} {left right rest : List Token}

/-- A step leaves one rest. -/
theorem rest_unique {step : Step α source} {other : α} (first : step.Reads value left)
    (second : step.Reads other right) : left = right := by
  obtain ⟨_, same⟩ := first
  obtain ⟨_, same'⟩ := second
  rw [same] at same'
  cases same'
  rfl

@[simp]
theorem ok_iff {given : α} {shorter : left.length < source.length} :
    (ok given left shorter : Step α source).Reads value rest ↔ given = value ∧ left = rest := by
  constructor
  · intro given
    obtain ⟨_, same⟩ := given
    cases same
    exact ⟨rfl, rfl⟩
  · intro given
    obtain ⟨rfl, rfl⟩ := given
    exact ⟨shorter, rfl⟩

@[simp]
theorem fail_iff {error : SyntaxError} {bounded : left = source ∨ left.length < source.length} :
    (fail error left bounded : Step α source).Reads value rest ↔ False := by
  simp [Reads]

@[simp]
theorem within_iff {step : Step α inner} {part : inner.length < source.length} :
    (step.within part).Reads value rest ↔ step.Reads value rest := by
  cases step with
  | ok => simp [within]
  | fail => simp [within]

theorem bind_iff {step : Step α source}
    {next : α → (rest : List Token) → rest.length < source.length → Step β source} :
    (step.bind next).Reads result rest ↔
      ∃ value middle shorter, step.Reads value middle ∧
        (next value middle shorter).Reads result rest := by
  cases step with
  | ok given left shorter =>
    simp only [bind, ok_iff]
    constructor
    · intro reads
      exact ⟨given, left, shorter, ⟨rfl, rfl⟩, reads⟩
    · intro given
      obtain ⟨_, _, _, ⟨rfl, rfl⟩, reads⟩ := given
      exact reads
  | fail => simp [bind]

theorem andThen_iff {step : Step α inner} {part : inner.length < source.length}
    {next : α → (rest : List Token) → rest.length < inner.length → Step β source} :
    (step.andThen part next).Reads result rest ↔
      ∃ value middle shorter, step.Reads value middle ∧
        (next value middle shorter).Reads result rest := by
  cases step with
  | ok given left shorter =>
    simp only [andThen, ok_iff]
    constructor
    · intro reads
      exact ⟨given, left, shorter, ⟨rfl, rfl⟩, reads⟩
    · intro given
      obtain ⟨_, _, _, ⟨rfl, rfl⟩, reads⟩ := given
      exact reads
  | fail => simp [andThen]

@[simp]
theorem map_iff {step : Step α source} {f : α → β} :
    (step.map f).Reads result rest ↔ ∃ value, step.Reads value rest ∧ f value = result := by
  cases step with
  | ok given left shorter =>
    simp only [map, ok_iff]
    constructor
    · intro given
      obtain ⟨rfl, rfl⟩ := given
      exact ⟨given, ⟨rfl, rfl⟩, rfl⟩
    · intro given
      obtain ⟨_, ⟨rfl, rfl⟩, rfl⟩ := given
      exact ⟨rfl, rfl⟩
  | fail => simp [map]

@[simp]
theorem refuse_iff {expectation : Expectation} :
    (refuse expectation source : Step α source).Reads value rest ↔ False := by
  cases source with
  | nil => simp [refuse]
  | cons => simp [refuse]

theorem take_iff {kind : TokenKind} {expectation : Expectation} {token : Token} :
    (take kind expectation source).Reads token rest ↔
      source = token :: rest ∧ token.kind = kind := by
  cases source with
  | nil => simp [take]
  | cons first others =>
    by_cases same : first.kind = kind
    · simp only [take, same, if_true, ok_iff, List.cons.injEq]
      constructor
      · intro given
        obtain ⟨rfl, rfl⟩ := given
        exact ⟨⟨rfl, rfl⟩, same⟩
      · intro given
        obtain ⟨same, -⟩ := given
        exact same
    · simp only [take, same, if_false, refuse_iff, List.cons.injEq, false_iff]
      intro given
      obtain ⟨⟨rfl, rfl⟩, kind⟩ := given
      exact same kind

@[simp]
theorem takeSign_iff {sign : Sign} {token : Token} :
    (takeSign sign source).Reads token rest ↔
      source = token :: rest ∧ token.kind = .sign sign :=
  take_iff

@[simp]
theorem takeWord_iff {word : Keyword} {token : Token} :
    (takeWord word source).Reads token rest ↔
      source = token :: rest ∧ token.kind = .keyword word :=
  take_iff

@[simp]
theorem takeIdentifier_iff {name : String} :
    (takeIdentifier source).Reads name rest ↔ Spans [.name name] source rest := by
  cases source with
  | nil => simp [takeIdentifier, Spans.token_iff]
  | cons first others =>
    simp only [takeIdentifier]
    split
    · next found kind => simp [kind]
    · next other => simpa using fun kind => (other name kind).elim

theorem takeIdentifier_bind_iff {token : Token} {others : List Token}
    {next : String → (rest : List Token) → rest.length < (token :: others).length →
      Step β (token :: others)} :
    ((takeIdentifier (token :: others)).bind next).Reads result rest ↔
      ∃ name, token.kind = .identifier name ∧
        (next name others (Nat.lt_succ_self _)).Reads result rest := by
  rw [bind_iff]
  constructor
  · intro given
    obtain ⟨name, middle, shorter, taken, reads⟩ := given
    obtain ⟨kind, rfl⟩ : token.kind = .identifier name ∧ others = middle := by simpa using taken
    exact ⟨name, kind, reads⟩
  · intro given
    obtain ⟨name, kind, reads⟩ := given
    exact ⟨name, others, Nat.lt_succ_self _, by simpa using kind, reads⟩

@[simp]
theorem takeString_iff {expectation : Expectation} {text : String} :
    (takeString expectation source).Reads text rest ↔
      Spans [.token (.string text)] source rest := by
  cases source with
  | nil => simp [takeString, Spans.token_iff]
  | cons first others =>
    simp only [takeString]
    split
    · next found kind => simp [kind]
    · next other => simpa using fun kind => (other text kind).elim

end Reads

end Step

end GSharp
