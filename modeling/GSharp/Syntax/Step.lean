import GSharp.Fault.Syntax

namespace GSharp

/-- One step of reading a construct from the front of a token list. A success leaves fewer tokens; a
failure leaves those from the offending token on, which is where recovery starts. -/
inductive Step (α : Type) (source : List Token) where
  | ok (value : α) (rest : List Token) (shorter : rest.length < source.length)
  | fail (error : SyntaxError) (rest : List Token)
    (bounded : rest = source ∨ rest.length < source.length)

namespace Step

/-- What follows a token is shorter than the list that it begins. -/
theorem rest_shorter {token : Token} {rest : List Token} : rest.length < (token :: rest).length :=
  Nat.lt_succ_self _

variable {α β : Type} {source inner : List Token}

/-- A step over part of a list is a step over the list. -/
def within (step : Step α inner) (part : inner.length < source.length) : Step α source :=
  match step with
  | ok value rest shorter => ok value rest (Nat.lt_trans shorter part)
  | fail error rest bounded => fail error rest <| .inr <| by
      rcases bounded with same | shorter
      · exact same ▸ part
      · exact Nat.lt_trans shorter part

def bind (step : Step α source)
    (next : α → (rest : List Token) → rest.length < source.length → Step β source) :
    Step β source :=
  match step with
  | ok value rest shorter => next value rest shorter
  | fail error rest bounded => fail error rest bounded

/-- Goes on after a step over part of the list. -/
def andThen (step : Step α inner) (part : inner.length < source.length)
    (next : α → (rest : List Token) → rest.length < inner.length → Step β source) :
    Step β source :=
  match step with
  | ok value rest shorter => next value rest shorter
  | fail error rest bounded => (fail error rest bounded : Step β inner).within part

def map (f : α → β) (step : Step α source) : Step β source :=
  match step with
  | ok value rest shorter => ok (f value) rest shorter
  | fail error rest bounded => fail error rest bounded

/-- The error where a construct is due and no token is left, not even the end of input. -/
def exhausted : SyntaxError := ⟨.noExpression "end of input", 0⟩

/-- Refuses the first token for want of what is expected. -/
def refuse (expectation : Expectation) : (tokens : List Token) → Step α tokens
  | [] => fail exhausted [] (.inl rfl)
  | token :: rest =>
    fail ⟨.expected expectation token.description, token.line⟩ (token :: rest) (.inl rfl)

/-- Takes one token of the given kind. -/
def take (kind : TokenKind) (expectation : Expectation) : (tokens : List Token) → Step Token tokens
  | [] => refuse expectation []
  | token :: rest =>
    if token.kind = kind then ok token rest rest_shorter
    else refuse expectation (token :: rest)

def takeSign (sign : Sign) (tokens : List Token) : Step Token tokens :=
  take (.sign sign) (.sign sign) tokens

def takeWord (word : Keyword) (tokens : List Token) : Step Token tokens :=
  take (.keyword word) (.word word) tokens

/-- Takes a name. -/
def takeIdentifier : (tokens : List Token) → Step String tokens
  | [] => refuse .identifier []
  | token :: rest =>
    match token.kind with
    | .identifier name => ok name rest rest_shorter
    | _ => refuse .identifier (token :: rest)

/-- Takes the text of a string. -/
def takeString (expectation : Expectation) : (tokens : List Token) → Step String tokens
  | [] => refuse expectation []
  | token :: rest =>
    match token.kind with
    | .string text => ok text rest rest_shorter
    | _ => refuse expectation (token :: rest)

end Step

end GSharp
