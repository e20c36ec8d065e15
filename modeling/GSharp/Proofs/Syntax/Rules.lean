import GSharp.Proofs.Syntax.Canonical
import GSharp.Proofs.Syntax.Reading
import GSharp.Syntax.Parse

/-!
What each part of the parser reads. The lemmas say exactly when a part succeeds, with what value and
what rest, so that nothing else that is proved of reading opens the parser.
-/
namespace GSharp

namespace Parse

open Step Step.Reads

variable {tokens middle rest : List Token} {line : Nat}

theorem bound_eq_ok {expr : Expr} {value : Float} :
    bound expr = .ok value ↔
      ∃ line, expr = .literal (.number value) line ∧ Number.isBound value = true := by
  unfold bound
  split
  · next n line =>
    change (if Number.isBound n = true then _ else _) = _ ↔ _
    by_cases small : Number.isBound n = true
    · simp only [small, if_true, Except.ok.injEq, Expr.literal.injEq, Literal.number.injEq]
      constructor
      · intro same
        subst same
        exact ⟨line, ⟨rfl, rfl⟩, small⟩
      · intro given
        obtain ⟨_, ⟨same, _⟩, _⟩ := given
        exact same
    · simp only [small, Bool.false_eq_true, if_false, reduceCtorEq, Expr.literal.injEq,
        Literal.number.injEq, false_iff]
      intro given
      obtain ⟨_, ⟨rfl, _⟩, small'⟩ := given
      exact small small'
  · next other =>
    simp only [reduceCtorEq, false_iff]
    intro given
    obtain ⟨line, rfl, _⟩ := given
    exact other value line rfl

theorem parameters_constant_eq_ok {function name : String} {earlier found : List String}
    {others : List Expr} :
    parameters function earlier (.constant name line :: others) = .ok found ↔
      name ∉ earlier ∧ ∃ more, parameters function (name :: earlier) others = .ok more ∧
        found = name :: more := by
  by_cases claimed : name ∈ earlier
  · simp [parameters, claimed]
  · cases result : parameters function (name :: earlier) others with
    | error fault => simp [parameters, claimed, result, Except.map]
    | ok more => simp [parameters, claimed, result, Except.map, eq_comm]

/-- Parameters are read off arguments that are constants with names of their own. -/
theorem parameters_eq_ok {function : String} {earlier found : List String}
    {arguments : List Expr} :
    parameters function earlier arguments = .ok found ↔
      Expr.bareAll arguments = found.map (.constant · 0) ∧ found.Nodup ∧
        ∀ name ∈ found, name ∉ earlier := by
  induction arguments generalizing earlier found with
  | nil => cases found <;> simp [parameters, Expr.bareAll]
  | cons first others ih =>
    cases first with
    | constant name line =>
      rw [parameters_constant_eq_ok]
      constructor
      · intro given
        obtain ⟨fresh, more, result, rfl⟩ := given
        obtain ⟨same, distinct, later⟩ := ih.mp result
        simp only [List.mem_cons, not_or] at later
        refine ⟨by simp [Expr.bareAll, Expr.bare, same], ?_, ?_⟩
        · exact List.nodup_cons.mpr ⟨fun repeated => (later name repeated).1 rfl, distinct⟩
        · simpa using ⟨fresh, fun next found => (later next found).2⟩
      · intro given
        obtain ⟨same, distinct, fresh⟩ := given
        cases found with
        | nil => simp [Expr.bareAll] at same
        | cons next more =>
          simp only [Expr.bareAll, Expr.bare, List.map_cons, List.cons.injEq,
            Expr.constant.injEq, and_true] at same
          obtain ⟨rfl, same⟩ := same
          obtain ⟨single, distinct⟩ := List.nodup_cons.mp distinct
          refine ⟨fresh name (List.mem_cons_self ..), more, ih.mpr ⟨same, distinct, ?_⟩, rfl⟩
          intro next member
          rw [List.mem_cons, not_or]
          exact ⟨fun repeated => single (repeated ▸ member),
            fresh next (List.mem_cons_of_mem name member)⟩
    | literal | undefined | group | unary | binary | conditional | block | call | figure
    | sequence | infinite | range =>
      cases found <;> simp [parameters, Expr.bareAll, Expr.bare]

theorem names_nil : names [] = refuse .identifier [] := rfl

theorem names_single (token : Token) :
    names [token] = (takeIdentifier [token]).bind fun name _ _ => .ok [name] [] (by simp) := rfl

theorem names_cons (token comma : Token) (others : List Token) :
    names (token :: comma :: others) =
      (takeIdentifier (token :: comma :: others)).bind fun name _ _ =>
        if comma.kind = .sign .comma then
          ((names others).map (name :: ·)).within (by simp only [List.length_cons]; omega)
        else .ok [name] (comma :: others) (by simp) := rfl

/-- Names are read for as long as commas follow. -/
theorem names_iff (tokens : List Token) {found : List String} :
    (names tokens).Reads found rest ↔
      found ≠ [] ∧ Spans (Mark.names found) tokens rest ∧
        ∀ token ∈ rest.head?, token.kind ≠ .sign .comma := by
  match tokens, found with
  | [], [] => simp [names_nil]
  | [], [name] | [], name :: next :: more => simp [names_nil, Mark.names, Spans.token_iff]
  | [token], [] | [token], name :: next :: more =>
    simp [names_single, takeIdentifier_bind_iff, Mark.names, Spans.token_iff]
  | [token], [name] =>
    simp only [names_single, takeIdentifier_bind_iff, Mark.names]
    constructor
    · simp +contextual
    · simp +contextual
  | token :: comma :: others, [] =>
    rw [names_cons, takeIdentifier_bind_iff]
    by_cases between : comma.kind = .sign .comma
    · simp [between]
    · simp [between]
  | token :: comma :: others, [name] =>
    rw [names_cons, takeIdentifier_bind_iff]
    by_cases between : comma.kind = .sign .comma
    · simp only [between, if_true, within_iff, map_iff, names_iff others, Mark.names,
        Spans.token_cons_iff, Spans.nil_iff]
      constructor
      · intro given
        obtain ⟨_, _, more, ⟨some, _⟩, same⟩ := given
        cases same
        contradiction
      · intro given
        obtain ⟨_, ⟨_, rfl⟩, ends⟩ := given
        exact absurd between (ends comma rfl)
    · simp only [between, if_false, ok_iff, Mark.names, Spans.token_cons_iff, Spans.nil_iff]
      constructor
      · intro given
        obtain ⟨_, kind, same, rfl⟩ := given
        cases same
        exact ⟨by simp, ⟨kind, rfl⟩, by simpa using between⟩
      · intro given
        obtain ⟨_, ⟨kind, rfl⟩, _⟩ := given
        exact ⟨name, kind, rfl, rfl⟩
  | token :: comma :: others, name :: next :: more =>
    rw [names_cons, takeIdentifier_bind_iff]
    by_cases between : comma.kind = .sign .comma
    · simp only [between, if_true, within_iff, map_iff, names_iff others, Mark.names,
        Spans.token_cons_iff]
      constructor
      · intro given
        obtain ⟨_, kind, _, ⟨_, spans, ends⟩, same⟩ := given
        cases same
        exact ⟨by simp, ⟨kind, trivial, spans⟩, ends⟩
      · intro given
        obtain ⟨_, ⟨kind, _, spans⟩, ends⟩ := given
        exact ⟨name, kind, next :: more, ⟨by simp, spans, ends⟩, rfl⟩
    · simp [between, Mark.names]

theorem color_cons_iff {token : Token} {others : List Token} {statement : Statement} :
    (color line (token :: others)).Reads statement rest ↔
      ∃ name, (token.kind = .identifier name ∨ token.kind = .string name) ∧
        ∃ named, Color.ofName? name = some named ∧ statement = .color named line ∧
          others = rest := by
  simp only [color]
  split
  · next name kind =>
    cases found : Color.ofName? name with
    | none => simp [kind, found]
    | some named => simp [kind, found, eq_comm]
  · next name kind =>
    cases found : Color.ofName? name with
    | none => simp [kind, found]
    | some named => simp [kind, found, eq_comm]
  · next noName noString =>
    simp only [refuse_iff, false_iff]
    intro given
    rcases given with ⟨name, kind | kind, _⟩
    · exact noName name kind
    · exact noString name kind

theorem color_iff {statement : Statement} :
    (color line tokens).Reads statement rest ↔
      ∃ named, statement = .color named line ∧ Spans [.colorName named] tokens rest := by
  cases tokens with
  | nil => simp [color, Spans.colorName_iff]
  | cons token others =>
    rw [color_cons_iff]
    constructor
    · intro given
      obtain ⟨name, kind, named, found, rfl, rfl⟩ := given
      exact ⟨named, rfl, Spans.colorName_iff.mpr
        ⟨token, others, name, rfl, found, kind, Spans.nil_iff.mpr rfl⟩⟩
    · intro given
      obtain ⟨named, rfl, spans⟩ := given
      obtain ⟨_, _, name, same, found, kind, spans⟩ := Spans.colorName_iff.mp spans
      cases same
      exact ⟨name, kind, named, found, rfl, Spans.nil_iff.mp spans⟩

theorem randomDeclaration_iff {kind : FigureKind} {statement : Statement} :
    (randomDeclaration kind line tokens).Reads statement rest ↔
      ∃ isSequence name, statement = .random kind isSequence name line ∧
        Spans ((if isSequence then [.word .sequence] else []) ++ [.name name]) tokens rest := by
  cases tokens with
  | nil =>
    simp only [randomDeclaration, refuse_iff, false_iff]
    intro given
    obtain ⟨isSequence, name, -, spans⟩ := given
    cases isSequence <;> simp [Spans.token_iff] at spans
  | cons token others =>
    simp only [randomDeclaration]
    split
    · next many => simp [Bool.exists_bool, many, eq_comm, and_comm]
    · next single => simp [Bool.exists_bool, single, eq_comm, and_comm]

/-- A string right after the value is the label. -/
theorem labelled_iff {build : Expr → Option String → Statement} {value : Expr}
    {source left : List Token} {shorter : left.length < source.length} {statement : Statement} :
    (labelled build value left shorter).Reads statement rest ↔
      ∃ label, statement = build value label ∧ Spans (Mark.label label) left rest ∧
        (label = none → ∀ token ∈ rest.head?, ∀ text, token.kind ≠ .string text) := by
  cases left with
  | nil =>
    simp only [labelled, ok_iff]
    constructor
    · intro given
      obtain ⟨rfl, rfl⟩ := given
      exact ⟨none, rfl, by simp [Mark.label]⟩
    · intro given
      obtain ⟨label, rfl, spans, _⟩ := given
      cases label with
      | none => exact ⟨rfl, Spans.nil_iff.mp spans⟩
      | some text => simp [Mark.label, Spans.token_iff] at spans
  | cons token others =>
    simp only [labelled]
    split
    · next text kind =>
      simp only [ok_iff]
      constructor
      · intro given
        obtain ⟨rfl, rfl⟩ := given
        exact ⟨some text, rfl, by simp [Mark.label, kind]⟩
      · intro given
        obtain ⟨label, rfl, spans, ends⟩ := given
        cases label with
        | none =>
          obtain rfl := Spans.nil_iff.mp spans
          exact absurd kind (ends rfl token rfl text)
        | some given =>
          obtain ⟨same, rfl⟩ : text = given ∧ others = rest := by
            simpa [Mark.label, kind] using spans
          exact ⟨by rw [same], rfl⟩
    · next unlabelled =>
      simp only [ok_iff]
      constructor
      · intro given
        obtain ⟨rfl, rfl⟩ := given
        exact ⟨none, rfl, Spans.nil_iff.mpr rfl, by simpa using unlabelled⟩
      · intro given
        obtain ⟨label, rfl, spans, _⟩ := given
        cases label with
        | none => exact ⟨rfl, Spans.nil_iff.mp spans⟩
        | some text =>
          obtain ⟨kind, _⟩ := Spans.token_cons_iff.mp spans
          exact (unlabelled text kind).elim

end Parse

end GSharp
