import GSharp.Proofs.Syntax.Completeness

namespace GSharp

namespace Parse

open Step Step.Reads

variable {tokens rest : List Token}

/-- A sequence with the brace that opens it. -/
def sequenceLiteral (tokens : List Token) : Step Expr tokens :=
  (takeSign .leftBrace tokens).bind fun opening rest shorter =>
    (sequence opening.line rest).within shorter

/-- This is what is read where an operand begins with a brace. -/
theorem primary_eq_sequenceLiteral {opening : Token} (opens : opening.kind = .sign .leftBrace) :
    primary (opening :: tokens) = sequenceLiteral (opening :: tokens) := by
  rw [primary.eq_def, sequenceLiteral, takeSign, take, if_pos opens]
  simp only [opens]
  rfl

theorem sequenceLiteral_iff {value : Expr} :
    (sequenceLiteral tokens).Reads value rest ↔
      ∃ opening others, tokens = opening :: others ∧ opening.kind = .sign .leftBrace ∧
        Braced opening.line others value rest := by
  rw [sequenceLiteral, bind_iff]
  simp only [takeSign_iff, within_iff, sequence_iff]
  constructor
  · rintro ⟨opening, others, _, ⟨rfl, opens⟩, braced⟩
    exact ⟨opening, others, rfl, opens, braced⟩
  · rintro ⟨opening, others, rfl, opens, braced⟩
    exact ⟨opening, others, rest_shorter, ⟨rfl, opens⟩, braced⟩

/-- The documented forms. Every comma stands between two expressions, and a bound is a number
literal and nothing else. -/
inductive Documented (tokens rest : List Token) : Prop where
  | elements (exprs : List Expr) (canonical : Expr.allCanonical exprs = true)
      (spans : Spans (.sign .leftBrace :: (Expr.listed exprs ++ [.sign .rightBrace])) tokens rest)
  | endless (start : Float) (isBound : Number.isBound start = true)
      (spans : Spans [.sign .leftBrace, .token (.number start), .sign .ellipsis,
        .sign .rightBrace] tokens rest)
  | range (start finish : Float) (isBound : Number.isBound start = true)
      (finishIsBound : Number.isBound finish = true)
      (spans : Spans [.sign .leftBrace, .token (.number start), .sign .ellipsis,
        .token (.number finish), .sign .rightBrace] tokens rest)

/-- One expression, and after it a comma that no other expression follows. -/
def EndsInComma (tokens rest : List Token) : Prop :=
  ∃ element : Expr, element.isCanonical = true ∧
    Spans (.sign .leftBrace :: (element.marks ++ [.sign .comma, .sign .rightBrace])) tokens rest

variable {line : Nat} {value : Expr} {opening : Token}

/-- What was read has one of the forms. -/
theorem Braced.documented (braced : Braced line tokens value rest)
    (opens : opening.kind = .sign .leftBrace) :
    Documented (opening :: tokens) rest ∨ EndsInComma (opening :: tokens) rest := by
  have sound {tokens rest : List Token} {expr : Expr}
      (reads : (atRank 0 tokens).Reads expr rest) : expr.Derived 0 tokens rest :=
    (Parse.sound _).expression (Nat.lt_succ_self _) reads
  cases braced with
  | empty closes =>
    exact .inl (.elements [] rfl (by simpa [Expr.listed, opens] using closes))
  | @single _ _ element closing reads closes =>
    have derived := sound reads
    refine .inl (.elements [element] (by simp [Expr.allCanonical, derived.canonical]) ?_)
    exact Spans.token_cons_iff.mpr ⟨opens, derived.spans.trans (by simpa using closes)⟩
  | @many _ others _ first elements comma reads kind more =>
    have derived := sound reads
    rcases (items_iff (.inr rfl)).mp more with ⟨rfl, closing, rfl, closes⟩ | listed
    · refine .inr ⟨first, derived.canonical, Spans.token_cons_iff.mpr ⟨opens, ?_⟩⟩
      exact derived.spans.trans (by simpa [kind] using closes)
    · obtain ⟨spans, canonical⟩ := listed.sound (Parse.sound _) (Nat.lt_succ_self _)
      refine .inl (.elements (first :: elements) ?_ (Spans.token_cons_iff.mpr ⟨opens, ?_⟩))
      · simp [Expr.allCanonical, derived.canonical, canonical]
      · rw [Expr.listed_cons listed.some, List.append_assoc]
        exact derived.spans.trans (Spans.token_cons_iff.mpr ⟨kind, spans⟩)
  | @infinite _ _ start _ ellipsis closing reads kind isBound closes =>
    refine .inl (.endless start isBound (Spans.token_cons_iff.mpr ⟨opens, ?_⟩))
    exact (sound reads).spans.trans (by simpa [kind] using closes)
  | @range _ others _ start finish _ _ ellipsis closing reads kind isBound finishReads
      finishIsBound closes =>
    refine .inl (.range start finish isBound finishIsBound
      (Spans.token_cons_iff.mpr ⟨opens, ?_⟩))
    have closed : Spans [.sign .rightBrace] (closing :: rest) rest := by simpa using closes
    exact (sound reads).spans.trans
      (Spans.token_cons_iff.mpr ⟨kind, (sound finishReads).spans.trans closed⟩)

/-- Elements with commas between them are read one by one. -/
theorem elements_braced {exprs : List Expr} (line : Nat)
    (canonical : Expr.allCanonical exprs = true)
    (spans : Spans (Expr.listed exprs ++ [.sign .rightBrace]) tokens rest) :
    ∃ value, Braced line tokens value rest := by
  by_cases none : exprs = []
  · subst none
    obtain ⟨closing, rfl, closes⟩ := Spans.single_iff.mp spans
    exact ⟨_, .empty closes⟩
  · obtain ⟨read, _, listed⟩ :=
      Expr.listed_readable (.inr rfl) (Expr.allReadable exprs) canonical none spans
    cases listed with
    | last reads closes => exact ⟨_, .single reads closes⟩
    | more reads kind listed =>
      exact ⟨_, .many reads kind ((items_iff (.inr rfl)).mpr (.inr listed))⟩

theorem Documented.reads (documented : Documented tokens rest) :
    ∃ value, (sequenceLiteral tokens).Reads value rest := by
  cases documented with
  | elements exprs canonical spans =>
    obtain ⟨opening, others, rfl, opens, spans⟩ := Spans.token_iff.mp spans
    obtain ⟨value, braced⟩ := elements_braced opening.line canonical spans
    exact ⟨value, sequenceLiteral_iff.mpr ⟨opening, others, rfl, opens, braced⟩⟩
  | endless start isBound spans =>
    obtain ⟨opening, others, rfl, opens, spans⟩ := Spans.token_iff.mp spans
    obtain ⟨number, others, rfl, isNumber, spans⟩ := Spans.token_iff.mp spans
    obtain ⟨ellipsis, others, rfl, kind, spans⟩ := Spans.token_iff.mp spans
    obtain ⟨closing, rfl, closes⟩ := Spans.single_iff.mp spans
    exact ⟨_, sequenceLiteral_iff.mpr ⟨opening, _, rfl, opens,
      .infinite (Expr.number_reads isNumber kind rfl) kind isBound closes⟩⟩
  | range start finish isBound finishIsBound spans =>
    obtain ⟨opening, others, rfl, opens, spans⟩ := Spans.token_iff.mp spans
    obtain ⟨number, others, rfl, isNumber, spans⟩ := Spans.token_iff.mp spans
    obtain ⟨ellipsis, others, rfl, kind, spans⟩ := Spans.token_iff.mp spans
    obtain ⟨other, others, rfl, isOther, spans⟩ := Spans.token_iff.mp spans
    obtain ⟨closing, rfl, closes⟩ := Spans.single_iff.mp spans
    exact ⟨_, sequenceLiteral_iff.mpr ⟨opening, _, rfl, opens,
      .range (Expr.number_reads isNumber kind rfl) kind isBound
        (Expr.number_reads isOther closes rfl) finishIsBound closes⟩⟩

theorem EndsInComma.reads (ends : EndsInComma tokens rest) :
    ∃ value, (sequenceLiteral tokens).Reads value rest := by
  obtain ⟨element, canonical, spans⟩ := ends
  obtain ⟨opening, others, rfl, opens, spans⟩ := Spans.token_iff.mp spans
  obtain ⟨middle, elementSpans, following⟩ := Spans.append_iff.mp spans
  obtain ⟨comma, others, rfl, kind, closingSpans⟩ := Spans.token_iff.mp following
  obtain ⟨closing, rfl, closes⟩ := Spans.single_iff.mp closingSpans
  obtain ⟨found, _, reads⟩ := element.readable.before elementSpans canonical kind rfl
  exact ⟨_, sequenceLiteral_iff.mpr ⟨opening, _, rfl, opens, .many reads kind
    ((items_iff (.inr rfl)).mpr (.inl ⟨rfl, closing, rfl, closes⟩))⟩⟩

/-- A sequence in braces is read from the documented forms, from a single element with a comma
after it, and from nothing else. -/
theorem sequenceLiteral_accepts_iff (tokens rest : List Token) :
    (∃ value, (sequenceLiteral tokens).Reads value rest) ↔
      Documented tokens rest ∨ EndsInComma tokens rest := by
  constructor
  · rintro ⟨value, reads⟩
    obtain ⟨opening, others, rfl, opens, braced⟩ := sequenceLiteral_iff.mp reads
    exact braced.documented opens
  · rintro (documented | ends)
    · exact documented.reads
    · exact ends.reads

/-- The only element of a sequence with a comma after it. -/
def commaLast : List Token :=
  [.sign .leftBrace, .number 1, .sign .comma, .sign .rightBrace].map fun kind => ⟨kind, "", 1⟩

/-- It is read although no expression follows the comma. -/
theorem commaLast_undocumented :
    (∃ value, (sequenceLiteral commaLast).Reads value []) ∧ ∀ rest, ¬Documented commaLast rest := by
  constructor
  · refine EndsInComma.reads ⟨.literal (.number 1) 1, rfl, ?_⟩
    simp [commaLast, Expr.marks, Literal.kind]
  · intro rest documented
    cases documented with
    | elements exprs canonical spans =>
      obtain ⟨_, spans⟩ := Spans.token_cons_iff.mp spans
      have some : exprs ≠ [] := by
        rintro rfl
        simp [Expr.listed] at spans
      obtain ⟨read, _, listed⟩ :=
        Expr.listed_readable (.inr rfl) (Expr.allReadable exprs) canonical some spans
      -- The number is the first element, and what follows its comma begins no second one.
      have number : (atRank 0 commaLast.tail).Reads (.literal (.number 1) 1)
          (commaLast.drop 2) := Expr.number_reads rfl rfl rfl
      cases listed with
      | last reads closes =>
        cases number.rest_unique reads
        cases closes
      | more reads kind listed =>
        cases number.rest_unique reads
        obtain ⟨closing, others, same, leads⟩ := listed.leads
        cases same
        cases leads
    | endless start isBound spans => simp [commaLast] at spans
    | range start finish isBound finishIsBound spans => simp [commaLast] at spans

end Parse

end GSharp
