import GSharp.Proofs.Syntax.Instructions

namespace GSharp

/-- A canonical expression is what the tokens up to the rest spell. -/
structure Expr.Taken (expr : Expr) (tokens rest : List Token) : Prop where
  spans : Spans expr.marks tokens rest
  canonical : expr.isCanonical = true
  closed : expr.endsOpen = true → Stops 0 rest

/-- An expression fit to stand where the rank is asked for, with no more operators for it. -/
structure Expr.Derived (rank : Nat) (expr : Expr) (tokens rest : List Token) : Prop
    extends expr.Taken tokens rest where
  tight : rank ≤ expr.rank
  stops : Stops rank rest

/-- A primary expression asks nothing of the operators after it, unless it ends open. -/
theorem Expr.Derived.primary {expr : Expr} {tokens rest : List Token}
    (spans : Spans expr.marks tokens rest) (canonical : expr.isCanonical = true)
    (tight : 7 ≤ expr.rank) (closed : expr.endsOpen = true → Stops 0 rest) :
    expr.Derived 7 tokens rest :=
  ⟨⟨spans, canonical, closed⟩, tight, Stops.six.mono (Nat.le_succ 6)⟩

/-- Nor does one with an end of its own ask anything of any other token. -/
theorem Expr.Derived.ended {expr : Expr} {tokens rest : List Token}
    (spans : Spans expr.marks tokens rest) (canonical : expr.isCanonical = true)
    (tight : 7 ≤ expr.rank) (ends : expr.endsOpen = false) : expr.Derived 7 tokens rest :=
  .primary spans canonical tight fun isOpen => absurd isOpen (by simp [ends])

namespace Parse

variable {bound rank line : Nat} {tokens middle rest : List Token} {expr : Expr}

/-- Whatever is read from fewer tokens than the bound is derived from them. -/
def Sound (bound : Nat) : Prop :=
  ∀ rank ≤ 7, ∀ tokens, tokens.length < bound → ∀ expr rest,
    (atRank rank tokens).Reads expr rest → expr.Derived rank tokens rest

theorem Sound.expression (sound : Sound bound) (short : tokens.length < bound)
    (reads : (atRank 0 tokens).Reads expr rest) : expr.Derived 0 tokens rest :=
  sound 0 (by decide) tokens short expr rest reads

theorem Listed.some {closing : Sign} {exprs : List Expr}
    (listed : Listed closing tokens exprs rest) : exprs ≠ [] := by
  cases listed <;> simp

theorem Listed.sound {closing : Sign} {exprs : List Expr} (sound : Sound bound)
    (listed : Listed closing tokens exprs rest) (short : tokens.length < bound) :
    Spans (Expr.listed exprs ++ [.sign closing]) tokens rest ∧
      Expr.allCanonical exprs = true := by
  induction listed with
  | last reads kind =>
    have derived := sound.expression short reads
    refine ⟨derived.spans.trans (by simpa using kind), ?_⟩
    simp [Expr.allCanonical, derived.canonical]
  | more reads kind listed ih =>
    have derived := sound.expression short reads
    have shorter := reads.shorter
    simp only [List.length_cons] at shorter
    obtain ⟨spans, canonical⟩ := ih (by omega)
    rw [Expr.listed_cons listed.some, List.append_assoc]
    refine ⟨derived.spans.trans (by simpa using ⟨kind, Spans.append_iff.mp spans⟩), ?_⟩
    simp [Expr.allCanonical, derived.canonical, canonical]

theorem items_sound {closing : Sign} {exprs : List Expr} (sound : Sound bound)
    (short : tokens.length < bound) (closes : closing = .rightParen ∨ closing = .rightBrace)
    (reads : (items closing tokens).Reads exprs rest) :
    Spans (Expr.listed exprs ++ [.sign closing]) tokens rest ∧
      Expr.allCanonical exprs = true := by
  rcases (items_iff closes).mp reads with ⟨rfl, token, rfl, kind⟩ | listed
  · simp [Expr.listed, Expr.allCanonical, kind]
  · exact listed.sound sound short

theorem Braced.sound (sound : Sound bound) (braced : Braced line tokens expr rest)
    (short : tokens.length < bound) {token : Token} (opens : token.kind = .sign .leftBrace) :
    expr.Derived 7 (token :: tokens) rest := by
  cases braced with
  | @empty closing _ closes =>
    have spans : Spans (Expr.sequence [] line).marks (token :: closing :: rest) rest := by
      simp [Expr.marks, Expr.listed, opens, closes]
    exact .ended spans rfl (Nat.le_refl _) rfl
  | @single _ _ element closing reads closes =>
    have derived := sound.expression short reads
    have spans : Spans (Expr.sequence [element] line).marks (token :: tokens) rest := by
      rw [Expr.marks_single, Spans.token_cons_iff]
      refine ⟨opens, derived.spans.trans (Spans.optionalComma_iff.mpr (.inl ?_))⟩
      simpa using closes
    have canonical : (Expr.sequence [element] line).isCanonical = true := by
      simp [Expr.isCanonical, Expr.allCanonical, derived.canonical]
    exact .ended spans canonical (Nat.le_refl _) rfl
  | @many _ others _ first elements comma reads kind more =>
    have derived := sound.expression short reads
    have shorter := reads.shorter
    simp only [List.length_cons] at shorter
    obtain ⟨moreSpans, moreCanonical⟩ := items_sound sound (by omega) (.inr rfl) more
    have spans : Spans (Expr.sequence (first :: elements) line).marks (token :: tokens) rest := by
      cases elements with
      | nil =>
        rw [Expr.marks_single, Spans.token_cons_iff]
        refine ⟨opens, derived.spans.trans (Spans.optionalComma_iff.mpr (.inr ?_))⟩
        exact Spans.token_cons_iff.mpr ⟨kind, moreSpans⟩
      | cons second elements =>
        rw [Expr.marks_several (by simp), Spans.token_cons_iff]
        exact ⟨opens, derived.spans.trans (Spans.token_cons_iff.mpr ⟨kind, moreSpans⟩)⟩
    have canonical : (Expr.sequence (first :: elements) line).isCanonical = true := by
      simp [Expr.isCanonical, Expr.allCanonical, derived.canonical, moreCanonical]
    exact .ended spans canonical (Nat.le_refl _) rfl
  | @infinite _ _ start startLine ellipsis closing reads kind isBound closes =>
    have derived := sound.expression short reads
    have startSpans := derived.spans
    simp only [Expr.marks, Literal.kind] at startSpans
    have spans : Spans (Expr.infinite start line).marks (token :: tokens) rest := by
      have following : Spans [.sign .ellipsis, .sign .rightBrace] (ellipsis :: closing :: rest)
          rest := by
        simp [kind, closes]
      exact Spans.token_cons_iff.mpr ⟨opens, startSpans.trans following⟩
    exact .ended spans isBound (Nat.le_refl _) rfl
  | @range _ others _ start finish startLine finishLine ellipsis closing reads kind isBound
      finishReads finishIsBound closes =>
    have derived := sound.expression short reads
    have shorter := reads.shorter
    simp only [List.length_cons] at shorter
    have finishDerived := sound.expression (by omega) finishReads
    have startSpans := derived.spans
    have finishSpans := finishDerived.spans
    simp only [Expr.marks, Literal.kind] at startSpans finishSpans
    have spans : Spans (Expr.range start finish line).marks (token :: tokens) rest := by
      have closed : Spans [.sign .rightBrace] (closing :: rest) rest := by simpa using closes
      have following := Spans.token_cons_iff.mpr ⟨kind, finishSpans.trans closed⟩
      exact Spans.token_cons_iff.mpr ⟨opens, startSpans.trans following⟩
    have canonical : (Expr.range start finish line).isCanonical = true := by
      simp [Expr.isCanonical, isBound, finishIsBound]
    exact .ended spans canonical (Nat.le_refl _) rfl

/-- The arguments of a declared call are written as its parameters are. -/
theorem listed_of_bareAll_eq {arguments : List Expr} {parameters : List String}
    (named : Expr.bareAll arguments = parameters.map (.constant · 0)) :
    Expr.listed arguments = Mark.names parameters := by
  induction parameters generalizing arguments with
  | nil =>
    cases arguments with
    | nil => rfl
    | cons first others => simp [Expr.bareAll] at named
  | cons name more ih =>
    cases arguments with
    | nil => simp [Expr.bareAll] at named
    | cons first others =>
      simp only [Expr.bareAll, List.map_cons, List.cons.injEq] at named
      obtain ⟨constant, named⟩ := named
      have same := ih named
      cases first with
      | constant found line =>
        simp only [Expr.bare, Expr.constant.injEq, and_true] at constant
        subst constant
        cases more with
        | nil =>
          cases others with
          | nil => rfl
          | cons second others => simp [Expr.bareAll] at named
        | cons second more =>
          have some : others ≠ [] := by
            intro empty
            simp [empty, Expr.bareAll] at named
          rw [Expr.listed_cons some, same]
          rfl
      | _ => simp [Expr.bare] at constant

theorem Instructed.sound {importsAllowed : Bool} {statement : Statement} (sound : Sound bound)
    (rule : Instructed importsAllowed tokens statement rest) (short : tokens.length < bound) :
    Spans statement.marks tokens rest ∧ statement.isCanonical = true ∧
      (statement.isImport = true → importsAllowed = true) := by
  cases rule with
  | expression _ reads =>
    have derived := sound.expression short reads
    exact ⟨derived.spans, derived.canonical, by simp [Statement.isImport]⟩
  | @assign token equals others _ name value kind equalsKind reads =>
    simp only [List.length_cons] at short
    have derived := sound.expression (by omega) reads
    refine ⟨?_, derived.canonical, by simp [Statement.isImport]⟩
    simpa [Statement.marks, kind, equalsKind] using derived.spans
  | @assignMany token equals others middle _ names value several spans equalsKind reads =>
    have shorter := spans.length_le
    simp only [List.length_cons] at short shorter
    have derived := sound.expression (by omega) reads
    refine ⟨spans.trans ?_, ?_, by simp [Statement.isImport]⟩
    · simpa [equalsKind] using derived.spans
    · simp [Statement.isCanonical, several, derived.canonical]
  | @function token equals others middle _ name arguments parameters line body _ reads equalsKind
      named distinct bodyReads flat =>
    have derived := sound.expression short reads
    have shorter := reads.shorter
    simp only [List.length_cons] at short shorter
    have bodyDerived := sound.expression (by omega) bodyReads
    refine ⟨?_, ?_, by simp [Statement.isImport]⟩
    · have spans := derived.spans.trans (Spans.token_cons_iff.mpr ⟨equalsKind, bodyDerived.spans⟩)
      simpa [Expr.marks, Statement.marks, listed_of_bareAll_eq named] using spans
    · simpa [Statement.isCanonical, distinct, bodyDerived.canonical] using flat
  | importFile allowed kind fileKind =>
    exact ⟨by simp [Statement.marks, kind, fileKind], rfl, fun _ => allowed⟩
  | draw kind reads labels =>
    simp only [List.length_cons] at short
    have derived := sound.expression (by omega) reads
    refine ⟨?_, derived.canonical, by simp [Statement.isImport]⟩
    exact Spans.token_cons_iff.mpr ⟨kind, derived.spans.trans labels⟩
  | print kind reads labels =>
    simp only [List.length_cons] at short
    have derived := sound.expression (by omega) reads
    refine ⟨?_, derived.canonical, by simp [Statement.isImport]⟩
    exact Spans.token_cons_iff.mpr ⟨kind, derived.spans.trans labels⟩
  | color kind spans =>
    exact ⟨Spans.token_cons_iff.mpr ⟨kind, spans⟩, rfl, by simp [Statement.isImport]⟩
  | restore kind => exact ⟨by simp [Statement.marks, kind], rfl, by simp [Statement.isImport]⟩
  | random kind _ spans =>
    exact ⟨Spans.token_cons_iff.mpr ⟨kind, spans⟩, rfl, by simp [Statement.isImport]⟩

theorem Body.sound {statements : List Statement} (sound : Sound bound)
    (body : Body tokens statements rest) (short : tokens.length < bound) :
    Spans (Statement.marksAll statements ++ [.word .inWord]) tokens rest ∧
      statements ≠ [] ∧ statements.any Statement.isImport = false ∧
      Statement.allCanonical statements = true := by
  induction body with
  | last rule ends kind =>
    obtain ⟨spans, canonical, noImport⟩ := rule.sound sound short
    refine ⟨?_, by simp, by simpa using noImport, by simp [Statement.allCanonical, canonical]⟩
    rw [Statement.marksAll, Statement.marksAll, List.append_assoc]
    exact spans.trans (by simp [ends, kind])
  | more rule ends body ih =>
    have shorter := rule.reads.shorter
    simp only [List.length_cons] at shorter
    obtain ⟨spans, canonical, noImport⟩ := rule.sound sound short
    obtain ⟨moreSpans, _, noImports, moreCanonical⟩ := ih (by omega)
    refine ⟨?_, by simp, by simp_all, by simp [Statement.allCanonical, canonical, moreCanonical]⟩
    rw [Statement.marksAll, List.append_assoc]
    exact spans.trans (Spans.token_cons_iff.mpr ⟨ends, moreSpans⟩)

theorem Primary.sound (primary : Primary tokens expr rest) (sound : Sound tokens.length) :
    expr.Derived 7 tokens rest := by
  cases primary with
  | @literal token _ value kind =>
    have spans : Spans (Expr.literal value token.line).marks (token :: rest) rest := by
      simp [Expr.marks, kind]
    exact .ended spans rfl (Nat.le_refl _) rfl
  | @undefined token _ kind =>
    have spans : Spans (Expr.undefined token.line).marks (token :: rest) rest := by
      simp [Expr.marks, kind]
    exact .ended spans rfl (Nat.le_refl _) rfl
  | @constant token _ name kind =>
    have spans : Spans (Expr.constant name token.line).marks (token :: rest) rest := by
      simp [Expr.marks, kind]
    exact .ended spans rfl (Nat.le_refl _) rfl
  | call kind opens reads | figure kind opens reads =>
    obtain ⟨spans, canonical⟩ :=
      items_sound sound (by simp only [List.length_cons]; omega) (.inl rfl) reads
    have opened := Spans.token_cons_iff.mpr ⟨opens, spans⟩
    exact .ended (Spans.token_cons_iff.mpr ⟨kind, opened⟩) canonical (Nat.le_refl _) rfl
  | @group token closing others _ inner kind reads closes =>
    have derived := sound.expression (by simp) reads
    have closed : Spans [.sign .rightParen] (closing :: rest) rest := by simpa using closes
    exact .ended (Spans.token_cons_iff.mpr ⟨kind, derived.spans.trans closed⟩)
      derived.canonical (Nat.le_refl _) rfl
  | sequence kind reads => exact (sequence_iff.mp reads).sound sound (by simp) kind
  | conditional kind reads isThen positiveReads isElse negativeReads =>
    have fewer := reads.shorter
    have fewest := positiveReads.shorter
    simp only [List.length_cons] at fewer fewest
    have condition := sound.expression (by simp) reads
    have positive := sound.expression (by simp only [List.length_cons]; omega) positiveReads
    have negative := sound.expression (by simp only [List.length_cons]; omega) negativeReads
    have fromElse := Spans.token_cons_iff.mpr ⟨isElse, negative.spans⟩
    have fromThen := Spans.token_cons_iff.mpr ⟨isThen, positive.spans.trans fromElse⟩
    refine .primary ?_ ?_ (Nat.le_refl _) fun _ => negative.stops
    · simpa [Expr.marks, kind] using Spans.append_iff.mp (condition.spans.trans fromThen)
    · simp [Expr.isCanonical, condition.canonical, positive.canonical, negative.canonical]
  | block kind reads bodyReads =>
    have fewer := reads.shorter
    obtain ⟨spans, some, noImports, canonical⟩ :=
      (instructions_iff.mp reads).sound sound (by simp)
    have body := sound.expression (by simp only [List.length_cons]; omega) bodyReads
    refine .primary ?_ ?_ (Nat.le_refl _) fun _ => body.stops
    · have written := spans.trans body.spans
      rw [List.append_assoc] at written
      exact Spans.token_cons_iff.mpr ⟨kind, written⟩
    · simp_all [Expr.isCanonical, body.canonical]

theorem Signed.sound (signed : Signed tokens expr rest) (sound : Sound tokens.length) :
    expr.Derived 6 tokens rest := by
  cases signed with
  | plain rule =>
    have derived := rule.sound sound
    exact ⟨derived.toTaken, Nat.le_of_succ_le derived.tight, Stops.six⟩
  | signed kind reads =>
    have derived := sound 6 (by decide) _ (by simp) _ _ reads
    have spans := Spans.token_cons_iff.mpr ⟨kind, derived.spans⟩
    refine ⟨⟨spans, ?_, derived.closed⟩, Nat.le_refl _, Stops.six⟩
    simp [Expr.isCanonical, derived.tight, derived.canonical]

/-- What an operator joins is canonical because the left operand, which the operator follows,
does not end open. -/
theorem binary_taken {op : BinaryOperator} {left right : Expr} {token : Token}
    {others : List Token} (leftTaken : left.Taken tokens (token :: others))
    (leftTight : op.leftRank ≤ left.rank) (kind : token.kind = .sign op.sign)
    (derived : right.Derived op.rightRank others rest) :
    (Expr.binary op left right line).Taken tokens rest := by
  have closed : left.endsOpen = false := by
    cases endsOpen : left.endsOpen with
    | false => rfl
    | true => exact absurd (leftTaken.closed endsOpen token rfl op kind) (Nat.not_lt_zero _)
  refine ⟨?_, ?_, derived.closed⟩
  · exact leftTaken.spans.trans (Spans.token_cons_iff.mpr ⟨kind, derived.spans⟩)
  · simp [Expr.isCanonical, leftTight, derived.tight, closed, leftTaken.canonical,
      derived.canonical]

theorem Powers.sound (powers : Powers tokens expr rest) (sound : Sound tokens.length)
    (base : ∀ expr rest, (atRank 6 tokens).Reads expr rest → expr.Derived 6 tokens rest) :
    expr.Derived 5 tokens rest := by
  cases powers with
  | base reads unjoined =>
    have derived := base _ _ reads
    exact ⟨derived.toTaken, Nat.le_of_succ_le derived.tight, derived.stops.loosen unjoined⟩
  | raised reads kind exponentReads =>
    have left := base _ _ reads
    have shorter := reads.shorter
    simp only [List.length_cons] at shorter
    have right := sound 5 (by decide) _ (by omega) _ _ exponentReads
    exact ⟨binary_taken left.toTaken left.tight kind right, Nat.le_refl _, right.stops⟩

theorem Joins.sound {left : Expr} (joins : Joins rank left middle expr rest) (level : rank < 5)
    (sound : Sound tokens.length) (shorter : middle.length < tokens.length)
    (derived : left.Derived (rank + 1) tokens middle) :
    expr.Taken tokens rest ∧ rank ≤ expr.rank ∧ Stops (rank + 1) rest := by
  induction joins with
  | none => exact ⟨derived.toTaken, Nat.le_of_succ_le derived.tight, derived.stops⟩
  | @more joined right op token others _ joins kind same reads ih =>
    obtain ⟨taken, tight, _⟩ := ih
    have fewer := joins.length_le
    simp only [List.length_cons] at fewer
    subst same
    obtain ⟨leftRank, rightRank⟩ := BinaryOperator.ranks_of_lt level
    have right := sound (op.rank + 1) (by omega) _ (by omega) _ _ reads
    rw [← rightRank] at right ⊢
    exact ⟨binary_taken taken (leftRank ▸ tight) kind right, Nat.le_refl _, right.stops⟩

theorem atRank_sound (sound : Sound tokens.length) (bounded : rank ≤ 7)
    (reads : (atRank rank tokens).Reads expr rest) : expr.Derived rank tokens rest := by
  induction rank, bounded using rank_induction generalizing expr rest with
  | primary => exact (primary_iff.mp reads).sound sound
  | unary _ => exact (unary_iff.mp reads).sound sound
  | power ih => exact (power_iff.mp reads).sound sound fun _ _ => ih
  | level rank level ih =>
    obtain ⟨first, middle, firstReads, joins, unjoined⟩ := (atRank_of_lt level).mp reads
    obtain ⟨taken, tight, stops⟩ :=
      joins.sound level sound firstReads.shorter (ih firstReads)
    exact ⟨taken, tight, stops.loosen unjoined⟩

theorem sound (bound : Nat) : Sound bound := by
  induction bound with
  | zero =>
    intro rank _ tokens short
    exact absurd short (Nat.not_lt_zero _)
  | succ bound ih =>
    intro rank bounded tokens short expr rest reads
    have fewer : Sound tokens.length := by
      intro rank bounded inner shorter
      exact ih rank bounded inner (by omega)
    exact atRank_sound fewer bounded reads

theorem Accepted.sound {importsAllowed : Bool} {program : Program}
    (accepted : Accepted importsAllowed tokens program rest) :
    Spans program.marks tokens rest ∧ program.isCanonical = true ∧
      (importsAllowed = false → program.any Statement.isImport = false) := by
  induction accepted with
  | done => simp [Program.marks, Program.isCanonical, Statement.marksAll, Statement.allCanonical]
  | @more allowed token semicolon others middle rest first program rule ends _ ih =>
    obtain ⟨spans, canonical, importAllowed⟩ :=
      rule.sound (Parse.sound _) (Nat.lt_succ_self _)
    obtain ⟨moreSpans, moreCanonical, noImports⟩ := ih
    simp only [Program.isCanonical, Bool.and_eq_true, Bool.not_eq_true'] at moreCanonical ⊢
    refine ⟨spans.trans (Spans.token_cons_iff.mpr ⟨ends, moreSpans⟩), ⟨?_, ?_⟩, ?_⟩
    · simp [Statement.allCanonical, canonical, moreCanonical.1]
    · cases isImport : first.isImport with
      | true => simpa [List.dropWhile_cons, isImport] using moreCanonical.2
      | false =>
        have word : token.kind ≠ .keyword .importWord := by
          intro word
          simp [rule.isImport word] at isImport
        have noMore := noImports (by simp [word])
        simpa [List.dropWhile_cons, isImport] using noMore
    · intro forbidden
      have noMore := noImports (by simp [forbidden])
      have notFirst : first.isImport = false := by
        cases isImport : first.isImport with
        | false => rfl
        | true =>
          have allowed := importAllowed isImport
          simp [forbidden] at allowed
      simp [notFirst, noMore]

/-- Whatever could be read is canonical, also where something else could not be read. -/
theorem ofTokens_canonical (importsAllowed : Bool) (tokens : List Token) :
    Statement.allCanonical (Parsed.ofTokens importsAllowed tokens).program = true := by
  refine ofTokens_induction (motive := fun _ program => Statement.allCanonical program = true)
    ?none ?more ?skipped importsAllowed tokens
  case none => exact fun _ => rfl
  case more =>
    intro allowed token others statement rest program rule later
    obtain ⟨_, canonical, _⟩ := rule.sound (Parse.sound _) (Nat.lt_succ_self _)
    simp [Statement.allCanonical, canonical, later]
  case skipped => exact fun _ _ _ later => later

theorem Accepted.ends {importsAllowed : Bool} {program : Program}
    (accepted : Accepted importsAllowed tokens program rest) :
    ∀ token ∈ rest.head?, token.kind = .endOfInput := by
  induction accepted with
  | done ends => exact ends
  | more _ _ _ ih => exact ih

end Parse

theorem Program.marks_semicolon {program : Program} (some : program ≠ []) :
    ∃ marks, program.marks = marks ++ [.sign .semicolon] := by
  induction program with
  | nil => contradiction
  | cons first more ih =>
    cases more with
    | nil => exact ⟨first.marks, rfl⟩
    | cons second more =>
      obtain ⟨marks, same⟩ := ih (by simp)
      refine ⟨first.marks ++ .sign .semicolon :: marks, ?_⟩
      rw [Program.marks, Statement.marksAll, ← Program.marks, same]
      simp

/-- The end of input is no part of a program, each of whose instructions ends in a semicolon. -/
theorem Spans.ends {program : Program} {tokens rest : List Token} {last : Token}
    (ends : last.kind = .endOfInput) (spans : Spans program.marks (tokens ++ [last]) rest) :
    rest ≠ [] := by
  intro empty
  subst empty
  by_cases some : program = []
  · subst some
    simp [Program.marks, Statement.marksAll] at spans
  · obtain ⟨marks, same⟩ := Program.marks_semicolon some
    rw [same] at spans
    obtain ⟨middle, ⟨used, split, _⟩, semicolonSpans⟩ := Spans.append_iff.mp spans
    obtain ⟨semicolon, rfl, kind⟩ := Spans.single_iff.mp semicolonSpans
    have same := List.append_inj_right' split rfl
    simp only [List.cons.injEq, and_true] at same
    simp [← same, ends] at kind

/-- A program read without errors is written with the very tokens it was read from, and its
operands stand as rank and association ask for. -/
theorem parse_spells {tokens : List Token} {last : Token} (ends : last.kind = .endOfInput)
    (only : ∀ token ∈ tokens, token.kind ≠ .endOfInput)
    (noErrors : (parse (tokens ++ [last])).errors = []) :
    Spells (parse (tokens ++ [last])).program.marks (tokens.map Token.kind) ∧
      (parse (tokens ++ [last])).program.isCanonical = true := by
  obtain ⟨rest, accepted⟩ := Parse.ofTokens_accepted noErrors
  obtain ⟨spans, canonical, _⟩ := accepted.sound
  refine ⟨?_, canonical⟩
  have left := spans.ends ends
  obtain ⟨used, split, spells⟩ := spans
  cases rest with
  | nil => contradiction
  | cons token after =>
    have kind := accepted.ends token rfl
    rcases List.eq_nil_or_concat after with rfl | ⟨others, final, rfl⟩
    · obtain ⟨rfl, _⟩ := List.append_inj' split rfl
      exact spells
    · have whole : tokens ++ [last] = (used ++ token :: others) ++ [final] := by simpa using split
      obtain ⟨rfl, _⟩ := List.append_inj' whole rfl
      exact absurd kind (only token (by simp))

/-- A sequence with a comma after its only element, and a color named by a string. -/
def spelledFreely : List Token :=
  [.sign .leftBrace, .identifier "x", .sign .comma, .sign .rightBrace, .sign .semicolon,
    .keyword .color, .string "Red", .sign .semicolon].map fun kind => ⟨kind, "", 1⟩

theorem parse_spells_freely :
    (parse (spelledFreely ++ [⟨.endOfInput, "", 1⟩])).errors = [] ∧
      Spells (parse (spelledFreely ++ [⟨.endOfInput, "", 1⟩])).program.marks
        (spelledFreely.map Token.kind) ∧
      (parse (spelledFreely ++ [⟨.endOfInput, "", 1⟩])).program.isCanonical = true := by
  have noErrors : (parse (spelledFreely ++ [⟨.endOfInput, "", 1⟩])).errors = [] := by cbv
  exact ⟨noErrors, parse_spells rfl (by simp [spelledFreely]) noErrors⟩

end GSharp
