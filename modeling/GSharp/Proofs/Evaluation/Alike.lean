import GSharp.Proofs.Evaluation.Balance
import GSharp.Proofs.Scope.Alike

namespace GSharp

open Evaluation

variable {R : Nat → Nat → Prop} {earlier : List Event} {line line' : Nat}

/-- Both give related values, fail alike, or crash for the same reason. -/
inductive AlikeEnds {α β : Type} (R : Nat → Nat → Prop) (V : α → β → Prop) :
    Except Stop α → Except Stop β → Prop where
  | ok {value : α} {value' : β} (related : V value value') : AlikeEnds R V (.ok value) (.ok value')
  | failed {one two : EvalError} (alike : one.Alike R two) :
      AlikeEnds R V (.error (.failed one)) (.error (.failed two))
  | crashed (reason : Option String) :
      AlikeEnds R V (.error (.crashed reason)) (.error (.crashed reason))

/-- From states that are related the two computations end alike, in states that are related. -/
def Alongside {σ α β : Type} (S : σ → σ → Prop) (R : Nat → Nat → Prop) (V : α → β → Prop)
    (first : ExceptT Stop (StateM σ) α) (second : ExceptT Stop (StateM σ) β) : Prop :=
  ∀ one two, S one two →
    AlikeEnds R V (first.run one).1 (second.run two).1 ∧ S (first.run one).2 (second.run two).2

namespace Alongside

variable {σ α β γ δ : Type} {S : σ → σ → Prop} {V : α → β → Prop} {W : γ → δ → Prop}

theorem done {value : α} {value' : β} (related : V value value') :
    Alongside S R V (pure value) (pure value') := fun _ _ states => ⟨.ok related, states⟩

theorem crash (reason : Option String) :
    Alongside S R V (throw (.crashed reason)) (throw (.crashed reason)) :=
  fun _ _ states => ⟨.crashed reason, states⟩

theorem throw {one two : EvalError} (alike : one.Alike R two) :
    Alongside S R V (throw (.failed one)) (throw (.failed two)) :=
  fun _ _ states => ⟨.failed alike, states⟩

theorem andThen {first : ExceptT Stop (StateM σ) α} {second : ExceptT Stop (StateM σ) β}
    {next : α → ExceptT Stop (StateM σ) γ} {next' : β → ExceptT Stop (StateM σ) δ}
    (start : Alongside S R V first second)
    (rest : ∀ value value', V value value' → Alongside S R W (next value) (next' value')) :
    Alongside S R W (first >>= next) (second >>= next') := by
  intro one two states
  have begun := start one two states
  rw [run_bind, run_bind]
  revert begun
  rcases first.run one with ⟨end₁, after₁⟩
  rcases second.run two with ⟨end₂, after₂⟩
  rintro ⟨ends, states⟩
  cases ends with
  | ok related => exact rest _ _ related _ _ states
  | failed alike => exact ⟨.failed alike, states⟩
  | crashed reason => exact ⟨.crashed reason, states⟩

/-- The same value on both sides. -/
theorem bind {first second : ExceptT Stop (StateM σ) α} {next : α → ExceptT Stop (StateM σ) γ}
    {next' : α → ExceptT Stop (StateM σ) δ} (start : Alongside S R Eq first second)
    (rest : ∀ value, Alongside S R W (next value) (next' value)) :
    Alongside S R W (first >>= next) (second >>= next') :=
  start.andThen fun value _ same => same ▸ rest value

/-- What follows a look at the state may rely on the states seen. -/
theorem getThen {next : σ → ExceptT Stop (StateM σ) α} {next' : σ → ExceptT Stop (StateM σ) β}
    (follows : ∀ one two, S one two →
      AlikeEnds R V ((next one).run one).1 ((next' two).run two).1 ∧
        S ((next one).run one).2 ((next' two).run two).2) :
    Alongside S R V (get >>= next) (get >>= next') := follows

/-- A change that leads from related states to related ones. -/
theorem modify (change change' : σ → σ)
    (kept : ∀ one two, S one two → S (change one) (change' two)) :
    Alongside S R Eq (modify change : ExceptT Stop (StateM σ) Unit) (modify change') :=
  fun one two states => ⟨.ok rfl, kept one two states⟩

/-- What cannot fail ends alike from one state. -/
theorem lift (computation : StateM σ α) :
    Alongside Eq R Eq (liftM computation : ExceptT Stop (StateM σ) α) (liftM computation) := by
  rintro state _ rfl
  exact ⟨.ok rfl, rfl⟩

end Alongside

namespace Library

theorem draw_alongside {α : Type} (draw : Generator.Sampling α) :
    Alongside Eq R Eq (Library.draw draw) (Library.draw draw) := by
  rintro library _ rfl
  simp only [Library.draw, ExceptT.run]
  cases draw library.generator with
  | ok drawn => exact ⟨.ok rfl, trivial⟩
  | error text => exact ⟨.crashed _, trivial⟩

variable (lines : R line line')

include lines

theorem sample_alongside (lower upper : Float) :
    Alongside Eq R Eq (sample lower upper line) (sample lower upper line') := by
  unfold sample
  split
  · exact .throw ⟨rfl, lines⟩
  · exact draw_alongside _

theorem along_alongside (first second : Point) (lower upper : Float) :
    Alongside Eq R Eq (along first second lower upper line)
      (along first second lower upper line') := by
  simp only [along]
  split
  · exact .done rfl
  · exact .bind (sample_alongside lines _ _) fun _ => .done rfl

theorem pointOn_alongside (figure : Figure) :
    Alongside Eq R Eq (pointOn figure line) (pointOn figure line') := by
  cases figure with
  | point | measure => exact .done rfl
  | segment first second => exact .bind (along_alongside lines _ _ _ _) fun _ => .done rfl
  | ray origin through =>
    exact .bind (.lift _) fun _ => .bind (along_alongside lines _ _ _ _) fun _ => .done rfl
  | line first second =>
    exact .bind (.lift _) fun _ => .bind (along_alongside lines _ _ _ _) fun _ => .done rfl
  | circle c => exact .bind (draw_alongside _) fun _ => .done rfl
  | arc a => exact .bind (sample_alongside lines _ _) fun _ => .done rfl

end Library

namespace Builtin

theorem lift_alongside {α : Type} {first second : Except EvalError α}
    (alike : AlikeResults R Eq first second) : Alongside Eq R Eq (lift first) (lift second) := by
  cases alike with
  | ok same => exact .done same
  | error alike => exact .throw alike

theorem apply_alongside (builtin : Builtin) (arguments : List Value) (lines : R line line') :
    Alongside Eq R Eq (builtin.apply arguments line) (builtin.apply arguments line') := by
  unfold apply
  split
  · exact .bind (.lift _) fun _ => .done rfl
  · exact .bind (.lift _) fun _ => .done rfl
  · exact .bind (lift_alongside (figureOf_alike lines _ _)) fun figure =>
      .bind (Library.pointOn_alongside lines figure) fun _ => .done rfl
  · have results := pure?_alike lines builtin arguments
    revert results
    cases builtin.pure? arguments line <;> cases builtin.pure? arguments line' <;>
      intro results <;> cases results
    case none => exact .throw ⟨rfl, lines⟩
    case some alike => exact lift_alongside alike

end Builtin

/-- States that differ in the lines of the functions at most, and in what the second host has been
shown before the comparison began. -/
structure Context.Alike (R : Nat → Nat → Prop) (earlier : List Event) (one two : Context) :
    Prop where
  scope : one.scope.Alike R two.scope
  library : two.library = one.library
  settings : two.settings = one.settings
  host : two.host = one.host
  files : two.files = one.files
  log : two.log = one.log ++ earlier
  callDepth : two.callDepth = one.callDepth
  imported : two.imported = one.imported

/-- On states that are alike, the two computations give the same or end alike. -/
abbrev Evaluation.Parallel {α : Type} (R : Nat → Nat → Prop) (earlier : List Event)
    (first second : Evaluation α) : Prop := Alongside (Context.Alike R earlier) R Eq first second

/-- Function bodies are entered by both or by neither, and are evaluated in parallel. -/
def Beyond.Alike (R : Nat → Nat → Prop) (earlier : List Event) (one two : Beyond) : Prop :=
  Option.Rel (fun evalBody evalBody' => ∀ body body' : Expr, body.Alike R body' →
    Parallel R earlier (evalBody body) (evalBody' body')) one.body? two.body?

namespace Evaluation

variable {α β : Type}

theorem ofExcept_alongside {S : Context → Context → Prop} {V : α → β → Prop}
    {first : Except EvalError α} {second : Except EvalError β}
    (alike : AlikeResults R V first second) :
    Alongside S R V (ofExcept first) (ofExcept second) := by
  cases alike with
  | ok related => exact .done related
  | error alike => exact .throw alike

theorem fail_alongside {S : Context → Context → Prop} {V : α → β → Prop} (fault : EvalFault)
    (lines : R line line') : Alongside S R V (fail fault line) (fail fault line') :=
  .throw ⟨rfl, lines⟩

theorem attempt_alongside {S : Context → Context → Prop} {V : α → β → Prop}
    {body : Evaluation α} {body' : Evaluation β} (alongside : Alongside S R V body body') :
    Alongside S R (AlikeResults R V) (attempt body) (attempt body') := by
  intro one two states
  have ended := alongside one two states
  revert ended
  simp only [attempt, ExceptT.run]
  rcases body one with ⟨end₁, after₁⟩
  rcases body' two with ⟨end₂, after₂⟩
  rintro ⟨ends, states⟩
  cases ends with
  | ok related => exact ⟨.ok (.ok related), states⟩
  | failed alike => exact ⟨.ok (.error alike), states⟩
  | crashed reason => exact ⟨.crashed reason, states⟩

theorem draw_parallel {first second : Draw α} (alongside : Alongside Eq R Eq first second) :
    Parallel R earlier (draw first) (draw second) := by
  intro one two states
  have drawn := alongside one.library two.library states.library.symm
  exact ⟨drawn.1, { states with library := drawn.2.symm }⟩

theorem emit_parallel (event : Event) : Parallel R earlier (emit event) (emit event) :=
  .modify _ _ fun _ _ states => { states with log := congrArg (event :: ·) states.log }

/-- Both scopes are changed alike. -/
theorem changeScope_parallel (change : Scope → Scope)
    (kept : ∀ one two : Scope, one.Alike R two → (change one).Alike R (change two)) :
    Parallel R earlier (do setScope (change (← get).scope)) (do setScope (change (← get).scope)) :=
  .getThen fun _ _ states => ⟨.ok rfl, { states with scope := kept _ _ states.scope }⟩

theorem updateScope_parallel {update update' : Scope → Except EvalError Scope}
    (alike : ∀ one two : Scope, one.Alike R two →
      AlikeResults R (Scope.Alike R) (update one) (update' two)) :
    Parallel R earlier (updateScope update) (updateScope update') := by
  refine .getThen fun one two states => ?_
  have updated := alike one.scope two.scope states.scope
  revert updated
  cases update one.scope <;> cases update' two.scope <;> intro updated <;> cases updated
  case error.error alike => exact ⟨.failed alike, states⟩
  case ok.ok scope => exact ⟨.ok rfl, { states with scope }⟩

theorem setConstant_parallel (name : String) (value : Value) (lines : R line line') :
    Parallel R earlier (updateScope fun scope => scope.setConstant name value line)
      (updateScope fun scope => scope.setConstant name value line') :=
  updateScope_parallel fun _ _ alike => alike.setConstant name value lines

theorem inFrame_parallel {body body' : Evaluation α} (parallel : Parallel R earlier body body') :
    Parallel R earlier (inFrame body) (inFrame body') := by
  intro one two states
  have entered : Context.Alike R earlier { one with scope := one.scope.enter }
      { two with scope := two.scope.enter } := { states with scope := states.scope.enter }
  obtain ⟨ends, after⟩ := parallel _ _ entered
  exact ⟨ends, { after with scope := after.scope.exit }⟩

theorem inCall_parallel {body body' : Evaluation α} (parallel : Parallel R earlier body body') :
    Parallel R earlier (inCall body) (inCall body') := by
  intro one two states
  have deeper : Context.Alike R earlier { one with callDepth := one.callDepth + 1 }
      { two with callDepth := two.callDepth + 1 } :=
    { states with callDepth := congrArg (· + 1) states.callDepth }
  obtain ⟨ends, after⟩ := parallel _ _ deeper
  exact ⟨ends, { after with callDepth := congrArg (· - 1) after.callDepth }⟩

theorem bindArguments_parallel (names : List String) (values : List Value) :
    Parallel R earlier (bindArguments names values) (bindArguments names values) := by
  induction names generalizing values with
  | nil => exact .done rfl
  | cons name names ih =>
    cases values with
    | nil => exact .done rfl
    | cons value values =>
      have bound : Parallel R earlier
          (do setScope ((← get).scope.setArgument name value) : Evaluation Unit)
          (do setScope ((← get).scope.setArgument name value)) :=
        changeScope_parallel (·.setArgument name value) fun _ _ alike =>
          alike.setArgument name value
      rw [bindArguments, ← bind_assoc]
      exact .bind bound fun _ => ih values

theorem assignEach_parallel (names : List String) (values : List Value) (lines : R line line') :
    Parallel R earlier (assignEach line names values) (assignEach line' names values) := by
  induction names generalizing values with
  | nil => exact .done rfl
  | cons name names ih => exact .bind (setConstant_parallel _ _ lines) fun _ => ih values.tail

theorem drawFigures_parallel (label : Option String) (figures : List Figure) :
    Parallel R earlier (drawFigures label figures) (drawFigures label figures) := by
  induction figures with
  | nil => exact .done rfl
  | cons first rest ih =>
    refine .getThen fun one two states => ?_
    rw [states.scope.color]
    exact Alongside.bind (emit_parallel _) (fun _ => ih) one two states

theorem drawValue_parallel (value : Value) (label : Option String) (lines : R line line') :
    Parallel R earlier (drawValue value label line) (drawValue value label line') := by
  refine .bind (drawFigures_parallel label _) fun _ => ?_
  cases value.drawing.stopped with
  | some fault => exact fail_alongside fault lines
  | none => exact .done rfl

theorem print_parallel (text : String) : Parallel R earlier (print text) (print text) := by
  refine .getThen fun one two states => ?_
  rw [states.host]
  cases one.host.refusal text with
  | some reason => exact Alongside.crash reason one two states
  | none => exact emit_parallel _ one two states

theorem randomValue_parallel (kind : FigureKind) (isSequence : Bool) :
    Parallel R earlier (randomValue kind isSequence) (randomValue kind isSequence) := by
  refine draw_parallel ?_
  cases isSequence <;> exact .lift _

section Beyond

variable {one two : Beyond} (ways : one.Alike R earlier two)

include ways

theorem callDeclared_parallel (name : String) (arguments : List Value) (lines : R line line') :
    Parallel R earlier (callDeclared one name arguments line)
      (callDeclared two name arguments line') := by
  refine .getThen fun first second states => ?_
  have found := states.scope.function? name
  revert found
  cases first.scope.function? name <;> cases second.scope.function? name <;> intro found <;>
    cases found
  case none => exact fail_alongside _ lines first second states
  case some function function' alike =>
    dsimp only
    rw [alike.parameters]
    by_cases mismatch : arguments.length ≠ function.parameters.length
    · simp only [if_pos mismatch]
      exact fail_alongside _ lines first second states
    · simp only [if_neg mismatch]
      have entries := ways
      unfold Beyond.Alike at entries
      revert entries
      cases one.body? <;> cases two.body? <;> intro entries <;> cases entries
      case none =>
        rw [states.callDepth]
        exact fail_alongside _ lines first second states
      case some entered =>
        have called := Alongside.bind
          (bindArguments_parallel function.parameters arguments) fun _ => entered _ _ alike.body
        exact inCall_parallel (inFrame_parallel called) first second states

theorem call_parallel (name : String) (arguments : List Value) (lines : R line line') :
    Parallel R earlier (call one name arguments line) (call two name arguments line') := by
  unfold call
  split
  · exact draw_parallel (Builtin.apply_alongside _ _ lines)
  · exact callDeclared_parallel ways name arguments lines

end Beyond

end Evaluation

-- The induction is on the tree; the trees are alike, so that each case has its two sides.
mutual

theorem Expr.eval_parallel {one two : Beyond} (ways : one.Alike R earlier two) (e e' : Expr)
    (alike : e.Alike R e') : Parallel R earlier (e.eval one) (e'.eval two) := by
  cases e <;> cases alike
  case literal | undefined | infinite | range => exact .done rfl
  case constant name _ _ lines =>
    exact .getThen fun first second states =>
      ofExcept_alongside (states.scope.get name lines) first second states
  case group inner _ inner' _ alike _ => exact Expr.eval_parallel ways inner inner' alike
  case unary op operand _ _ _ alike lines =>
    exact .bind (Expr.eval_parallel ways operand _ alike) fun value =>
      ofExcept_alongside (op.apply_alike lines value)
  case binary op left right _ _ _ _ leftAlike rightAlike lines =>
    exact .bind (Expr.eval_parallel ways left _ leftAlike) fun a =>
      .bind (Expr.eval_parallel ways right _ rightAlike) fun b =>
        ofExcept_alongside (op.apply_alike lines a b)
  case conditional condition positive negative _ _ _ _ _ conditionAlike positiveAlike
      negativeAlike lines =>
    refine .bind (Expr.eval_parallel ways condition _ conditionAlike) fun value => ?_
    refine .bind (ofExcept_alongside (value.asBoolean_alike lines)) fun chosen => ?_
    cases chosen with
    | true => exact Expr.eval_parallel ways positive _ positiveAlike
    | false => exact Expr.eval_parallel ways negative _ negativeAlike
  case block instructions body _ _ _ _ instructionsAlike bodyAlike _ =>
    exact inFrame_parallel <|
      .bind (Statement.evalAll_parallel ways instructions _ instructionsAlike) fun _ =>
        Expr.eval_parallel ways body _ bodyAlike
  case call name arguments _ _ _ alike lines =>
    exact .bind (Expr.evalAll_parallel ways arguments _ alike) fun values =>
      call_parallel ways name values lines
  case figure kind arguments _ _ _ alike lines =>
    exact .bind (Expr.evalAll_parallel ways arguments _ alike) fun values =>
      draw_parallel (Builtin.apply_alongside _ _ lines)
  case sequence elements _ _ _ alike lines =>
    exact .bind (Expr.evalAll_parallel ways elements _ alike) fun values =>
      ofExcept_alongside ((Sequence.ofList_alike lines values).map _)
termination_by structural e

theorem Expr.evalAll_parallel {one two : Beyond} (ways : one.Alike R earlier two)
    (es es' : List Expr) (alike : es.Forall₂ (Expr.Alike R) es') :
    Parallel R earlier (Expr.evalAll one es) (Expr.evalAll two es') := by
  cases es <;> cases alike
  case nil => exact .done rfl
  case cons first rest _ _ firstAlike restAlike =>
    exact .bind (Expr.eval_parallel ways first _ firstAlike) fun _ =>
      .bind (Expr.evalAll_parallel ways rest _ restAlike) fun _ => .done rfl
termination_by structural es

theorem Statement.eval_parallel {one two : Beyond} (ways : one.Alike R earlier two)
    (statement statement' : Statement) (alike : statement.Alike R statement') :
    Parallel R earlier (statement.eval one) (statement'.eval two) := by
  cases statement <;> cases alike
  case expression value _ _ _ alike _ =>
    exact .bind (Expr.eval_parallel ways value _ alike) fun _ => .done rfl
  case assign name value _ _ _ alike lines =>
    exact .bind (Expr.eval_parallel ways value _ alike) fun _ =>
      .bind (setConstant_parallel name _ lines) fun _ => .done rfl
  case assignMany names value _ _ _ alike lines =>
    exact .bind (Expr.eval_parallel ways value _ alike) fun value =>
      .bind (ofExcept_alongside (value.asSequence_alike lines)) fun _ =>
        .bind (assignEach_parallel names _ lines) fun _ => .done rfl
  case function name parameters _ _ _ _ alike lines =>
    exact .bind (ofExcept_alongside (Builtin.checkName_alike lines name)) fun _ =>
      .bind (updateScope_parallel fun _ _ scopes => scopes.declare ⟨rfl, rfl, alike, lines⟩)
        fun _ => .done rfl
  case draw value label _ _ _ alike lines =>
    exact .bind (Expr.eval_parallel ways value _ alike) fun _ =>
      .bind (drawValue_parallel _ label lines) fun _ => .done rfl
  case print value _ _ _ _ alike _ =>
    exact .bind (Expr.eval_parallel ways value _ alike) fun _ =>
      .bind (print_parallel _) fun _ => .done rfl
  case color color _ _ _ =>
    have pushed : Parallel R earlier (do setScope ((← get).scope.pushColor color) : Evaluation Unit)
        (do setScope ((← get).scope.pushColor color)) :=
      changeScope_parallel (·.pushColor color) fun _ _ alike => alike.pushColor color
    rw [Statement.eval, Statement.eval, ← bind_assoc]
    exact .bind pushed fun _ => .done rfl
  case restore =>
    have restored : Parallel R earlier (do setScope (← get).scope.restoreColor : Evaluation Unit)
        (do setScope (← get).scope.restoreColor) :=
      changeScope_parallel Scope.restoreColor fun _ _ alike => alike.restoreColor
    rw [Statement.eval, Statement.eval, ← bind_assoc]
    exact .bind restored fun _ => .done rfl
  case random kind isSequence name _ _ lines =>
    exact .bind (randomValue_parallel kind isSequence) fun _ =>
      .bind (setConstant_parallel name _ lines) fun _ => .done rfl
termination_by structural statement

theorem Statement.evalAll_parallel {one two : Beyond} (ways : one.Alike R earlier two)
    (instructions instructions' : List Statement)
    (alike : instructions.Forall₂ (Statement.Alike R) instructions') :
    Parallel R earlier (Statement.evalAll one instructions)
      (Statement.evalAll two instructions') := by
  cases instructions <;> cases alike
  case nil => exact .done rfl
  case cons first rest _ _ firstAlike restAlike =>
    exact .bind (Statement.eval_parallel ways first _ firstAlike) fun _ =>
      Statement.evalAll_parallel ways rest _ restAlike
termination_by structural instructions

end

/-- The same value, and errors that are alike one by one. -/
structure Program.Agrees (R : Nat → Nat → Prop) (one two : Option Value × List EvalError) :
    Prop where
  value : two.1 = one.1
  errors : one.2.Forall₂ (Located.Alike R) two.2

/-- An instruction that ends alike on both sides, and then programs that agree. -/
theorem Program.eval_cons_alongside {S : Context → Context → Prop} {one two : Beyond}
    {first first' : Statement} {rest rest' : Program}
    (start : Alongside S R Eq (first.eval one) (first'.eval two))
    (later : Alongside S R (Program.Agrees R) (Program.eval one rest) (Program.eval two rest')) :
    Alongside S R (Program.Agrees R) (Program.eval one (first :: rest))
      (Program.eval two (first' :: rest')) := by
  refine .andThen (attempt_alongside start) fun outcome outcome' attempted => ?_
  refine .andThen later fun ended ended' agrees => ?_
  obtain ⟨value, errors⟩ := ended
  obtain ⟨value', errors'⟩ := ended'
  obtain ⟨rfl, alike⟩ := agrees
  cases attempted with
  | ok same => exact .done ⟨congrArg (Option.or _) same.symm, alike⟩
  | error first => exact .done ⟨rfl, .cons first alike⟩

theorem Program.eval_alongside {one two : Beyond} (ways : one.Alike R earlier two)
    {program program' : Program} (alike : program.Forall₂ (Statement.Alike R) program') :
    Alongside (Context.Alike R earlier) R (Program.Agrees R) (program.eval one)
      (program'.eval two) := by
  induction alike with
  | nil => exact .done ⟨rfl, .nil⟩
  | cons first _ ih => exact Program.eval_cons_alongside (Statement.eval_parallel ways _ _ first) ih

namespace Beyond

theorem ofCalls_alike (program : Nat → Program → Evaluation (List EvalError)) (calls : Nat) :
    (ofCalls program calls).Alike R earlier (ofCalls program calls) := by
  induction calls with
  | zero => exact .none
  | succ calls ih => exact .some fun body body' alike => Expr.eval_parallel ih body body' alike

theorem ofBounds_alike (files calls : Nat) :
    (ofBounds files calls).Alike R earlier (ofBounds files calls) := by
  cases files <;> exact ofCalls_alike _ calls

end Beyond

end GSharp
