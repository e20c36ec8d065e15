import GSharp.Proofs.Evaluation.Balance
import GSharp.Proofs.Scope.WellFormed

/-!
Two runs side by side. As long as both find the same, they do the same: they give the same values,
run into the same errors and show the same to their hosts. Where they need not find the same is a
matter of terms, which say what the libraries must have in common, what the programs keep to, and
what ends the comparison.
-/
namespace GSharp

open Evaluation

/-- What a tree may do beyond working on its own values. -/
inductive Act where
  | call (name : String)
  | random
  | importFile (path : String)

mutual

/-- All that an expression may do, the bodies of the functions declared in it included. -/
def Expr.acts : Expr → List Act
  | .literal _ _ | .undefined _ | .constant _ _ | .infinite _ _ | .range _ _ _ => []
  | .group inner _ => inner.acts
  | .unary _ operand _ => operand.acts
  | .binary _ left right _ => left.acts ++ right.acts
  | .conditional condition positive negative _ =>
    condition.acts ++ (positive.acts ++ negative.acts)
  | .block instructions body _ => Statement.actsAll instructions ++ body.acts
  | .call name arguments _ => .call name :: Expr.actsAll arguments
  | .figure _ arguments _ => Expr.actsAll arguments
  | .sequence elements _ => Expr.actsAll elements

def Expr.actsAll : List Expr → List Act
  | [] => []
  | first :: rest => first.acts ++ Expr.actsAll rest

def Statement.acts : Statement → List Act
  | .expression value _ | .assign _ value _ | .assignMany _ value _ | .draw value _ _
  | .print value _ _ => value.acts
  | .function _ _ body _ => body.acts
  | .importFile path _ => [.importFile path]
  | .color _ _ | .restore _ => []
  | .random _ _ _ _ => [.random]

def Statement.actsAll : List Statement → List Act
  | [] => []
  | first :: rest => first.acts ++ Statement.actsAll rest

end

/-- The text that tells of a call that was refused. -/
def overflowText : String := "Stack overflow: more than "

/-- The fault is a refused call, or an import whose details tell of one. -/
def EvalFault.Tells : EvalFault → Prop
  | .stackOverflow _ => True
  | .importFailed _ details => overflowText.toList <:+: details.toList
  | _ => False

theorem Builtin.name_of_ofName? {name : String} {builtin : Builtin}
    (found : ofName? name = some builtin) : builtin.name = name := by
  unfold ofName? at found
  simpa using List.find?_some found

theorem infix_intercalate {separator text : String} {texts : List String} (present : text ∈ texts) :
    text.toList <:+: (separator.intercalate texts).toList := by
  induction texts with
  | nil => cases present
  | cons first rest ih =>
    cases rest with
    | nil =>
      rw [List.mem_singleton.mp present, String.intercalate_singleton]
    | cons second rest =>
      rw [String.intercalate_cons_cons, String.toList_append, String.toList_append]
      rcases List.mem_cons.mp present with rfl | later
      · exact (List.prefix_append ..).isInfix.trans (List.prefix_append ..).isInfix
      · exact (ih later).trans (List.suffix_append ..).isInfix

theorem infix_append {text before middle after : String}
    (within : text.toList <:+: middle.toList) :
    text.toList <:+: (before ++ middle ++ after).toList := by
  rw [String.toList_append, String.toList_append]
  exact within.trans ((List.suffix_append ..).isInfix.trans (List.prefix_append ..).isInfix)

theorem EvalFault.Tells.message {fault : EvalFault} (tells : fault.Tells) :
    overflowText.toList <:+: fault.message.toList := by
  cases fault with
  | stackOverflow depth =>
    change _ <:+: (overflowText ++ Nat.repr depth ++ " nested function calls.").toList
    rw [String.toList_append, String.toList_append, List.append_assoc]
    exact (List.prefix_append ..).isInfix
  | importFailed path details =>
    simp only [EvalFault.Tells] at tells
    exact infix_append tells
  | _ => exact tells.elim

/-- One of the errors tells of a refused call. -/
def Evaluation.Tell (errors : List EvalError) : Prop := ∃ error ∈ errors, error.fault.Tells

/-- What a file has to tell, the error of its import tells. -/
theorem Evaluation.describe_tells {errors : List EvalError} (tell : Tell errors) :
    overflowText.toList <:+: (describe EvalFault.message errors).toList := by
  obtain ⟨error, present, tells⟩ := tell
  refine List.IsInfix.trans ?_ (infix_intercalate (List.mem_map_of_mem present))
  rw [String.toList_append]
  exact tells.message.trans (List.suffix_append ..).isInfix

/-- An end that tells of a refused call: in the error that it stops with, or in what it gives. A
crash need not tell. -/
def Told {α : Type} (P : α → Prop) : Except Stop α → Prop
  | .ok value => P value
  | .error (.failed error) => error.fault.Tells
  | .error (.crashed _) => True

/-- The terms on which two runs are compared. -/
structure Terms where
  files : Files
  /-- What the libraries of the two have in common. -/
  alike : Library → Library → Prop
  /-- What the programs keep to. -/
  allowed : Act → Prop
  /-- The crashes of the first run by which the comparison ends. -/
  alarm : Option String → Prop
  /-- Whether the second run must then tell of a refused call. -/
  strict : Prop

namespace Terms

variable (terms : Terms)

/-- Libraries that are alike give the same, and stay alike. -/
def Blind {α : Type} (draw : Draw α) : Prop :=
  ∀ one two, terms.alike one two →
    (draw.run one).1 = (draw.run two).1 ∧ terms.alike (draw.run one).2 (draw.run two).2

def Allows (acts : List Act) : Prop := ∀ act ∈ acts, terms.allowed act

/-- What is allowed leads to nothing that is not. -/
structure Sound : Prop where
  calls : ∀ builtin : Builtin, terms.allowed (.call builtin.name) →
    ∀ arguments line, terms.Blind (builtin.apply arguments line)
  figures : ∀ kind arguments line, terms.Blind ((Builtin.ofFigureKind kind).apply arguments line)
  random : terms.allowed .random → ∀ draw : Draw Value, terms.Blind draw
  imports : ∀ path key source, terms.allowed (.importFile path) →
    terms.files.resolve path = .ok key → terms.files.read key = .ok source →
    (scan source).errors = [] → (parse (scan source).tokens).errors = [] →
    terms.Allows (Statement.actsAll (parse (scan source).tokens).program)

/-- The bodies of all functions of a frame keep to what is allowed. -/
def Covers (frame : Frame) : Prop :=
  ∀ binding ∈ frame.functions, terms.Allows binding.2.body.acts

def CoversAll (scope : Scope) : Prop := ∀ frame ∈ scope.active :: scope.outer, terms.Covers frame

/-- The states of two runs that have found the same so far. -/
structure InStep (one two : Context) : Prop where
  scope : two.scope = one.scope
  library : terms.alike one.library two.library
  refusal : two.host.refusal = one.host.refusal
  log : two.log = one.log
  callDepth : two.callDepth = one.callDepth
  imported : two.imported = one.imported
  filesOne : one.files = terms.files
  filesTwo : two.files = terms.files
  covered : terms.CoversAll one.scope

/-- Two computations end alike and in step, or the first one ends the comparison. -/
def Meet {α : Type} (P : α → Prop) (one two : Except Stop α × Context) : Prop :=
  one.1 = two.1 ∧ terms.InStep one.2 two.2 ∨
    (∃ reason, terms.alarm reason ∧ one.1 = .error (.crashed reason)) ∧
      (terms.strict → Told P two.1)

/-- From states in step, the second computation follows the first. -/
def Follow {α : Type} (P : α → Prop) (first second : Evaluation α) : Prop :=
  ∀ one two, terms.InStep one two → terms.Meet P (first.run one) (second.run two)

/-- Where the comparison ends, the second computation can only have failed. -/
abbrev Agree {α : Type} (first second : Evaluation α) : Prop :=
  terms.Follow (fun _ => False) first second

end Terms

namespace Terms

variable {terms : Terms} {α β : Type} {P : α → Prop} {Q : β → Prop}

theorem Allows.append {first second : List Act} (allowed : terms.Allows (first ++ second)) :
    terms.Allows first ∧ terms.Allows second := List.forall_mem_append.mp allowed

section Scopes

variable {scope after : Scope}

theorem CoversAll.of_functions (covered : terms.CoversAll scope)
    (functions : after.active.functions = scope.active.functions)
    (outer : after.outer = scope.outer) : terms.CoversAll after := by
  obtain ⟨active, others⟩ := List.forall_mem_cons.mp covered
  refine List.forall_mem_cons.mpr ⟨?_, outer ▸ others⟩
  unfold Covers
  rw [functions]
  exact active

theorem CoversAll.enter (covered : terms.CoversAll scope) : terms.CoversAll scope.enter :=
  List.forall_mem_cons.mpr ⟨(List.forall_mem_cons.mp covered).1, covered⟩

theorem CoversAll.exit (covered : terms.CoversAll scope) : terms.CoversAll scope.exit := by
  unfold Scope.exit
  split
  · exact covered
  · rename_i frame rest frames
    intro other present
    exact covered other (frames ▸ List.mem_cons_of_mem _ present)

theorem CoversAll.setConstant (covered : terms.CoversAll scope) {name : String} {value : Value}
    {line : Nat} (bound : scope.setConstant name value line = .ok after) :
    terms.CoversAll after := by
  refine covered.of_functions ?_ (Scope.setConstant_outer bound)
  rcases Scope.setConstant_eq_ok.mp bound with ⟨-, rfl⟩ | ⟨-, -, rfl⟩ <;> rfl

theorem CoversAll.setArgument (covered : terms.CoversAll scope) (name : String) (value : Value) :
    terms.CoversAll (scope.setArgument name value) := by
  refine covered.of_functions ?_ (Scope.setArgument_outer name value)
  unfold Scope.setArgument
  split <;> rfl

theorem CoversAll.declare (covered : terms.CoversAll scope) {function : FunctionDef}
    (allowed : terms.Allows function.body.acts) (declared : scope.declare function = .ok after) :
    terms.CoversAll after := by
  obtain ⟨-, rfl⟩ := Scope.declare_eq_ok.mp declared
  obtain ⟨active, others⟩ := List.forall_mem_cons.mp covered
  exact List.forall_mem_cons.mpr ⟨List.forall_mem_cons.mpr ⟨allowed, active⟩, others⟩

theorem CoversAll.function? (covered : terms.CoversAll scope) {name : String}
    {function : FunctionDef} (found : scope.function? name = some function) :
    terms.Allows function.body.acts :=
  covered _ List.mem_cons_self _ (Bindings.mem_of_find? found)

end Scopes

namespace Follow

theorem done (value : α) : terms.Follow P (pure value) (pure value) :=
  fun _ _ inStep => .inl ⟨rfl, inStep⟩

theorem throw (stop : Stop) : terms.Follow P (throw stop : Evaluation α) (throw stop) :=
  fun _ _ inStep => .inl ⟨rfl, inStep⟩

theorem fail (fault : EvalFault) (line : Nat) :
    terms.Follow P (Evaluation.fail fault line) (Evaluation.fail fault line) := throw _

theorem ofExcept (result : Except EvalError α) :
    terms.Follow P (Evaluation.ofExcept result) (Evaluation.ofExcept result) := by
  cases result with
  | ok value => exact done value
  | error error => exact throw _

/-- A change that leads from states in step to states in step. -/
theorem modify (change change' : Context → Context) {P : Unit → Prop}
    (kept : ∀ one two, terms.InStep one two → terms.InStep (change one) (change' two)) :
    terms.Follow P (modify change : Evaluation Unit) (modify change') :=
  fun one two inStep => .inl ⟨rfl, kept one two inStep⟩

/-- What follows a look at the state may rely on the states seen. -/
theorem getThen {next next' : Context → Evaluation α}
    (meet : ∀ one two, terms.InStep one two →
      terms.Meet P ((next one).run one) ((next' two).run two)) :
    terms.Follow P (get >>= next) (get >>= next') := meet

/-- If the first run ends the comparison at the start, what the second one has told by then must
come through. -/
theorem andThenTold {first first' : Evaluation α} {next next' : α → Evaluation β}
    (start : terms.Follow P first first') (rest : ∀ value, terms.Follow Q (next value) (next' value))
    (told : ∀ value, P value → ∀ context, Told Q ((next' value).run context).1) :
    terms.Follow Q (first >>= next) (first' >>= next') := by
  intro one two inStep
  change terms.Meet Q (ExceptT.bindCont next (first.run one).1 (first.run one).2)
    (ExceptT.bindCont next' (first'.run two).1 (first'.run two).2)
  rcases start one two inStep with ⟨same, inStep⟩ | ⟨⟨reason, alarm, ended⟩, telling⟩
  · rw [← same]
    cases (first.run one).1 with
    | ok value => exact rest value _ _ inStep
    | error stop => exact .inl ⟨rfl, inStep⟩
  · refine .inr ⟨⟨reason, alarm, by rw [ended]; rfl⟩, fun strict => ?_⟩
    have begun := telling strict
    revert begun
    cases (first'.run two).1 with
    | ok value => exact fun begun => told value begun _
    | error stop => cases stop <;> exact id

theorem andThen {first first' : Evaluation α} {next next' : α → Evaluation β}
    (start : terms.Agree first first') (rest : ∀ value, terms.Follow Q (next value) (next' value)) :
    terms.Follow Q (first >>= next) (first' >>= next') := start.andThenTold rest nofun

theorem draw {draw : Draw α} (blind : terms.Blind draw) :
    terms.Follow P (Evaluation.draw draw) (Evaluation.draw draw) := by
  intro one two inStep
  obtain ⟨same, library⟩ := blind one.library two.library inStep.library
  exact .inl ⟨same, { inStep with library }⟩

theorem emit (event : Event) {P : Unit → Prop} :
    terms.Follow P (Evaluation.emit event) (Evaluation.emit event) :=
  modify _ _ fun _ _ inStep => { inStep with log := congrArg (event :: ·) inStep.log }

/-- Both scopes are changed alike. -/
theorem changeScope (change : Scope → Scope) {P : Unit → Prop}
    (covered : ∀ scope, terms.CoversAll scope → terms.CoversAll (change scope)) :
    terms.Follow P (do setScope (change (← get).scope)) (do setScope (change (← get).scope)) :=
  getThen fun one _ inStep => .inl ⟨rfl,
    { inStep with
      scope := congrArg change inStep.scope
      covered := covered one.scope inStep.covered }⟩

theorem updateScope {update : Scope → Except EvalError Scope} {P : Unit → Prop}
    (covered : ∀ scope after, terms.CoversAll scope → update scope = .ok after →
      terms.CoversAll after) :
    terms.Follow P (Evaluation.updateScope update) (Evaluation.updateScope update) := by
  refine getThen fun one two inStep => ?_
  rw [inStep.scope]
  cases updated : update one.scope with
  | error error => exact .inl ⟨rfl, inStep⟩
  | ok after =>
    exact .inl ⟨rfl,
      { inStep with scope := rfl, covered := covered one.scope after inStep.covered updated }⟩

/-- Before a computation and after it both states are changed alike. -/
theorem between (enter leave : Context → Context) {body body' : Evaluation α}
    (entering : ∀ one two, terms.InStep one two → terms.InStep (enter one) (enter two))
    (leaving : ∀ one two, terms.InStep one two → terms.InStep (leave one) (leave two))
    (follow : terms.Follow P body body') :
    terms.Follow P (fun context => ((body (enter context)).1, leave (body (enter context)).2))
      fun context => ((body' (enter context)).1, leave (body' (enter context)).2) :=
  fun one two inStep => (follow _ _ (entering one two inStep)).imp_left fun ended =>
    ⟨ended.1, leaving _ _ ended.2⟩

theorem inFrame {body body' : Evaluation α} (follow : terms.Follow P body body') :
    terms.Follow P (Evaluation.inFrame body) (Evaluation.inFrame body') :=
  between (fun context => { context with scope := context.scope.enter })
    (fun after => { after with scope := after.scope.exit })
    (fun _ _ inStep =>
      { inStep with
        scope := congrArg Scope.enter inStep.scope
        covered := inStep.covered.enter })
    (fun _ _ inStep =>
      { inStep with
        scope := congrArg Scope.exit inStep.scope
        covered := inStep.covered.exit })
    follow

theorem inCall {body body' : Evaluation α} (follow : terms.Follow P body body') :
    terms.Follow P (Evaluation.inCall body) (Evaluation.inCall body') :=
  between (fun context => { context with callDepth := context.callDepth + 1 })
    (fun after => { after with callDepth := after.callDepth - 1 })
    (fun _ _ inStep => { inStep with callDepth := congrArg (· + 1) inStep.callDepth })
    (fun _ _ inStep => { inStep with callDepth := congrArg (· - 1) inStep.callDepth }) follow

theorem attempt {body body' : Evaluation α} (agree : terms.Agree body body') :
    terms.Follow (fun outcome => ∃ error, outcome = .error error ∧ error.fault.Tells)
      (Evaluation.attempt body) (Evaluation.attempt body') := by
  intro one two inStep
  have meet := agree one two inStep
  simp only [ExceptT.run] at meet ⊢
  rw [Evaluation.attempt, Evaluation.attempt]
  generalize body one = first at meet ⊢
  generalize body' two = second at meet ⊢
  obtain ⟨ended, one⟩ := first
  obtain ⟨ended', two⟩ := second
  rcases meet with ⟨same, inStep⟩ | ⟨⟨reason, alarm, crashed⟩, told⟩
  · obtain rfl : ended = ended' := same
    rcases ended with (_ | _) | _ <;> exact .inl ⟨rfl, inStep⟩
  · obtain rfl : ended = .error (.crashed reason) := crashed
    refine .inr ⟨⟨reason, alarm, rfl⟩, fun strict => ?_⟩
    have telling := told strict
    rcases ended' with (error | _) | _
    · exact ⟨error, rfl, telling⟩
    · trivial
    · exact telling.elim

theorem bindArguments (names : List String) (values : List Value) {P : Unit → Prop} :
    terms.Follow P (Evaluation.bindArguments names values)
      (Evaluation.bindArguments names values) := by
  induction names generalizing values with
  | nil => exact done _
  | cons name names ih =>
    cases values with
    | nil => exact done _
    | cons value values =>
      have bound : terms.Agree
          (do setScope ((← get).scope.setArgument name value) : Evaluation Unit)
          (do setScope ((← get).scope.setArgument name value)) :=
        changeScope (·.setArgument name value) fun _ covered => covered.setArgument name value
      rw [Evaluation.bindArguments, ← bind_assoc]
      exact bound.andThen fun _ => ih values

theorem setConstant (name : String) (value : Value) (line : Nat) {P : Unit → Prop} :
    terms.Follow P (Evaluation.updateScope fun scope => scope.setConstant name value line)
      (Evaluation.updateScope fun scope => scope.setConstant name value line) :=
  updateScope fun _ _ covered => covered.setConstant

theorem assignEach (line : Nat) (names : List String) (values : List Value) {P : Unit → Prop} :
    terms.Follow P (Evaluation.assignEach line names values)
      (Evaluation.assignEach line names values) := by
  induction names generalizing values with
  | nil => exact done _
  | cons name names ih => exact andThen (setConstant _ _ _) fun _ => ih _

theorem drawFigures (label : Option String) (figures : List Figure) {P : Unit → Prop} :
    terms.Follow P (Evaluation.drawFigures label figures)
      (Evaluation.drawFigures label figures) := by
  induction figures with
  | nil => exact done _
  | cons first rest ih =>
    refine getThen fun one two inStep => ?_
    rw [inStep.scope]
    exact andThen (emit _) (fun _ => ih) one two inStep

theorem drawValue (value : Value) (label : Option String) (line : Nat) {P : Unit → Prop} :
    terms.Follow P (Evaluation.drawValue value label line)
      (Evaluation.drawValue value label line) := by
  refine andThen (drawFigures label _) fun _ => ?_
  cases value.drawing.stopped with
  | some fault => exact fail _ _
  | none => exact done _

theorem print (text : String) {P : Unit → Prop} :
    terms.Follow P (Evaluation.print text) (Evaluation.print text) := by
  refine getThen fun one two inStep => ?_
  rw [inStep.refusal]
  cases one.host.refusal text with
  | some reason => exact throw _ one two inStep
  | none => exact emit _ one two inStep

end Follow

/-- What becomes of the bodies of functions in the two runs. -/
inductive Entries (terms : Terms) :
    Option (Expr → Evaluation Value) → Option (Expr → Evaluation Value) → Prop
  | both {evalBody evalBody' : Expr → Evaluation Value}
      (agree : ∀ body, terms.Allows body.acts → terms.Agree (evalBody body) (evalBody' body)) :
      Entries terms (some evalBody) (some evalBody')
  | neither : Entries terms none none
  | alarmed {reason : Option String} (alarm : terms.alarm reason) :
      Entries terms (some fun _ => throw (.crashed reason)) none

/-- The ways out of a tree lead to the same, or to the end of the comparison. -/
structure Matches (terms : Terms) (one two : Beyond) : Prop where
  entries : terms.Entries one.body? two.body?
  program : ∀ program, terms.Allows (Statement.actsAll program) →
    terms.Follow Tell (one.program program) (two.program program)

/-- To bind arguments does not fail, whatever comes after it. -/
theorem bindArguments_thenStop (names : List String) (values : List Value) (stop : Stop)
    (context : Context) :
    ((do bindArguments names values; throw stop : Evaluation Value).run context).1 =
      .error stop := by
  induction names generalizing values context with
  | nil => rfl
  | cons name names ih =>
    cases values with
    | nil => rfl
    | cons value values => exact ih values _

section Beyond

variable {one two : Beyond} (matched : terms.Matches one two)

include matched

theorem callDeclared_agree (name : String) (arguments : List Value) (line : Nat) :
    terms.Agree (callDeclared one name arguments line)
      (callDeclared two name arguments line) := by
  refine .getThen fun first second inStep => ?_
  rw [inStep.scope]
  cases found : first.scope.function? name with
  | none => exact Follow.fail _ _ first second inStep
  | some function =>
    by_cases mismatch : arguments.length ≠ function.parameters.length
    · simp only [if_pos mismatch]
      exact Follow.fail _ _ first second inStep
    · simp only [if_neg mismatch]
      have entries := matched.entries
      revert entries
      cases one.body? <;> cases two.body? <;> intro entries <;> cases entries
      case both evalBody evalBody' agree =>
        have body := agree function.body (inStep.covered.function? found)
        have bound : terms.Agree _ _ := Follow.bindArguments function.parameters arguments
        exact (bound.andThen fun _ => body).inFrame.inCall first second inStep
      case neither =>
        rw [inStep.callDepth]
        exact Follow.fail _ _ first second inStep
      case alarmed reason alarm =>
        exact .inr ⟨⟨reason, alarm, bindArguments_thenStop _ _ _ _⟩, fun _ => trivial⟩

variable (sound : terms.Sound)

include sound

theorem call_agree {name : String} (allowed : terms.allowed (.call name))
    (arguments : List Value) (line : Nat) :
    terms.Agree (call one name arguments line) (call two name arguments line) := by
  unfold call
  cases found : Builtin.ofName? name with
  | some builtin =>
    have named : builtin.name = name := Builtin.name_of_ofName? found
    exact .draw (sound.calls builtin (named ▸ allowed) arguments line)
  | none => exact callDeclared_agree matched name arguments line

/-- Whether a file is run is the same for both, and what is run is allowed. -/
theorem importFile_agree {path : String} (allowed : terms.allowed (.importFile path))
    (line : Nat) : terms.Agree (importFile one path line) (importFile two path line) := by
  refine .getThen fun first second inStep => ?_
  rw [inStep.filesOne, inStep.filesTwo, inStep.imported]
  cases resolved : terms.files.resolve path with
  | error fault => exact Follow.fail _ _ first second inStep
  | ok key =>
    by_cases known : key ∈ first.imported
    · simp only [if_pos known]
      exact Follow.done _ first second inStep
    · simp only [if_neg known]
      cases read : terms.files.read key with
      | error fault => exact Follow.fail _ _ first second inStep
      | ok source =>
        have counted : terms.Agree
            (modify fun context => { context with imported := key :: context.imported })
            (modify fun context => { context with imported := key :: context.imported }) :=
          .modify _ _ fun _ _ inStep =>
            { inStep with imported := congrArg (key :: ·) inStep.imported }
        refine counted.andThen (fun _ => ?_) first second inStep
        by_cases spelled : (scan source).errors.isEmpty
        · by_cases formed : (parse (scan source).tokens).errors.isEmpty
          · simp only [spelled, formed, Bool.not_true, Bool.false_eq_true, if_false]
            have inside := sound.imports path key source allowed resolved read
              (List.isEmpty_iff.mp spelled) (List.isEmpty_iff.mp formed)
            refine .andThenTold (matched.program _ inside) (fun errors => ?_) ?_
            · split
              · exact .fail _ _
              · exact .done _
            · intro errors tell context
              have some : (!errors.isEmpty) = true := by
                obtain ⟨error, present, -⟩ := tell
                cases errors with
                | nil => cases present
                | cons _ _ => rfl
              simp only [some, if_true]
              exact describe_tells tell
          · simp only [spelled, formed, Bool.not_true, Bool.not_false, Bool.false_eq_true,
              if_false, if_true]
            exact .fail _ _
        · simp only [spelled, Bool.not_false, if_true]
          exact .fail _ _

end Beyond

end Terms

-- The induction is on the tree. What it may do is what its parts may do.
mutual

theorem Expr.eval_agree {terms : Terms} (sound : terms.Sound) {one two : Beyond}
    (matched : terms.Matches one two) (e : Expr) (allowed : terms.Allows e.acts) :
    terms.Agree (e.eval one) (e.eval two) := by
  cases e with
  | literal | undefined | infinite | range => exact .done _
  | constant =>
    refine .getThen fun first second inStep => ?_
    rw [inStep.scope]
    exact Terms.Follow.ofExcept _ first second inStep
  | group inner => exact Expr.eval_agree sound matched inner allowed
  | unary op operand =>
    exact .andThen (Expr.eval_agree sound matched operand allowed) fun _ => .ofExcept _
  | binary op left right =>
    have leftAgree := Expr.eval_agree sound matched left allowed.append.1
    have rightAgree := Expr.eval_agree sound matched right allowed.append.2
    exact .andThen leftAgree fun _ => .andThen rightAgree fun _ => .ofExcept _
  | conditional condition positive negative =>
    have branches := allowed.append.2.append
    refine .andThen (Expr.eval_agree sound matched condition allowed.append.1) fun value => ?_
    refine .andThen (.ofExcept _) fun chosen => ?_
    cases chosen with
    | true => exact Expr.eval_agree sound matched positive branches.1
    | false => exact Expr.eval_agree sound matched negative branches.2
  | block instructions body =>
    have before := Statement.evalAll_agree sound matched instructions allowed.append.1
    have last := Expr.eval_agree sound matched body allowed.append.2
    exact .inFrame (.andThen before fun _ => last)
  | call name arguments line =>
    obtain ⟨called, inside⟩ := List.forall_mem_cons.mp allowed
    have argumentsAgree := Expr.evalAll_agree sound matched arguments inside
    exact .andThen argumentsAgree fun values => Terms.call_agree matched sound called values line
  | figure kind arguments =>
    have argumentsAgree := Expr.evalAll_agree sound matched arguments allowed
    exact .andThen argumentsAgree fun _ => .draw (sound.figures _ _ _)
  | sequence elements =>
    exact .andThen (Expr.evalAll_agree sound matched elements allowed) fun _ => .ofExcept _
termination_by structural e

theorem Expr.evalAll_agree {terms : Terms} (sound : terms.Sound) {one two : Beyond}
    (matched : terms.Matches one two) (es : List Expr) (allowed : terms.Allows (Expr.actsAll es)) :
    terms.Agree (Expr.evalAll one es) (Expr.evalAll two es) := by
  cases es with
  | nil => exact .done _
  | cons first rest =>
    have firstAgree := Expr.eval_agree sound matched first allowed.append.1
    have restAgree := Expr.evalAll_agree sound matched rest allowed.append.2
    exact .andThen firstAgree fun _ => .andThen restAgree fun _ => .done _
termination_by structural es

theorem Statement.eval_agree {terms : Terms} (sound : terms.Sound) {one two : Beyond}
    (matched : terms.Matches one two) (statement : Statement)
    (allowed : terms.Allows statement.acts) :
    terms.Agree (statement.eval one) (statement.eval two) := by
  cases statement with
  | expression value =>
    exact .andThen (Expr.eval_agree sound matched value allowed) fun _ => .done _
  | assign name value =>
    refine .andThen (Expr.eval_agree sound matched value allowed) fun _ => ?_
    exact .andThen (.setConstant _ _ _) fun _ => .done _
  | assignMany names value =>
    refine .andThen (Expr.eval_agree sound matched value allowed) fun _ => ?_
    exact .andThen (.ofExcept _) fun _ => .andThen (.assignEach _ _ _) fun _ => .done _
  | function =>
    refine .andThen (.ofExcept _) fun _ => ?_
    exact .andThen (.updateScope fun _ _ covered => covered.declare allowed) fun _ => .done _
  | importFile path line =>
    have imports := Terms.importFile_agree matched sound (allowed _ List.mem_cons_self) line
    exact .andThen imports fun _ => .done _
  | draw value label line =>
    refine .andThen (Expr.eval_agree sound matched value allowed) fun _ => ?_
    exact .andThen (.drawValue _ label line) fun _ => .done _
  | print value =>
    refine .andThen (Expr.eval_agree sound matched value allowed) fun _ => ?_
    exact .andThen (.print _) fun _ => .done _
  | color color =>
    have pushed : terms.Agree
        (do setScope ((← get).scope.pushColor color) : Evaluation Unit)
        (do setScope ((← get).scope.pushColor color)) :=
      .changeScope (·.pushColor color) fun _ covered => covered.of_functions rfl rfl
    rw [Statement.eval, Statement.eval, ← bind_assoc]
    exact pushed.andThen fun _ => .done _
  | restore =>
    have restored : terms.Agree
        (do setScope (← get).scope.restoreColor : Evaluation Unit)
        (do setScope (← get).scope.restoreColor) :=
      .changeScope Scope.restoreColor fun _ covered => covered.of_functions
        (congrArg Frame.functions Scope.restoreColor_active) Scope.restoreColor_outer
    rw [Statement.eval, Statement.eval, ← bind_assoc]
    exact restored.andThen fun _ => .done _
  | random kind isSequence =>
    refine .andThen (.draw (sound.random (allowed _ List.mem_cons_self) _)) fun _ => ?_
    exact .andThen (.setConstant _ _ _) fun _ => .done _
termination_by structural statement

theorem Statement.evalAll_agree {terms : Terms} (sound : terms.Sound) {one two : Beyond}
    (matched : terms.Matches one two) (instructions : List Statement)
    (allowed : terms.Allows (Statement.actsAll instructions)) :
    terms.Agree (Statement.evalAll one instructions) (Statement.evalAll two instructions) := by
  cases instructions with
  | nil => exact .done _
  | cons first rest =>
    have firstAgree := Statement.eval_agree sound matched first allowed.append.1
    have restAgree := Statement.evalAll_agree sound matched rest allowed.append.2
    exact .andThen firstAgree fun _ => restAgree
termination_by structural instructions

end

/-- No run of the computation fails. It may still crash. -/
def Unfailing {α : Type} (computation : Evaluation α) : Prop :=
  ∀ context error, (computation.run context).1 ≠ .error (.failed error)

namespace Unfailing

variable {α β : Type}

theorem done (value : α) : Unfailing (pure value) := by
  intro context error same
  cases same

theorem attempt (body : Evaluation α) : Unfailing (Evaluation.attempt body) := by
  intro context error
  simp only [Evaluation.attempt, ExceptT.run]
  split <;> simp

theorem andThen {first : Evaluation α} {next : α → Evaluation β} (start : Unfailing first)
    (rest : ∀ value, Unfailing (next value)) : Unfailing (first >>= next) := by
  intro context error
  have begun := start context error
  revert begun
  rw [run_bind]
  rcases first.run context with ⟨_ | value, reached⟩
  · exact fun begun same => begun (congrArg _ (Except.error.inj same))
  · exact fun _ => rest value reached error

end Unfailing

/-- A program goes on where an instruction fails, and only a crash stops it. -/
theorem Program.eval_unfailing (beyond : Beyond) (program : Program) :
    Unfailing (program.eval beyond) := by
  induction program with
  | nil => exact .done _
  | cons first rest ih =>
    refine .andThen (.attempt _) fun outcome => .andThen ih fun _ => ?_
    cases outcome <;> exact .done _

/-- The end of a program in which an error tells of a refused call. -/
def Program.Tells (result : Option Value × List EvalError) : Prop := Tell result.2

theorem Program.eval_follow {terms : Terms} (sound : terms.Sound) {one two : Beyond}
    (matched : terms.Matches one two) (program : Program)
    (allowed : terms.Allows (Statement.actsAll program)) :
    terms.Follow Program.Tells (program.eval one) (program.eval two) := by
  induction program with
  | nil => exact .done _
  | cons first rest ih =>
    have attempted := (Statement.eval_agree sound matched first allowed.append.1).attempt
    refine attempted.andThenTold (fun outcome => ?_) ?_
    · refine (ih allowed.append.2).andThenTold (fun later => ?_) ?_
      · cases outcome <;> exact .done _
      · rintro ⟨later, errors⟩ ⟨error, present, tells⟩ context
        cases outcome with
        | ok value => exact ⟨error, present, tells⟩
        | error _ => exact ⟨error, List.mem_cons_of_mem _ present, tells⟩
    · rintro _ ⟨error, rfl, tells⟩ context
      have unfailing := Program.eval_unfailing two rest context
      revert unfailing
      rw [run_bind]
      rcases (Program.eval two rest).run context with ⟨(_ | _) | _, _⟩
      · exact fun unfailing => absurd rfl (unfailing _)
      · exact fun _ => trivial
      · exact fun _ => ⟨error, List.mem_cons_self, tells⟩

section SameWays

variable {terms : Terms} (sound : terms.Sound)

include sound

theorem Beyond.ofCalls_matches {program : Nat → Program → Evaluation (List EvalError)}
    (follow : ∀ calls p, terms.Allows (Statement.actsAll p) →
      terms.Follow Tell (program calls p) (program calls p)) (calls : Nat) :
    terms.Matches (.ofCalls program calls) (.ofCalls program calls) := by
  induction calls with
  | zero => exact ⟨.neither, follow 0⟩
  | succ calls ih =>
    exact ⟨.both fun body allowed => body.eval_agree sound ih allowed, follow (calls + 1)⟩

theorem Beyond.ofBounds_matches (files calls : Nat) :
    terms.Matches (.ofBounds files calls) (.ofBounds files calls) := by
  induction files generalizing calls with
  | zero => exact ofCalls_matches sound (fun _ _ _ => .done _) calls
  | succ files ih =>
    refine ofCalls_matches sound (fun calls p allowed => ?_) calls
    have inside := Program.eval_follow sound (ih calls) p allowed
    exact inside.andThenTold (fun _ => .done _) fun _ tells _ => tells

end SameWays

end GSharp
