import GSharp.Proofs.Scope.Changes

namespace GSharp

/-- What can be done with a scope, and what can be asked of it, over any form of its state. -/
structure Scoping (State : Type) where
  enter : State → State
  exit : State → State
  reserve : State → String → Nat → Except EvalError State
  setConstant : State → String → Value → Nat → Except EvalError State
  setArgument : State → String → Value → State
  get : State → String → Nat → Except EvalError Value
  exists? : State → String → Bool
  declare : State → FunctionDef → Except EvalError State
  function? : State → String → Option FunctionDef
  pushColor : State → Color → State
  restoreColor : State → State
  depth : State → Nat
  color : State → Color

namespace Scoping

inductive Operation where
  | enter | exit
  | reserve (name : String) (line : Nat)
  | setConstant (name : String) (value : Value) (line : Nat)
  | setArgument (name : String) (value : Value)
  | get (name : String) (line : Nat)
  | exists? (name : String)
  | declare (function : FunctionDef)
  | function? (name : String)
  | pushColor (color : Color)
  | restoreColor

/-- What an operation answers. Most only succeed or fail. -/
inductive Answer where
  | done
  | failed (error : EvalError)
  | value (value : Value)
  | claimed (answer : Bool)
  | function (found : Option FunctionDef)

/-- An answer, with the depth and the drawing color after it. -/
structure Observation where
  answer : Answer
  depth : Nat
  color : Color

variable {State : Type}

/-- A failed change leaves the state as it was. -/
def settle (state : State) (result : Except EvalError State) : Answer × State :=
  match result with
  | .ok after => (.done, after)
  | .error error => (.failed error, state)

def perform (scoping : Scoping State) (state : State) : Operation → Answer × State
  | .enter => (.done, scoping.enter state)
  | .exit => (.done, scoping.exit state)
  | .reserve name line => settle state (scoping.reserve state name line)
  | .setConstant name value line => settle state (scoping.setConstant state name value line)
  | .setArgument name value => (.done, scoping.setArgument state name value)
  | .get name line =>
    match scoping.get state name line with
    | .ok value => (.value value, state)
    | .error error => (.failed error, state)
  | .exists? name => (.claimed (scoping.exists? state name), state)
  | .declare function => settle state (scoping.declare state function)
  | .function? name => (.function (scoping.function? state name), state)
  | .pushColor color => (.done, scoping.pushColor state color)
  | .restoreColor => (.done, scoping.restoreColor state)

/-- Everything that can be seen of a sequence of operations. -/
def observe (scoping : Scoping State) (state : State) : List Operation → List Observation
  | [] => []
  | operation :: rest =>
    let (answer, after) := scoping.perform state operation
    ⟨answer, scoping.depth after, scoping.color after⟩ :: scoping.observe after rest

end Scoping

/-- The scope that programs run in. -/
def Scope.scoping : Scoping Scope where
  enter := enter
  exit := exit
  reserve := reserve
  setConstant := setConstant
  setArgument := setArgument
  get := get
  exists? := exists?
  declare := declare
  function? := function?
  pushColor := pushColor
  restoreColor := restoreColor
  depth := depth
  color := color

/-- What was bound and claimed in one frame. -/
structure Link where
  values : Bindings Value := []
  functions : Bindings FunctionDef := []
  reserved : List String := []
  declared : List String := []

/-- Frames from the innermost one outwards, and the colors pushed over black, the latest first. -/
structure Chain where
  inner : Link := {}
  outer : List Link := []
  colors : List Color := []

namespace Chain

/-- The first binding of a name on the way outwards. -/
def valueIn (links : List Link) (name : String) : Option Value :=
  links.findSome? fun link => link.values.find? name

def functionIn (links : List Link) (name : String) : Option FunctionDef :=
  links.findSome? fun link => link.functions.find? name

def enter (chain : Chain) : Chain := { chain with inner := {}, outer := chain.inner :: chain.outer }

def exit (chain : Chain) : Chain :=
  match chain.outer with
  | [] => chain
  | link :: rest => { chain with inner := link, outer := rest }

def reserve (chain : Chain) (name : String) (line : Nat) : Except EvalError Chain :=
  if name = Scope.discard then .ok chain
  else if name ∈ chain.inner.reserved then .error ⟨.constantRedeclaration name, line⟩
  else
    .ok { chain with inner := { chain.inner with reserved := name :: chain.inner.reserved } }

/-- Binds a name in the innermost frame, whatever bound it there before. -/
def bindValue (chain : Chain) (name : String) (value : Value) : Chain :=
  { chain with inner := { chain.inner with values := chain.inner.values.insert name value } }

def setConstant (chain : Chain) (name : String) (value : Value) (line : Nat) :
    Except EvalError Chain :=
  if name = Scope.discard then .ok chain
  else (chain.reserve name line).map (·.bindValue name value)

def setArgument (chain : Chain) (name : String) (value : Value) : Chain :=
  if name = Scope.discard then chain else chain.bindValue name value

def get (chain : Chain) (name : String) (line : Nat) : Except EvalError Value :=
  match valueIn (chain.inner :: chain.outer) name with
  | some value => .ok value
  | none => .error ⟨.unknownConstant name, line⟩

def declare (chain : Chain) (function : FunctionDef) : Except EvalError Chain :=
  if function.name ∈ chain.inner.declared then
    .error ⟨.functionAlreadyDefined function.name, function.line⟩
  else
    .ok { chain with
      inner := { chain.inner with
        declared := function.name :: chain.inner.declared
        functions := chain.inner.functions.insert function.name function } }

def scoping : Scoping Chain where
  enter := enter
  exit := exit
  reserve := reserve
  setConstant := setConstant
  setArgument := setArgument
  get := get
  exists? chain name := name ∈ chain.inner.reserved
  declare := declare
  function? chain := functionIn (chain.inner :: chain.outer)
  pushColor chain color := { chain with colors := color :: chain.colors }
  restoreColor chain := { chain with colors := chain.colors.tail }
  depth chain := chain.outer.length + 1
  color chain := chain.colors.headD .black

end Chain

namespace Chain

theorem valueIn_cons (link : Link) (outer : List Link) (name : String) :
    valueIn (link :: outer) name = (link.values.find? name).or (valueIn outer name) := by
  unfold valueIn
  rw [List.findSome?_cons]
  cases link.values.find? name <;> rfl

theorem functionIn_cons (link : Link) (outer : List Link) (name : String) :
    functionIn (link :: outer) name = (link.functions.find? name).or (functionIn outer name) := by
  unfold functionIn
  rw [List.findSome?_cons]
  cases link.functions.find? name <;> rfl

end Chain

/-- The value that a frame shows for a name. -/
def Frame.value? (frame : Frame) (name : String) : Option Value :=
  (frame.arguments.find? name).or (frame.constants.find? name)

/-- A frame shows what its own link and the links outside it bind, and claims what its link does. -/
structure Frame.Shows (frame : Frame) (link : Link) (outer : List Link) : Prop where
  values : ∀ name, frame.value? name = Chain.valueIn (link :: outer) name
  functions : ∀ name, frame.functions.find? name = Chain.functionIn (link :: outer) name
  reserved : frame.reserved = link.reserved
  declared : frame.declared = link.declared

namespace Frame.Shows

variable {frame : Frame} {link : Link} {outer : List Link} (shows : frame.Shows link outer)

include shows

/-- What a new frame shows, having copied everything, is what an empty link leaves visible. -/
theorem child : frame.child.Shows {} (link :: outer) :=
  ⟨shows.values, shows.functions, rfl, rfl⟩

theorem claim (name : String) :
    Shows { frame with reserved := name :: frame.reserved }
      { link with reserved := name :: link.reserved } outer :=
  ⟨shows.values, shows.functions, congrArg _ shows.reserved, shows.declared⟩

/-- The latest binding of a name is the one shown, whichever of its two maps a frame keeps it in. -/
theorem bind {bound : Frame} (name : String) (value : Value)
    (latest : ∀ other, bound.value? other = if other = name then some value else frame.value? other)
    (functions : bound.functions = frame.functions) (reserved : bound.reserved = frame.reserved)
    (declared : bound.declared = frame.declared) :
    bound.Shows { link with values := link.values.insert name value } outer where
  values other := by
    rw [latest, shows.values, Chain.valueIn_cons, Chain.valueIn_cons, Bindings.find?_insert]
    split <;> rfl
  functions other := functions ▸ shows.functions other
  reserved := reserved.trans shows.reserved
  declared := declared.trans shows.declared

theorem bindArgument (name : String) (value : Value) :
    Shows { frame with arguments := frame.arguments.insert name value }
      { link with values := link.values.insert name value } outer := by
  refine shows.bind name value (fun other => ?_) rfl rfl rfl
  simp only [value?, Bindings.find?_insert]
  split <;> rfl

/-- A constant is shown because the argument that would go before it is taken away. -/
theorem bindConstant (name : String) (value : Value) :
    Shows { frame with
        arguments := frame.arguments.erase name
        constants := frame.constants.insert name value }
      { link with values := link.values.insert name value } outer := by
  refine shows.bind name value (fun other => ?_) rfl rfl rfl
  simp only [value?, Bindings.find?_insert, Bindings.find?_erase]
  split <;> rfl

theorem declare (function : FunctionDef) :
    Shows { frame with
        declared := function.name :: frame.declared
        functions := frame.functions.insert function.name function }
      { link with
        declared := function.name :: link.declared
        functions := link.functions.insert function.name function } outer where
  values := shows.values
  functions name := by
    rw [Chain.functionIn_cons, Bindings.find?_insert, Bindings.find?_insert, shows.functions,
      Chain.functionIn_cons]
    split <;> rfl
  reserved := shows.reserved
  declared := congrArg _ shows.declared

end Frame.Shows

/-- Frame by frame, a stack of copies stands for a chain. -/
inductive Stands : List Frame → List Link → Prop where
  | nil : Stands [] []
  | cons {frame : Frame} {link : Link} {frames : List Frame} {links : List Link}
      (shows : frame.Shows link links) (outside : Stands frames links) :
      Stands (frame :: frames) (link :: links)

theorem Stands.length_eq {frames : List Frame} {links : List Link} (stands : Stands frames links) :
    frames.length = links.length := by
  induction stands with
  | nil => rfl
  | cons _ _ ih => simp [ih]

namespace Scope

open Scoping

/-- A scope and a chain that cannot be told apart from here on. -/
structure Represents (scope : Scope) (chain : Chain) : Prop where
  shows : scope.active.Shows chain.inner chain.outer
  outside : Stands scope.outer chain.outer
  colors : scope.color :: scope.earlierColors = chain.colors ++ [.black]

theorem represents_empty : Represents {} {} where
  shows := ⟨fun _ => rfl, fun _ => rfl, rfl, rfl⟩
  outside := .nil
  colors := rfl

/-- Two attempts at one change fail alike, or succeed and still agree. -/
inductive Agree : Except EvalError Scope → Except EvalError Chain → Prop where
  | ok {scope : Scope} {chain : Chain} (same : scope.Represents chain) :
    Agree (.ok scope) (.ok chain)
  | error (error : EvalError) : Agree (.error error) (.error error)

namespace Represents

variable {scope : Scope} {chain : Chain} (same : scope.Represents chain)

include same

theorem enter : scope.enter.Represents chain.enter where
  shows := same.shows.child
  outside := .cons same.shows same.outside
  colors := same.colors

theorem exit : scope.exit.Represents chain.exit := by
  cases scope with
  | mk active outer color earlierColors =>
  cases chain with
  | mk inner links colors =>
  cases same.outside with
  | nil => exact same
  | cons shows outside => exact ⟨shows, outside, same.colors⟩

theorem reserve (name : String) (line : Nat) :
    Agree (scope.reserve name line) (chain.reserve name line) := by
  unfold Scope.reserve Chain.reserve exists?
  by_cases ignored : name = discard
  · simp only [ignored, ↓reduceIte]
    exact .ok same
  · by_cases claimed : name ∈ chain.inner.reserved
    · have present : name ∈ scope.active.reserved := same.shows.reserved ▸ claimed
      simp only [ignored, claimed, present, decide_true, ↓reduceIte]
      exact .error _
    · have free : name ∉ scope.active.reserved := same.shows.reserved ▸ claimed
      simp only [ignored, claimed, free, decide_false, Bool.false_eq_true, ↓reduceIte]
      exact .ok ⟨same.shows.claim name, same.outside, same.colors⟩

theorem setConstant (name : String) (value : Value) (line : Nat) :
    Agree (scope.setConstant name value line) (chain.setConstant name value line) := by
  have claimed := same.reserve name line
  unfold Scope.setConstant Chain.setConstant
  by_cases ignored : name = discard
  · simp only [ignored, ↓reduceIte]
    exact .ok same
  · simp only [ignored, ↓reduceIte]
    generalize scope.reserve name line = left at claimed ⊢
    generalize chain.reserve name line = right at claimed ⊢
    cases claimed with
    | ok same => exact .ok ⟨same.shows.bindConstant name value, same.outside, same.colors⟩
    | error error => exact .error error

theorem setArgument (name : String) (value : Value) :
    (scope.setArgument name value).Represents (chain.setArgument name value) := by
  unfold Scope.setArgument Chain.setArgument
  by_cases ignored : name = discard
  · simpa only [ignored, ↓reduceIte] using same
  · simp only [ignored, ↓reduceIte]
    exact ⟨same.shows.bindArgument name value, same.outside, same.colors⟩

theorem get (name : String) (line : Nat) : scope.get name line = chain.get name line := by
  have shown := same.shows.values name
  unfold Frame.value? at shown
  unfold Scope.get Chain.get
  cases found : Chain.valueIn (chain.inner :: chain.outer) name with
  | none =>
    rw [found] at shown
    simp only [shown]
  | some value =>
    rw [found] at shown
    simp only [shown]

theorem declare (function : FunctionDef) :
    Agree (scope.declare function) (chain.declare function) := by
  unfold Scope.declare Chain.declare
  by_cases declared : function.name ∈ chain.inner.declared
  · have present : function.name ∈ scope.active.declared := same.shows.declared ▸ declared
    simp only [declared, present, ↓reduceIte]
    exact .error _
  · have free : function.name ∉ scope.active.declared := same.shows.declared ▸ declared
    simp only [declared, free, ↓reduceIte]
    exact .ok ⟨same.shows.declare function, same.outside, same.colors⟩

theorem pushColor (color : Color) :
    (scope.pushColor color).Represents (Chain.scoping.pushColor chain color) where
  shows := same.shows
  outside := same.outside
  colors := congrArg (color :: ·) same.colors

theorem restoreColor : scope.restoreColor.Represents (Chain.scoping.restoreColor chain) := by
  have colors := same.colors
  unfold Scope.restoreColor
  cases pushed : chain.colors with
  | nil =>
    obtain ⟨bottom, last⟩ : scope.color = .black ∧ scope.earlierColors = [] := by
      simpa [pushed] using colors
    rw [last]
    exact ⟨same.shows, same.outside, by simp [Chain.scoping, pushed, bottom, last]⟩
  | cons latest before =>
    have earlier : scope.earlierColors = before ++ [.black] := by
      simp only [pushed, List.cons_append, List.cons.injEq] at colors
      exact colors.2
    cases kept : scope.earlierColors with
    | nil => simp [kept] at earlier
    | cons color rest =>
      exact ⟨same.shows, same.outside, by simpa [Chain.scoping, pushed, kept] using earlier⟩

theorem depth : Scope.scoping.depth scope = Chain.scoping.depth chain :=
  congrArg (· + 1) same.outside.length_eq

theorem color : Scope.scoping.color scope = Chain.scoping.color chain := by
  have colors := same.colors
  change scope.color = chain.colors.headD .black
  cases pushed : chain.colors with
  | nil => simp_all
  | cons latest before => simp_all

end Represents

theorem Agree.settle {scope : Scope} {chain : Chain} {left : Except EvalError Scope}
    {right : Except EvalError Chain} (agreed : Agree left right) (same : scope.Represents chain) :
    (settle scope left).1 = (settle chain right).1 ∧
      (settle scope left).2.Represents (settle chain right).2 := by
  cases agreed with
  | ok changed => exact ⟨rfl, changed⟩
  | error error => exact ⟨rfl, same⟩

/-- One operation gives the same answer on both, and leaves them alike. -/
theorem perform_represents {scope : Scope} {chain : Chain} (same : scope.Represents chain)
    (operation : Operation) :
    (Scope.scoping.perform scope operation).1 = (Chain.scoping.perform chain operation).1 ∧
      (Scope.scoping.perform scope operation).2.Represents
        (Chain.scoping.perform chain operation).2 := by
  cases operation with
  | enter => exact ⟨rfl, same.enter⟩
  | exit => exact ⟨rfl, same.exit⟩
  | reserve name line => exact (same.reserve name line).settle same
  | setConstant name value line => exact (same.setConstant name value line).settle same
  | setArgument name value => exact ⟨rfl, same.setArgument name value⟩
  | get name line =>
    have found : Scope.scoping.get scope name line = Chain.scoping.get chain name line :=
      same.get name line
    simp only [perform, found]
    split
    · exact ⟨rfl, same⟩
    · exact ⟨rfl, same⟩
  | exists? name =>
    have claims : scope.exists? name = decide (name ∈ chain.inner.reserved) := by
      rw [exists?, same.shows.reserved]
    exact ⟨congrArg Answer.claimed claims, same⟩
  | declare function => exact (same.declare function).settle same
  | function? name => exact ⟨congrArg Answer.function (same.shows.functions name), same⟩
  | pushColor color => exact ⟨rfl, same.pushColor color⟩
  | restoreColor => exact ⟨rfl, same.restoreColor⟩

theorem observe_represents {scope : Scope} {chain : Chain} (same : scope.Represents chain)
    (operations : List Operation) :
    Scope.scoping.observe scope operations = Chain.scoping.observe chain operations := by
  induction operations generalizing scope chain with
  | nil => rfl
  | cons operation rest ih =>
    obtain ⟨answer, after⟩ := perform_represents same operation
    simp only [observe]
    rw [answer, after.depth, after.color, ih after]

/-- A scope that copies what is visible shows the same, to every sequence of operations from the
start, as one that looks names up frame by frame. -/
theorem observe_eq_observe_chain (operations : List Operation) :
    Scope.scoping.observe {} operations = Chain.scoping.observe {} operations :=
  observe_represents represents_empty operations

end Scope

end GSharp
