import GSharp.Files.Tree
import GSharp.Run

namespace GSharp

/-- What the command line asks for. The contents are a source, or the path of one. -/
structure Options where
  readsFile : Bool := false
  pipeMode : Bool := false
  seed : Option UInt64 := none
  width : Nat := 100
  height : Nat := 100
  contents : String := ""

/-- What the program writes, and its exit code. -/
structure Output where
  stdout : String
  stderr : String
  code : Nat
  deriving DecidableEq, Repr

namespace Options

/-- A whole number below a limit, in decimal digits that a plus sign may precede. -/
def number? (limit : Nat) (text : String) : Option Nat := do
  let digits := if text.startsWith "+" then (text.drop 1).toString else text
  guard (!digits.isEmpty && digits.all Char.isDigit)
  let n ← digits.toNat?
  guard (n < limit)
  return n

/-- The options that take a value, by their long names. -/
def setValue? (name value : String) (options : Options) : Option Options :=
  match name with
  | "seed" => do return { options with seed := some (UInt64.ofNat (← number? (2 ^ 64) value)) }
  | "width" => do return { options with width := ← number? (2 ^ 32) value }
  | "height" => do return { options with height := ← number? (2 ^ 32) value }
  | _ => none

/-- The options that take no value, by their long names. -/
def setFlag? (name : String) (options : Options) : Option Options :=
  match name with
  | "file" => some { options with readsFile := true }
  | "pipe-mode" => some { options with pipeMode := true }
  | _ => none

/-- The options read so far, the names they were given by, and the contents once they are found. -/
structure Arguments where
  options : Options := {}
  given : List String := []
  contents : Option String := none

namespace Arguments

/-- Gives an option, each at most once. -/
def give? (part : Arguments) (name : String) (options : Option Options) : Option Arguments := do
  guard (name ∉ part.given)
  return { part with options := ← options, given := name :: part.given }

def value? (part : Arguments) (name value : String) : Option Arguments :=
  part.give? name (setValue? name value part.options)

def flag? (part : Arguments) (name : String) : Option Arguments :=
  part.give? name (setFlag? name part.options)

def contents? (part : Arguments) (text : String) : Option Arguments :=
  match part.contents with
  | some _ => none
  | none => some { part with contents := some text }

/-- Reads joined short options, and whether the next argument is due as the seed. A seed takes the
rest of the letters as its value if there are any. -/
def letters? (part : Arguments) : List Char → Option (Arguments × Bool)
  | [] => some (part, false)
  | 'f' :: rest => do letters? (← part.flag? "file") rest
  | 'p' :: rest => do letters? (← part.flag? "pipe-mode") rest
  | ['s'] => some (part, true)
  | 's' :: '=' :: value => do return (← part.value? "seed" (.ofList value), false)
  | 's' :: value => do return (← part.value? "seed" (.ofList value), false)
  | _ => none

/-- Reads arguments from left to right. Options may follow the contents; two hyphens end them. -/
def read? (part : Arguments) : List String → Option Arguments
  | [] => some part
  | "--" :: rest => rest.foldlM contents? part
  | argument :: rest =>
    match argument.toList with
    | '-' :: '-' :: text =>
      let name := String.ofList (text.takeWhile (· ≠ '='))
      match text.dropWhile (· ≠ '=') with
      | _ :: value => do read? (← part.value? name (.ofList value)) rest
      | [] =>
        match part.flag? name, rest with
        | some part, rest => read? part rest
        | none, value :: rest => do read? (← part.value? name value) rest
        | none, [] => none
    | '-' :: letter :: letters =>
      match part.letters? (letter :: letters), rest with
      | some (part, false), rest => read? part rest
      | some (part, true), value :: rest => do read? (← part.value? "seed" value) rest
      | _, _ => none
    | _ => do read? (← part.contents? argument) rest

end Arguments

/-- The options of a command line that has exactly one argument for the contents. -/
def parse? (arguments : List String) : Option Options := do
  let part ← Arguments.read? {} arguments
  return { part.options with contents := ← part.contents }

/-- The directory that imports are named from. -/
def importRoot (options : Options) : String :=
  if options.readsFile then parentPath options.contents else "."

end Options

namespace Output

def lines (texts : List String) : String := String.join (texts.map (· ++ "\n"))

/-- A drawn figure or a printed text as a line of standard output. -/
def eventLine : Event → Option String
  | .drawn figure color label =>
    let line := "draw " ++ figure.text ++ " [" ++ color.text ++ "]"
    some (match label with
      | some label => line ++ " \"" ++ label ++ "\""
      | none => line)
  | .printed text => some text
  | .reported _ => none

/-- The file that holds the source cannot be read as text. -/
def unreadable (path : String) : Output where
  stdout := ""
  stderr := lines
    ["Failed to read the input file '" ++ path ++ "'. Perhaps this file does not exist?"]
  code := 1

/-- The command line cannot be understood. -/
def usage : Output where
  stdout := ""
  stderr := lines ["Usage: [-f] [-p] [-s SEED] [--width WIDTH] [--height HEIGHT] CONTENTS"]
  code := 2

/-- A run as text: events, the value in pipe mode, and errors. -/
def ofRun (pipeMode : Bool) (run : Run) : Output :=
  let shown := run.events.filterMap eventLine
  match run.outcome with
  | .value value => ⟨lines (if pipeMode then shown ++ [value.text] else shown), "", 0⟩
  | .errors errors => ⟨lines shown, lines (errors.map Error.report), 1⟩
  | .crashed reason => ⟨lines shown, lines [(crashError reason).report], 101⟩

end Output

namespace Options

/-- Runs a source with the options. A seed that was not asked for is up to the caller. -/
def run (options : Options) (source : String) (files : Files) (seed : UInt64) : Output :=
  .ofRun options.pipeMode <|
    GSharp.run source { width := options.width, height := options.height }
      { seed := options.seed.getD seed } files

/-- Runs the options where files are held in a tree. -/
def runIn (options : Options) (tree : FileTree) (seed : UInt64) : Output :=
  let files := tree.files options.importRoot
  if options.readsFile then
    match tree.read options.contents with
    | .ok source => options.run source files seed
    | .error _ => .unreadable options.contents
  else options.run options.contents files seed

end Options

/-- The whole command line where files are held in a tree. -/
def commandLine (arguments : List String) (tree : FileTree) (seed : UInt64) : Output :=
  match Options.parse? arguments with
  | some options => options.runIn tree seed
  | none => .usage

end GSharp
