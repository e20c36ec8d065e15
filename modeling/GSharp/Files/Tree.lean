import GSharp.Files

namespace GSharp

/-- The content of a file: its text, or nothing where its bytes are no text. -/
inductive FileEntry where
  | directory
  | file (text : Option String)
  deriving DecidableEq, Repr

/-- Entries by their parts from the root on. Every directory above an entry exists, and so does the
working directory. -/
structure FileTree where
  workingDirectory : List String
  entries : List (List String × FileEntry)

namespace FileTree

def isDirectory (tree : FileTree) (location : List String) : Bool :=
  location.isPrefixOf tree.workingDirectory ||
    tree.entries.any fun (parts, entry) =>
      location.isPrefixOf parts && (location.length < parts.length || entry = .directory)

def exists? (tree : FileTree) (location : List String) : Bool :=
  tree.isDirectory location || tree.entries.any fun (parts, _) => parts = location

/-- The longest name of a directory entry, in bytes. -/
def nameLimit : Nat := 255

/-- Follows the parts of a path. Every part, an empty one too, asks for a directory to start in. -/
def follow (tree : FileTree) (location : List String) : List String → Except FileFault (List String)
  | [] => .ok location
  | part :: rest =>
    if !tree.isDirectory location then .error .notADirectory
    else if part = "" || part = "." then follow tree location rest
    else if part = ".." then follow tree location.dropLast rest
    else if nameLimit < part.utf8ByteSize then .error .nameTooLong
    else if tree.exists? (location ++ [part]) then follow tree (location ++ [part]) rest
    else .error .notFound

/-- The place that a path leads to from the working directory. -/
def locate (tree : FileTree) (path : String) : Except FileFault (List String) :=
  if path.contains '\x00' then .error .nulInName
  else if path.isEmpty then .error .notFound
  else
    let start := if path.startsWith "/" then [] else tree.workingDirectory
    tree.follow start (path.splitOn "/")

def key (location : List String) : String := "/" ++ "/".intercalate location

/-- The text at a place. -/
def textAt (tree : FileTree) (location : List String) : Except FileFault String :=
  match tree.entries.lookup location with
  | some (.file (some text)) => .ok text
  | some (.file none) => .error .invalidText
  | _ => if tree.isDirectory location then .error .isADirectory else .error .notFound

def read (tree : FileTree) (path : String) : Except FileFault String := do
  tree.textAt (← tree.locate path)

/-- The files of the tree for imports named relative to a directory. -/
def files (tree : FileTree) (importRoot : String) : Files where
  resolve path := (tree.locate (joinPath importRoot path)).map key
  texts := tree.entries.filterMap fun (location, _) =>
    match tree.textAt location with
    | .ok text => some (key location, text)
    | .error _ => none
  fault target :=
    match tree.entries.find? fun (location, _) => key location = target with
    | some (location, _) =>
      match tree.textAt location with
      | .ok _ => .notFound
      | .error fault => fault
    | none => .isADirectory

end FileTree

end GSharp
