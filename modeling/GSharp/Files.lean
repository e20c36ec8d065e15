namespace GSharp

inductive FileFault where
  | notFound | notADirectory | isADirectory | nameTooLong
  | invalidText | nulInName
  | system (description : String) (code : Nat)
  deriving DecidableEq, Repr

def FileFault.text : FileFault → String
  | notFound => "No such file or directory (os error 2)"
  | notADirectory => "Not a directory (os error 20)"
  | isADirectory => "Is a directory (os error 21)"
  | nameTooLong => "File name too long (os error 36)"
  | invalidText => "stream did not contain valid UTF-8"
  | nulInName => "file name contained an unexpected NUL byte"
  | system description code => description ++ " (os error " ++ Nat.repr code ++ ")"

/-- What paths resolve to, which is one key for every spelling of a path; the texts that can be read
under a key, and why any other key cannot be. -/
structure Files where
  resolve : String → Except FileFault String
  texts : List (String × String)
  fault : String → FileFault

namespace Files

/-- No file at all. -/
def none : Files := ⟨fun _ => .error .notFound, [], fun _ => .notFound⟩

def read (files : Files) (key : String) : Except FileFault String :=
  match files.texts.lookup key with
  | some text => .ok text
  | Option.none => .error (files.fault key)

end Files

/-- The path of a file named relative to a directory. An absolute path stands for itself. -/
def joinPath (directory path : String) : String :=
  if path.startsWith "/" || directory.isEmpty then path
  else if directory.endsWith "/" then directory ++ path
  else directory ++ "/" ++ path

/-- The directory that a path names something in: the path less its last part. -/
def parentPath (path : String) : String :=
  let parts := path.toList.reverse.dropWhile (· = '/')
  let above := parts.dropWhile (· ≠ '/')
  let kept := above.dropWhile (· = '/')
  if parts.isEmpty then ""
  else if kept.isEmpty && !above.isEmpty then "/"
  else .ofList kept.reverse

end GSharp
