import GSharp.CommandLine

namespace GSharp

def FileFault.ofError : IO.Error → FileFault
  | .noFileOrDirectory _ _ _ => .notFound
  | .inappropriateType _ code description | .invalidArgument _ code description
  | .permissionDenied _ code description | .resourceExhausted _ code description =>
    match code with
    | 20 => .notADirectory
    | 21 => .isADirectory
    | 36 => .nameTooLong
    | code => .system description code.toNat
  | error => .system (toString error) 0

/-- The key of the file that a path leads to. -/
def resolvePath (path : String) : IO (Except FileFault String) := do
  if path.contains '\x00' then return .error .nulInName
  try return .ok (← IO.FS.realPath path).toString
  catch error => return .error (.ofError error)

def readText (path : String) : IO (Except FileFault String) := do
  try
    match String.fromUTF8? (← IO.FS.readBinFile path) with
    | some text => return .ok text
    | none => return .error .invalidText
  catch error => return .error (.ofError error)

/-- What is known of the disk: where paths lead, and what is found under a key. It is read before
the run, as far as the source can import. -/
structure Disk where
  paths : List (String × Except FileFault String) := []
  contents : List (String × Except FileFault String) := []

namespace Disk

/-- The paths that a source imports. -/
def importsOf (source : String) : List String :=
  (parse (scan source).tokens).program.filterMap fun statement =>
    match statement with
    | .importFile path _ => some path
    | _ => none

/-- Reads the files that paths lead to, and in turn the files that these import. -/
partial def load (importRoot : String) (disk : Disk) : List String → IO Disk
  | [] => return disk
  | path :: rest => do
    if (disk.paths.lookup path).isSome then load importRoot disk rest
    else
      let place ← resolvePath (joinPath importRoot path)
      let disk := { disk with paths := (path, place) :: disk.paths }
      match place with
      | .error _ => load importRoot disk rest
      | .ok key =>
        if (disk.contents.lookup key).isSome then load importRoot disk rest
        else
          let content ← readText key
          let disk := { disk with contents := (key, content) :: disk.contents }
          match content with
          | .ok source => load importRoot disk (importsOf source ++ rest)
          | .error _ => load importRoot disk rest

def files (disk : Disk) : Files where
  resolve path := (disk.paths.lookup path).getD (.error .notFound)
  texts := disk.contents.filterMap fun (key, content) =>
    match content with
    | .ok text => some (key, text)
    | .error _ => none
  fault key :=
    match disk.contents.lookup key with
    | some (.error fault) => fault
    | _ => .notFound

end Disk

/-- A seed for a run that asks for none. -/
def freshSeed : IO UInt64 := do
  let bytes ← IO.getRandomBytes 8
  return bytes.toList.foldl (fun seed byte => seed * 256 + byte.toUInt64) 0

def Options.runOnDisk (options : Options) : IO Output := do
  let source ← if options.readsFile then readText options.contents else pure (.ok options.contents)
  match source with
  | .error _ => return .unreadable options.contents
  | .ok source =>
    let disk ← Disk.load options.importRoot {} (Disk.importsOf source)
    return options.run source disk.files (← freshSeed)

end GSharp

def main (arguments : List String) : IO UInt32 := do
  let output ← match GSharp.Options.parse? arguments with
    | some options => options.runOnDisk
    | none => pure .usage
  IO.print output.stdout
  IO.eprint output.stderr
  return UInt32.ofNat output.code
