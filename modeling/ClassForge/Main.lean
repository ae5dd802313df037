import ClassForge.Command.Run

/-! # The program

Takes in the files that a command line names, runs the command line on them, and puts what it wrote
on the disk.
-/

namespace ClassForge.Program

/-- How the program is called. -/
def usage : String :=
  "Usage: classforge [OPTIONS] <COMMAND>\n\n" ++
  "Commands:\n" ++
  "  inflect <CLASS> [-o <KEY=VALUE>]...  Print the generated class name of a class\n" ++
  "  user-name <CLASS>                    Print the user class name of a class name\n" ++
  "  generate <DESCRIPTOR> [--rename <FQCN>] [--extends <FQCN>] [--implements <FQCN>]...\n" ++
  "      [--disable <METHOD>]... [--public-only] [--inflect] [-o <KEY=VALUE>]... [--write]\n" ++
  "                                       Generate a class from a JSON class descriptor\n" ++
  "  help                                 Print this message\n\n" ++
  "Options:\n" ++
  "  --config <PATH>  --namespace <NAMESPACE>  --output-dir <DIR>  --debug\n" ++
  "  -h, --help  -V, --version"

/-- What is wrong with a command line. -/
def complaint : UsageError → String
  | .missingSubcommand => "a command is required"
  | .invalidSubcommand => "there is no such command"
  | .unknownArgument => "unexpected argument"
  | .missingRequiredArgument => "a required argument was not given"
  | .invalidValue => "a value is required for an option"
  | .argumentConflict => "an option was given twice"
  | .tooManyValues => "a value was given to an option that takes none"
  | .displayHelp => "help"
  | .displayVersion => "version"

/-- Takes in what lies at a location. -/
def takeInEntry (store : FileStore) (location : Location) : IO FileStore := do
  let here ← IO.currentDir
  let path := here / location.text
  if ← path.isDir then
    return if store.isDirectory location then store else store.put location (.directory [])
  else if ← path.pathExists then return store.put location (.file (← IO.FS.readBinFile path))
  else return store

/-- Takes in what lies along a path. -/
def takeIn (store : FileStore) (path : String) : IO FileStore := do
  let mut store := store
  let mut location := store.startOf path
  for name in Path.names path do
    if name ≠ "" ∧ name ≠ "." then
      location := if name = ".." then location.dropLast else location ++ [name]
      if location ≠ [] then store ← takeInEntry store location
  return store

/-- The working directory and what a command line names. -/
def takeInAll (invocation : Invocation) : IO FileStore := do
  let here := (← IO.currentDir).toString
  let working := (Path.names here).filter (· ≠ "")
  let mut store ← takeIn {} here
  store := { store with working }
  for path in (invocation.globalValue? "config").toList ++ [invocation.operand] do
    store ← takeIn store path
  match Request.settings invocation store with
  | .ok settings => takeIn store settings.directory
  | .error _ => return store

/-- Puts what has changed on the disk. A file is written beside its place and then moved there. -/
def putOut (before after : FileStore) : IO Unit := do
  for (location, entry) in before.changes after do
    match entry with
    | .directory _ => IO.FS.createDirAll location.text
    | .file bytes =>
      let draft := location.text ++ ".tmp"
      IO.FS.writeBinFile draft bytes
      IO.FS.rename draft location.text

/-- Runs a command line. -/
def run (arguments : List String) : IO UInt32 := do
  match Invocation.ofArguments arguments with
  | .error .displayHelp =>
    IO.println usage
    return 0
  | .error .displayVersion =>
    IO.println ("classforge " ++ version)
    return 0
  | .error e =>
    IO.eprintln ("error: " ++ complaint e ++ "\n\n" ++ usage)
    return 2
  | .ok invocation =>
    let store ← takeInAll invocation
    let (result, after) := invocation.run store
    putOut store after
    match result with
    | .ok output =>
      IO.println output
      return 0
    | .error e =>
      IO.eprintln ("Error: " ++ e.report)
      return 1

end ClassForge.Program

def main (arguments : List String) : IO UInt32 :=
  ClassForge.Program.run arguments
