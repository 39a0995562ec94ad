import ManifestSchema.Command.Run

/-!
# The program

Takes the working directory and the environment into memory, runs the command that the arguments ask
for, and puts what it leaves behind in place.
-/

namespace ManifestSchema

namespace Program

/-- How many directories inside one another are looked into. -/
def depth : Nat := 64

/-- Add what is at an entry of a directory to a tree. What cannot be read is left out. -/
def addEntry : (levels : Nat) → Place → FileTree → IO.FS.DirEntry → IO FileTree
  | 0, _, t, _ => return t
  | levels + 1, parent, t, entry => do
      let place := parent ++ [entry.fileName]
      try
        if ← entry.path.isDir then
          let t := { t with directories := t.directories ++ [place] }
          (← entry.path.readDir).foldlM (addEntry levels place) t
        else
          let bytes ← IO.FS.readBinFile entry.path
          return { t with files := t.files ++ [(place, Content.ofBytes bytes.toList)] }
      catch _ => return t

/-- The working directory and everything below it. -/
def readFiles : IO FileTree := do
  (← (← IO.currentDir).readDir).foldlM (addEntry depth []) .empty

/-- The name and the value of a variable. -/
def variableOf (entry : String) : Option (String × String) :=
  match entry.splitOn "=" with
  | name :: value => if value.isEmpty then none else some (name, "=".intercalate value)
  | [] => none

/-- The variables of the process, as far as the system lists them. -/
def readEnvironment : IO (List (String × String)) := do
  try
    let bytes ← IO.FS.readBinFile "/proc/self/environ"
    return ((Content.ofBytes bytes.toList).shown.splitOn "\x00").filterMap variableOf
  catch _ => return []

/-- Put the directories and files in place that were not there before. -/
def writeFiles (before after : FileTree) : IO Unit := do
  for place in after.directories do
    if !before.directories.contains place then
      IO.FS.createDirAll ("/".intercalate place)
  for (path, content) in after.changesSince before do
    IO.FS.writeFile path content.shown

/-- The name of the program and its version. -/
def version : String := "decl-schema 0.1.0"

/-- What arguments are understood. -/
def usage : String :=
  "compile a type-system manifest into a JSON schema for declarative documents\n\n" ++
  "Usage: decl-schema <COMMAND>\n\nCommands:\n" ++
  "  generate  generate the schema document\n" ++
  "  roots     list the classes selected as resources, with their props types\n" ++
  "  config    print the effective configuration\n" ++
  "  help      print this message\n"

/-- What is wrong with the arguments. -/
def complaint : UsageNotice → String
  | .helpWanted | .versionWanted | .nothingWanted => ""
  | .unknownCommand => "error: unrecognized subcommand\n\n"
  | .unknownArgument => "error: unexpected argument found\n\n"
  | .missingOption => "error: the following required arguments were not provided: --input\n\n"
  | .unacceptableValue | .malformedValue => "error: invalid value for an option\n\n"
  | .unexpectedValue => "error: unexpected value for an option that takes none\n\n"
  | .repeatedOption => "error: an option cannot be used multiple times\n\n"

/-- Tell the user about arguments that name no command that can run. -/
def tell (notice : UsageNotice) : IO Unit := do
  match notice with
  | .helpWanted => IO.print usage
  | .versionWanted => IO.println version
  | other => IO.eprint (complaint other ++ usage)

/-- Run a command on the working directory. -/
def runCommand (command : Command) : IO UInt32 := do
  let files ← readFiles
  let outcome := command.run ⟨files, ← readEnvironment, ← (← IO.getStderr).isTty⟩
  writeFiles files outcome.files
  IO.print outcome.output
  IO.eprint outcome.messages
  return outcome.exitCode.toUInt32

end Program

end ManifestSchema

open ManifestSchema in
/-- Run the command that the arguments ask for. -/
def main (arguments : List String) : IO UInt32 := do
  match Command.ofArguments arguments with
  | .ok command => Program.runCommand command
  | .error notice =>
      Program.tell notice
      return notice.exitCode.toUInt32
