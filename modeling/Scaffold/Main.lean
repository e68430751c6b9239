import Scaffold.CommandLine.Run
import Std.Time.DateTime.Timestamp

/-!
The program. Standard input names the files of the project, one path a line; the program sees these
files and no others. It carries out its command line, prints what there is to print, and writes the
files that have changed.
-/

open Scaffold

/-- The text that is printed when help is asked for. -/
def helpText : String :=
  let commands := CommandLine.fileForms.map CommandLine.Form.name ++
    CommandLine.groups.flatMap fun group => group.2.map fun form => group.1 ++ " " ++ form.name
  "\n".intercalate ("Commands:" :: commands.map fun name => "  " ++ name)

/-- The variables of the environment that the program looks at. -/
def variableNames : List String :=
  ["HOME", "CODEFACTORY_PROJECT_DIR", "CODEFACTORY_GENERATORS_DIR", "CODEFACTORY_MANIFEST"]

/-- Those variables that are set, with their values. -/
def readVariables : IO (List (String × String)) :=
  variableNames.filterMapM fun name => do
    return (← IO.getEnv name).map fun value => (name, value)

/-- What is in a file. -/
def readContent (path : String) : IO Content := do
  let raw ← IO.FS.readBinFile path
  match String.fromUTF8? raw with
  | some text => return .text text.toList
  | none => return .bytes raw.toList

/-- The store with the files that lines name. -/
partial def readFiles (input : IO.FS.Stream) (store : Store) : IO Store := do
  let line ← input.getLine
  let name := String.ofList (Text.dropRightWhile (· == '\n') line.toList)
  if line.isEmpty then return store
  else if name.isEmpty then readFiles input store
  else readFiles input (store.withFile (.ofString name) (← readContent name))

/-- The bytes of a file. -/
def bytesOfContent : Content → ByteArray
  | .text chars => (String.ofList chars).toUTF8
  | .bytes raw => ⟨raw.toArray⟩

/-- Brings a file or directory up to date. A file that was not there before must not exist. -/
def writeNode (before : Store) (key : Key) (node : Node) : IO Unit := do
  let path := "/" ++ "/".intercalate key
  if before.node? key != some node then
    match node with
    | .directory => IO.FS.createDirAll path
    | .file content =>
      let mode : IO.FS.Mode := if (before.node? key).isSome then .write else .writeNew
      (← IO.FS.Handle.mk path mode).write (bytesOfContent content)

/-- What is printed besides the output of a command. -/
def sayEnding : CommandLine.Ending → IO Unit
  | .stopped .help => IO.println helpText
  | .stopped .misuse => IO.eprintln helpText
  | .crashed error => IO.eprintln error.message
  | .finished _ => pure ()

/-- Carries out the command line. -/
def main (words : List String) : IO UInt32 := do
  let here := Path.ofString (toString (← IO.currentDir))
  let store ← readFiles (← IO.getStdin) (.withOnly here.names)
  let now : Instant := ⟨(← Std.Time.Timestamp.now).toMillisecondsSinceUnixEpoch.toInt.toNat⟩
  let outcome := CommandLine.run ⟨← readVariables, here⟩ now store words
  IO.print outcome.text
  outcome.bench.log.forM fun warning => IO.eprintln ("WARNING " ++ warning.message)
  outcome.bench.store.entries.forM fun entry => writeNode store entry.1 entry.2
  sayEnding outcome.ending
  return UInt32.ofNat (outcome.ending.exitCode?.getD 1)
