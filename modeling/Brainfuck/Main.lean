import Brainfuck.Command.Usage
import Brainfuck.Session.Execute

/-!
# The command line program

The outermost layer.  It reads the files a command names from disk into a tree of
files, performs the command on that tree, and writes what the command printed and
the files it wrote.  No tools are started from here, so commands that need one
report that it was not found.
-/

namespace Brainfuck.Main

/-- The working directory inside the tree of files. -/
def workDir : Location := ["work"]

/-- The place a path leads to when every segment of it is a directory. -/
def placeOf (path : String) : Location :=
  (Files.segments path).foldl (fun here segment =>
    if segment = "" ∨ segment = "." then here
    else if segment = ".." then here.dropLast
    else here ++ [segment]) (Files.origin workDir path)

/-- The tree with an entry at a path, and directories on the way to it. -/
def plant (fs : Files) (path : String) (e : Entry) : Files :=
  let place := placeOf path
  let fs := (List.range place.length).foldl (fun fs n =>
    if (fs.entry? (place.take n)).isSome then fs else fs.put (place.take n) .directory) fs
  if place = [] then fs else fs.put place e

/-- The path of the directory that holds the entry of a path. -/
def parentOf (path : String) : String :=
  match Path.namedReverse path.toList with
  | [] => path ++ "/.."
  | [_] => "."
  | _ :: parents =>
      let text := Path.join parents.reverse
      if text = [] then "/" else String.ofList text

/-- The paths of the files a command reads. -/
def inputs : Command → List String
  | .exportGo source _ _ | .build source _ _ _ | .run source _ | .emit source _ => [source]
  | .interpret (.source path) _ _ | .interpret (.saved path) _ _ => [path]
  | .list source _ _ => [source]

/-- The paths of the files a command writes. -/
def outputs : Command → List String
  | .exportGo _ output _ | .build _ output _ _ => [Path.goFile output]
  | .list _ request _ => request.saveTo.toList
  | _ => []

/-- Is there a directory at a path? -/
def isDirectory (path : String) : IO Bool := do
  try
    (← IO.FS.realPath path).isDir
  catch _ => return false

/-- What stands at a path on disk. -/
def entryOnDisk (path : String) : IO (Option Entry) := do
  if ← isDirectory path then return some .directory
  try
    let content ← IO.FS.readBinFile path
    return some (.file content.toList)
  catch _ => return none

/-- The tree with what stands on disk at a path and above it. -/
def load (fs : Files) (path : String) : IO Files := do
  let parent := parentOf path
  let fs ← match ← entryOnDisk parent with
    | some e => pure (if (fs.entry? (placeOf parent)).isSome then fs else plant fs parent e)
    | none => pure fs
  match ← entryOnDisk path with
  | some e => return plant fs path e
  | none => return fs

/-- Reads a stream to its end. -/
partial def readAll (stream : IO.FS.Stream) (seen : ByteArray) : IO ByteArray := do
  let chunk ← stream.read 65536
  if chunk.isEmpty then return seen else readAll stream (seen ++ chunk)

/-- Writes to disk the files in which two trees differ. -/
def save (before after : Files) (paths : List String) : IO Unit := do
  for path in paths do
    match before.read workDir path, after.read workDir path with
    | .ok old, .ok new => if old ≠ new then IO.FS.writeBinFile path ⟨new.toArray⟩
    | .error _, .ok new => IO.FS.writeBinFile path ⟨new.toArray⟩
    | _, _ => pure ()

/-- What is said of a command line that is not understood. -/
def usageText : String :=
  "Usage: bfgo [OPTIONS] <COMMAND>\n\nCommands: export, build, run, emit, interpret, ops, help\n"

/-- Steps after which the machine is given up. -/
def fuel : Nat := 4000000000000000000

/-- Performs a command that has been understood. -/
def perform (invocation : Invocation) : IO UInt32 := do
  let command := invocation.command
  let mut files : Files := {}
  files := files.put workDir .directory
  for path in inputs command ++ outputs command do
    files ← load files path
  let stdin ← match command with
    | .interpret .. => readAll (← IO.getStdin) ByteArray.empty
    | _ => pure ByteArray.empty
  let setting : Setting := {
    cwd := workDir
    stdin := stdin.toList
    filter := Log.chosenFilter (← IO.getEnv "RUST_LOG") invocation.verbosity
    fuel }
  let (ending, world) := Session.perform setting command files
  let stdout ← IO.getStdout
  stdout.write ⟨world.stdout.toArray⟩
  stdout.flush
  for line in world.stderr do
    IO.eprintln line
  save files world.files (outputs command)
  match ending with
  | .failure f =>
      IO.eprintln (f.code ++ "\n" ++ f.message)
      match f.help? with
      | some help => IO.eprintln ("help: " ++ help)
      | none => pure ()
  | _ => pure ()
  return ending.exitCode.toUInt32

end Brainfuck.Main

open Brainfuck in
/-- Understands the command line and performs the command. -/
def main (args : List String) : IO UInt32 := do
  match Usage.parse args with
  | .ok invocation => Brainfuck.Main.perform invocation
  | .error e =>
      match e with
      | .version => IO.print Usage.versionText
      | .help => IO.print Brainfuck.Main.usageText
      | _ => IO.eprint Brainfuck.Main.usageText
      return e.exitCode.toUInt32
