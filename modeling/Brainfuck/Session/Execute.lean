import Brainfuck.Command.Basic
import Brainfuck.Listing.Located
import Brainfuck.Session.Basic
import Brainfuck.Statistics

/-!
# Executing commands

Each command as a session.  Compiling is a matter of values; here it is only
logged and its refusals end the session.  A command compiles before it looks for
tools, and looks for the Go tool before it writes, so that a program that is
refused leaves nothing behind.
-/

namespace Brainfuck.Session

/-! ## Compiling -/

/-- The events of reading a text and shortening the program. -/
def readingEvents (options : Compile.Options) (text : String) : List Log.Event :=
  let ops := Source.read text
  let seen : List Log.Event :=
    [{ level := .info, target := pipelineTarget, message := "scanning" },
     { level := .debug, target := "bfgo::frontend::scanner", message := "scan finished",
       fields := [("ops", ops.length.repr)] }]
  if ops.isEmpty then seen
  else
    seen ++
      [{ level := .debug, target := pipelineTarget, message := "scanned",
         fields := [("ops", ops.length.repr)] }] ++
      (if options.shorten then
        [{ level := .info, target := pipelineTarget, message := "optimizing" },
         { level := .debug, target := "bfgo::bytecode::optimize",
           message := "peephole pass finished",
           fields := [("rewrites", (Peephole.replacements ops).repr),
             ("ops", (Peephole.shorten ops).length.repr)] }]
      else [])

/-- Logs events in their order. -/
def logAll (s : Setting) : List Log.Event → Session Unit
  | [] => pure ()
  | e :: rest => do
      log s e
      logAll s rest

/-- The program of a text. -/
def programOf (s : Setting) (options : Compile.Options) (text : String) : Session (List Op) := do
  logAll s (readingEvents options text)
  match Compile.program options text with
  | .ok ops => return ops
  | .error cause => fail (.rejected cause)

/-- The Go text for the source text in a file. -/
def goTextOfFile (s : Setting) (source : String) (options : Compile.Options) : Session String := do
  let text ← readText s source
  let ops ← programOf s options text
  log s { level := .info, target := pipelineTarget, message := "generating go source",
          fields := [("ops", ops.length.repr)] }
  match Go.write options.go ops with
  | .ok go =>
      log s { level := .debug, target := "bfgo::codegen::go", message := "go source generated",
              fields := [("bytes", go.utf8ByteSize.repr)] }
      return go
  | .error cause => fail (.rejected (.refused cause))

/-! ## Writing Go and using the tools -/

/-- Writes a Go text to the path for an output path and returns that path. -/
def saveGo (s : Setting) (go output : String) : Session String := do
  let path := Path.goFile output
  writeBytes s path (Wire.utf8 go)
  log s { level := .info, target := pipelineTarget, message := "exported",
          fields := [("path", path)] }
  return path

/-- Builds an executable from a Go file. -/
def buildExecutable (s : Setting) (tool : Tool) (goFile exe : String) : Session Unit := do
  log s { level := .info, target := pipelineTarget, message := "building",
          fields := [("source", goFile), ("exe", exe)] }
  start s "go" tool ["build", "-ldflags", "-s -w", "-o", exe, goFile]

/-- Packs an executable. -/
def pack (s : Setting) (exe : String) : Session Unit := do
  let packer ← findTool s "upx"
  log s { level := .info, target := pipelineTarget, message := "compressing",
          fields := [("exe", exe)] }
  start s "upx" packer ["--brute", exe]

/-- Runs a Go text from a temporary file. -/
def runText (s : Setting) (tool : Tool) (go : String) : Session Unit :=
  withTemporary s fun directory => do
    let goFile := directory ++ "/main.go"
    writeBytes s goFile (Wire.utf8 go)
    log s { level := .info, target := pipelineTarget, message := "running",
            fields := [("source", goFile)] }
    start s "go" tool ["run", goFile]

/-! ## The commands -/

/-- The program to interpret. -/
def loadProgram (s : Setting) (program : ProgramFile) (options : Compile.Options) :
    Session (List Op) := do
  match program with
  | .source path => programOf s options (← readText s path)
  | .saved path =>
      match SavedProgram.decode (← readBytes s path) with
      | .ok saved => return saved.ops
      | .error cause => fail (.notLoaded cause)

/-- Runs a program on a machine.  What it wrote is printed, also when it fails. -/
def interpretOn (s : Setting) (ops : List Op) (machine : Machine) : Session Unit := do
  match machine.run s.fuel ops { input := s.stdin.toArray } with
  | none => throw .outOfFuel
  | some outcome =>
      print outcome.console.output.toList
      match outcome.fault? with
      | none => pure ()
      | some fault => Session.fail (.fault fault)

/-- Builds a machine and runs a program on it.  The brackets of the program are not looked
at before there is a machine. -/
def interpret (s : Setting) (ops : List Op) (settings : Machine.Settings) : Session Unit :=
  match Machine.build s.memory settings with
  | .error cause => Session.fail (.noTape cause)
  | .ok machine => interpretOn s ops machine

/-- Lists the operations of a source file. -/
def list (s : Setting) (source : String) (request : ListingRequest) (options : Compile.Options) :
    Session Unit := do
  let text ← readText s source
  if request.raw then
    let style : Listing.Style := { color := !request.noColor, pretty := request.pretty }
    printText (style.render (Source.readLocated text))
  let ops ← programOf s options text
  if !request.raw then printText (Listing.titled ops)
  if request.stats then printText (Statistics.render ops)
  match request.saveTo with
  | none => pure ()
  | some path =>
      writeBytes s path (SavedProgram.encode ⟨options.shorten, ops⟩)
      log s { level := .info, target := "bfgo::cli", message := "opcode stream saved",
              fields := [("path", path)] }

/-- Executes a command. -/
def execute (s : Setting) : Command → Session Unit
  | .exportGo source output options => do
      let go ← goTextOfFile s source options
      let path ← saveGo s go output
      report ("Exported " ++ path)
  | .build source output packed options => do
      let go ← goTextOfFile s source options
      let tool ← findTool s "go"
      let goFile ← saveGo s go output
      let exe := Path.executable output
      buildExecutable s tool goFile exe
      if packed then pack s exe
      report ("Built " ++ exe)
  | .run source options => do
      let go ← goTextOfFile s source options
      let tool ← findTool s "go"
      runText s tool go
  | .emit source options => do
      let go ← goTextOfFile s source options
      printText go
  | .interpret program maxSteps options => do
      let ops ← loadProgram s program options
      interpret s ops { tapeSize := options.go.tapeSize, maxSteps }
  | .list source request options => list s source request options

/-- How a session ended. -/
inductive Ending where
  | success
  | failure (f : Failure)
  /-- The machine has used up the fuel of the session. -/
  | outOfFuel
  deriving DecidableEq, Repr

/-- Runs a command in a world of files. -/
def perform (s : Setting) (command : Command) (files : Files) : Ending × World :=
  match (execute s command).run { files } with
  | (.ok (), w) => (.success, w)
  | (.error (.failed f), w) => (.failure f, w)
  | (.error .outOfFuel, w) => (.outOfFuel, w)

/-- The exit status for an ending. -/
def Ending.exitCode : Ending → Nat
  | .success => 0
  | .failure f => f.exitCode
  | .outOfFuel => 1

end Brainfuck.Session
