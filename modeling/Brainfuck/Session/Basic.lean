import Brainfuck.Log.Filter
import Brainfuck.Session.Failure
import Brainfuck.Text.Lines
import Brainfuck.Wire.Scalar

/-!
# Sessions

A session is the execution of one command.  It reads and writes files, starts
tools, prints and logs, and ends early with a failure.  What it finds is its
`Setting`, what it has done so far is its `World`.

The basic actions here are the only ones that touch the world; commands are put
together from them.
-/

namespace Brainfuck

/-- What a session finds around it. -/
structure Setting where
  /-- The working directory. -/
  cwd : Location := []
  /-- The tools on the search path, by name. -/
  tool? : String → Option Tool := fun _ => none
  /-- The directory in which the tools are. -/
  toolDir : String := ""
  /-- The directory for temporary files. -/
  tempDir : String := "/tmp"
  /-- The standard input. -/
  stdin : List UInt8 := []
  /-- Which events are logged. -/
  filter : Log.Filter := []
  /-- The number of cells in the largest block of memory that is left. -/
  memory : Nat := Machine.tapeLimit
  /-- After how many steps the machine is given up. -/
  fuel : Nat := 0

/-- What a session has done so far. -/
structure World where
  files : Files := {}
  stdout : List UInt8 := []
  /-- The messages on the standard error, each followed by a line feed. -/
  stderr : List String := []
  /-- The tools started, in order. -/
  calls : List ToolCall := []

/-- The lines on the standard error.  A message can have more than one. -/
def World.errorLines (w : World) : List String := w.stderr.flatMap Text.lines

/-- Why a session ends early. -/
inductive Halt where
  | failed (failure : Failure)
  /-- The machine has used up the fuel of the session. -/
  | outOfFuel
  deriving DecidableEq, Repr

/-- An action of a session. -/
abbrev Session (α : Type) := ExceptT Halt (StateM World) α

namespace Session

/-- Ends the session with a failure. -/
def fail {α : Type} (failure : Failure) : Session α := throw (.failed failure)

/-- Writes a message to the standard error. -/
def report (message : String) : Session Unit :=
  modify fun w => { w with stderr := w.stderr ++ [message] }

/-- Logs an event, if it is to be logged. -/
def log (s : Setting) (e : Log.Event) : Session Unit :=
  if s.filter.admits e then report e.line else pure ()

/-- Writes to the standard output. -/
def print (bytes : List UInt8) : Session Unit :=
  modify fun w => { w with stdout := w.stdout ++ bytes }

/-- Writes a text to the standard output. -/
def printText (text : String) : Session Unit := print (Wire.utf8 text)

/-! ## Files -/

/-- The content of a file. -/
def readBytes (s : Setting) (path : String) : Session (List UInt8) := do
  match (← get).files.read s.cwd path with
  | .ok content => return content
  | .error cause => fail (.unreadable path cause)

/-- The text of a file. -/
def readText (s : Setting) (path : String) : Session String := do
  match Wire.ofUtf8? (← readBytes s path) with
  | some text => return text
  | none => fail (.unreadable path .notUtf8)

/-- Writes a file. -/
def writeBytes (s : Setting) (path : String) (content : List UInt8) : Session Unit := do
  let w ← get
  match w.files.write s.cwd path content with
  | .ok files => set { w with files }
  | .error cause => fail (.unwritable path cause)

/-! ## Tools -/

/-- The part of the program the events of this module come from. -/
def pipelineTarget : String := "bfgo::driver"

/-- Finds a tool on the search path. -/
def findTool (s : Setting) (name : String) : Session Tool :=
  match s.tool? name with
  | some tool => return tool
  | none => fail (.toolNotFound name)

/-- The command line of a tool as it is logged. -/
def commandLine (s : Setting) (name : String) (args : List String) : String :=
  " ".intercalate (((s.toolDir ++ "/" ++ name) :: args).map Text.quoted)

/-- Starts a tool and waits for its end. -/
def start (s : Setting) (name : String) (tool : Tool) (args : List String) : Session Unit := do
  log s { level := .debug, target := pipelineTarget, message := "spawning",
          fields := [("cmd", commandLine s name args)] }
  match tool with
  | .broken cause => fail (.toolNotStarted name cause)
  | .program behave =>
      let w ← get
      let call : ToolCall := ⟨name, args, w.files⟩
      let done := behave args s.cwd w.files
      set { w with
        files := done.files
        stdout := w.stdout ++ done.stdout
        calls := w.calls ++ [call] }
      if done.status.success then pure () else fail (.toolFailed name done.status)

/-- Runs an action with a temporary directory and removes the directory, however the
action ends. -/
def withTemporary (s : Setting) (action : String → Session Unit) : Session Unit := do
  let place := Path.inside s.tempDir ".tmp"
  let w ← get
  match w.files.follow s.cwd place with
  | .error cause => fail (.noTemporary cause place)
  | .ok location =>
      set { w with files := w.files.put location .directory }
      tryFinally (action place)
        (modify fun w => { w with files := w.files.remove location })

end Session

end Brainfuck
