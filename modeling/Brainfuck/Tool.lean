import Brainfuck.Files

/-!
# External tools

The Go compiler and the executable packer are programs of their own.  A tool that
is found either cannot be started or does something to the files, writes to the
standard output and ends with a status.

`Tool.standIn` is a tool that only leaves marks of its work: asked to run a file it
prints the file, asked to build it writes a fixed executable.
-/

namespace Brainfuck

/-- How a program ended. -/
inductive ExitStatus where
  | code (n : Nat)
  | signal (n : Nat)
  deriving DecidableEq, Repr

namespace ExitStatus

/-- Did the program end without an error? -/
def success (s : ExitStatus) : Bool := s = .code 0

/-- The names of the signals, the first of which has the number 1. -/
def signalNames : List String :=
  ["SIGHUP", "SIGINT", "SIGQUIT", "SIGILL", "SIGTRAP", "SIGABRT", "SIGBUS", "SIGFPE", "SIGKILL",
   "SIGUSR1", "SIGSEGV", "SIGUSR2", "SIGPIPE", "SIGALRM", "SIGTERM", "SIGSTKFLT", "SIGCHLD",
   "SIGCONT", "SIGSTOP", "SIGTSTP", "SIGTTIN", "SIGTTOU", "SIGURG", "SIGXCPU", "SIGXFSZ",
   "SIGVTALRM", "SIGPROF", "SIGWINCH", "SIGIO", "SIGPWR", "SIGSYS"]

/-- What is said of the status. -/
def message : ExitStatus → String
  | .code n => "exit status: " ++ n.repr
  | .signal n =>
      "signal: " ++ n.repr ++
        match n with
        | 0 => ""
        | k + 1 =>
            match signalNames[k]? with
            | some name => " (" ++ name ++ ")"
            | none => ""

end ExitStatus

/-- What a tool has done when it ends. -/
structure ToolRun where
  files : Files
  stdout : List UInt8
  status : ExitStatus

/-- A tool that has been started. -/
structure ToolCall where
  name : String
  args : List String
  /-- The files the tool found. -/
  found : Files
  deriving DecidableEq, Repr

/-- A tool that is found on the search path. -/
inductive Tool where
  /-- It cannot be started; unless another cause is given, what it needs is not found. -/
  | broken (cause : FileError := .notFound)
  /-- It is started with arguments in a working directory. -/
  | program (behave : List String → Location → Files → ToolRun)

namespace Tool

/-- The executable a stand-in builds: `EXE`. -/
def builtExecutable : List UInt8 := [69, 88, 69]

/-- What a stand-in prints: the file it is asked to run. -/
def standInOutput (args : List String) (cwd : Location) (fs : Files) : List UInt8 :=
  match args with
  | "run" :: path :: _ => (fs.read cwd path).toOption.getD []
  | _ => []

/-- The files after the work of a stand-in.  Only a build that succeeds writes, and
only where it can. -/
def standInFiles (status : ExitStatus) (args : List String) (cwd : Location) (fs : Files) :
    Files :=
  match args with
  | "build" :: _ :: _ :: _ :: exe :: _ =>
      if status.success then (fs.write cwd exe builtExecutable).toOption.getD fs else fs
  | _ => fs

/-- A tool that ends with the given status and leaves marks of what it was asked
for. -/
def standIn (status : ExitStatus) : Tool :=
  .program fun args cwd fs =>
    ⟨standInFiles status args cwd fs, standInOutput args cwd fs, status⟩

end Tool

end Brainfuck
