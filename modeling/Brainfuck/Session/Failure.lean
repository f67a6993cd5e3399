import Brainfuck.Compile
import Brainfuck.Machine.Basic
import Brainfuck.SavedProgram
import Brainfuck.Text.Quoted
import Brainfuck.Tool

/-!
# Why a command fails

Each failure has an identifier, a message and, for some, advice and the errors it
was caused by.  Where there is no memory for the tape the program breaks down: that is not
reported as the other failures are, and it has a status of its own.
-/

namespace Brainfuck

/-- Why a command failed. -/
inductive Failure where
  | unreadable (path : String) (cause : FileError)
  | unwritable (path : String) (cause : FileError)
  | rejected (cause : Compile.Rejection)
  | noTape (cause : Machine.NoTape)
  | fault (cause : Machine.Fault)
  | notLoaded (cause : SavedProgram.LoadError)
  | toolNotFound (tool : String)
  | toolNotStarted (tool : String) (cause : FileError)
  | toolFailed (tool : String) (status : ExitStatus)
  | noTemporary (cause : FileError) (place : String)
  deriving DecidableEq, Repr

namespace Failure

/-- The message shown to the user. -/
def message : Failure → String
  | .unreadable path cause => "failed to read '" ++ path ++ "': " ++ cause.message
  | .unwritable path cause => "failed to write '" ++ path ++ "': " ++ cause.message
  | .rejected cause => cause.message
  | .noTape .tooLarge => "capacity overflow"
  | .noTape (.outOfMemory cells) => "memory allocation of " ++ cells.repr ++ " bytes failed"
  | .fault cause => cause.message
  | .notLoaded cause => cause.message
  | .toolNotFound tool => "'" ++ tool ++ "' was not found in PATH"
  | .toolNotStarted tool cause => "failed to start '" ++ tool ++ "': " ++ cause.message
  | .toolFailed tool status => "'" ++ tool ++ "' exited with " ++ status.message
  | .noTemporary cause place =>
      "failed to create a temporary directory: " ++ cause.message ++ " at path " ++
        Text.quoted place

/-- The identifier of the kind of failure; a breakdown has none. -/
def code : Failure → String
  | .unreadable _ _ => "bfgo::read"
  | .unwritable _ _ => "bfgo::write"
  | .rejected cause => cause.code
  | .noTape _ => ""
  | .fault _ => "bfgo::runtime"
  | .notLoaded _ => "bfgo::ir"
  | .toolNotFound _ => "bfgo::tool_not_found"
  | .toolNotStarted _ _ => "bfgo::spawn"
  | .toolFailed _ _ => "bfgo::tool_failed"
  | .noTemporary _ _ => "bfgo::tempdir"

/-- The advice shown with the message. -/
def help? : Failure → Option String
  | .rejected cause => some cause.help
  | .toolNotFound _ => some "install the tool or add its directory to PATH"
  | _ => none

/-- The errors the failure was caused by, the nearest first. -/
def causes : Failure → List String
  | .unreadable _ cause | .unwritable _ cause | .toolNotStarted _ cause => [cause.message]
  | .fault (.refused refusal) => [refusal.reason]
  | .toolNotFound _ => ["cannot find binary path"]
  | _ => []

/-- The exit status of the program.  A tape that no block of memory can hold is found out by
the program itself; for want of memory it is stopped by the signal 6, to which a shell adds
128. -/
def exitCode : Failure → Nat
  | .noTape .tooLarge => 101
  | .noTape (.outOfMemory _) => 134
  | _ => 1

end Failure

end Brainfuck
