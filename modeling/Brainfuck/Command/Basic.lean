import Brainfuck.Compile

/-!
# Commands

What can be asked of the program on its command line.
-/

namespace Brainfuck

/-- Where the program to interpret comes from. -/
inductive ProgramFile where
  /-- A source text. -/
  | source (path : String)
  /-- A saved program. -/
  | saved (path : String)
  deriving DecidableEq, Repr

/-- What a listing of operations shows and keeps. -/
structure ListingRequest where
  /-- List the operations as they were read, with their positions. -/
  raw : Bool := false
  noColor : Bool := false
  pretty : Bool := false
  /-- Print the frequency table. -/
  stats : Bool := false
  /-- Save the program to this path. -/
  saveTo : Option String := none
  deriving DecidableEq, Repr

/-- A command with its arguments. -/
inductive Command where
  /-- Write the Go text to a file. -/
  | exportGo (source output : String) (options : Compile.Options)
  /-- Build an executable, and pack it if asked to. -/
  | build (source output : String) (compress : Bool) (options : Compile.Options)
  /-- Run the program through the Go tool. -/
  | run (source : String) (options : Compile.Options)
  /-- Print the Go text. -/
  | emit (source : String) (options : Compile.Options)
  /-- Run the program on the machine. -/
  | interpret (program : ProgramFile) (maxSteps : Option Nat) (options : Compile.Options)
  /-- List the operations of a program. -/
  | list (source : String) (request : ListingRequest) (options : Compile.Options)
  deriving DecidableEq, Repr

/-- A command line that has been understood. -/
structure Invocation where
  /-- How often more log output was asked for. -/
  verbosity : Nat
  command : Command
  deriving DecidableEq, Repr

end Brainfuck
