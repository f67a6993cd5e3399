import Brainfuck.Go.Program
import Brainfuck.Peephole
import Brainfuck.Source

/-!
# From source text to Go

A text is read, shortened unless that is switched off, and written as Go.
`Compile.goText` refuses a text without instructions; `Compile.goTextOfAny` takes
it for the empty program.
-/

namespace Brainfuck.Compile

/-- How a text is compiled. -/
structure Options where
  /-- Shorten the program. -/
  shorten : Bool := true
  go : Go.Settings := {}
  deriving DecidableEq, Repr

/-- Why a text cannot be compiled. -/
inductive Rejection where
  /-- There is no instruction in the text. -/
  | emptyProgram
  /-- The program cannot be written as Go. -/
  | refused (cause : Go.Refusal)
  deriving DecidableEq, Repr

namespace Rejection

/-- The message shown to the user. -/
def message : Rejection → String
  | .emptyProgram => "input program contains no instructions"
  | .refused cause => cause.message

/-- The identifier of the kind of fault. -/
def code : Rejection → String
  | .emptyProgram => "bfgo::empty_program"
  | .refused cause => cause.code

/-- The advice shown with the message. -/
def help : Rejection → String
  | .emptyProgram => "a program needs at least one of the characters > < + - . , [ ]"
  | .refused cause => cause.help

end Rejection

/-- The program as the options want it. -/
def Options.apply (options : Options) (ops : List Op) : List Op :=
  if options.shorten then Peephole.shorten ops else ops

/-- The program of a text. -/
def program (options : Options) (text : String) : Except Rejection (List Op) :=
  match Source.read text with
  | [] => .error .emptyProgram
  | ops => .ok (options.apply ops)

/-- The Go program of a text. -/
def goText (options : Options) (text : String) : Except Rejection String := do
  let ops ← program options text
  match Go.write options.go ops with
  | .ok go => return go
  | .error cause => .error (.refused cause)

/-- The Go program of a text that may be without instructions. -/
def goTextOfAny (settings : Go.Settings) (text : String) : Except Go.Refusal String :=
  Go.write settings (Peephole.shorten (Source.read text))

end Brainfuck.Compile
