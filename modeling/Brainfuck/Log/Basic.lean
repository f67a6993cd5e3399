/-!
# Log events

An event has a level, the part of the program it comes from, a message and named
values.  Its line shows the level, the message and the values.
-/

namespace Brainfuck.Log

/-- How important an event is, the most important first. -/
inductive Level where
  | error
  | warn
  | info
  | debug
  | trace
  deriving DecidableEq, Repr

namespace Level

/-- The place of a level in the order of importance, counted from 1. -/
def rank : Level → Nat
  | .error => 1
  | .warn => 2
  | .info => 3
  | .debug => 4
  | .trace => 5

/-- The name of a level, filled up on the left to five characters. -/
def label : Level → String
  | .error => "ERROR"
  | .warn => " WARN"
  | .info => " INFO"
  | .debug => "DEBUG"
  | .trace => "TRACE"

end Level

/-- Something that is logged. -/
structure Event where
  level : Level
  target : String
  message : String
  fields : List (String × String) := []
  deriving DecidableEq, Repr

namespace Event

/-- The line of an event. -/
def line (e : Event) : String :=
  e.fields.foldl (fun text f => text ++ " " ++ f.1 ++ "=" ++ f.2)
    (e.level.label ++ " " ++ e.message)

/-- The names of what an event holds; the message is one of the values. -/
def fieldNames (e : Event) : List String := "message" :: e.fields.map Prod.fst

end Event

end Brainfuck.Log
