/-!
# The console of a run

A run reads bytes, writes bytes and flushes what it has written.  Any of these
calls can be refused by the surroundings.  The surroundings of a run are fixed
(`Surroundings`); what has happened so far is the `Console`.

A refused read consumes nothing and a refused write adds nothing to the output,
but every call is entered in the log of calls, and a refused flush in the flush
log too.
-/

namespace Brainfuck

/-- The calls a run makes to its surroundings. -/
inductive Call where
  | read
  | write
  | flush
  deriving DecidableEq, Repr

/-- What is said of a refused call unless the surroundings say something else. -/
def Call.refusal : Call → String
  | .read => "read refused"
  | .write => "write refused"
  | .flush => "flush refused"

/-- A call that was refused, and what was said of it. -/
structure RefusedCall where
  call : Call
  reason : String
  deriving DecidableEq, Repr

/-- What a run finds around it: the input, the calls that will be refused, and what will
be said of them. -/
structure Surroundings where
  input : Array UInt8 := #[]
  /-- The read call to refuse, counted from 1. -/
  refusedRead : Option Nat := none
  /-- How many bytes are accepted before writes are refused. -/
  writeLimit : Option Nat := none
  /-- The flush call to refuse, counted from 1. -/
  refusedFlush : Option Nat := none
  /-- What is said of a refused call. -/
  reason : Call → String := Call.refusal

/-- A call as these surroundings refuse it. -/
def Surroundings.refusal (around : Surroundings) (call : Call) : RefusedCall :=
  ⟨call, around.reason call⟩

/-- What a run has done at the console so far. -/
structure Console where
  /-- How many bytes of the input have been read. -/
  consumed : Nat := 0
  /-- How many read calls have been made. -/
  reads : Nat := 0
  /-- The bytes written. -/
  output : Array UInt8 := #[]
  /-- The length of the output at each flush call. -/
  flushes : Array Nat := #[]
  /-- The calls made, in order. -/
  calls : Array Call := #[]
  deriving DecidableEq, Repr

namespace Console

/-- Flushes the output.  The answer is `false` when the call is refused. -/
def flush (around : Surroundings) (c : Console) : Bool × Console :=
  let c := { c with flushes := c.flushes.push c.output.size, calls := c.calls.push .flush }
  (around.refusedFlush != some c.flushes.size, c)

/-- Are no more bytes accepted? -/
def full (around : Surroundings) (c : Console) : Bool :=
  around.writeLimit.any fun limit => limit ≤ c.output.size

/-- Writes a byte.  The answer is `false` when the call is refused. -/
def write (around : Surroundings) (c : Console) (byte : UInt8) : Bool × Console :=
  let c := { c with calls := c.calls.push .write }
  if c.full around then (false, c) else (true, { c with output := c.output.push byte })

/-- What a read call brings. -/
inductive Reading where
  /-- The next byte of the input. -/
  | byte (b : UInt8)
  /-- The input is at its end. -/
  | atEnd
  /-- The call is refused. -/
  | refused
  deriving DecidableEq, Repr

/-- Reads a byte. -/
def read (around : Surroundings) (c : Console) : Reading × Console :=
  let c := { c with reads := c.reads + 1, calls := c.calls.push .read }
  if around.refusedRead = some c.reads then (.refused, c)
  else
    match around.input[c.consumed]? with
    | some b => (.byte b, { c with consumed := c.consumed + 1 })
    | none => (.atEnd, c)

end Console

end Brainfuck
