import Brainfuck.Machine.Console
import Brainfuck.Machine.Jumps

/-!
# The tape machine

The machine has a tape of byte cells, a pointer to one of them and a counter of
executed operations.  A run executes a program from a zeroed tape, one operation
per step, and ends when the program ends, when an operation fails, or when the
step limit is reached.

* `Machine.build` builds a machine, if there is memory for its tape.
* `Machine.step` is one step.
* `Machine.runFor` follows the steps as long as its fuel lasts; it has no answer
  for a run that needs more.
* `Machine.run` is a whole run: reset, match the brackets, execute.

A failed operation changes neither the tape nor the pointer.
-/

namespace Brainfuck

namespace Machine

/-- What a machine is built with. -/
structure Settings where
  /-- Number of cells of the tape. -/
  tapeSize : Nat := defaultTapeSize
  /-- How many operations a run may execute. -/
  maxSteps : Option Nat := none
  deriving DecidableEq, Repr

/-- Why a run stopped before the end of its program. -/
inductive Fault where
  /-- The bracket at `index` has no partner. -/
  | unmatchedLoop (index : Nat)
  /-- The operation at `index` needs a cell outside the tape. -/
  | outOfTape (index tapeSize : Nat)
  /-- The limit of executed operations is used up. -/
  | stepLimit (limit : Nat)
  /-- A call to the surroundings was refused. -/
  | refused (refusal : RefusedCall)
  deriving DecidableEq, Repr

/-- The message shown to the user. -/
def Fault.message : Fault → String
  | .unmatchedLoop i => "runtime error: loop bracket at op " ++ i.repr ++ " has no partner"
  | .outOfTape i n =>
      "runtime error: pointer moved out of the tape at op " ++ i.repr ++
        " (tape size " ++ n.repr ++ ")"
  | .stepLimit m => "runtime error: execution step limit exceeded (" ++ m.repr ++ ")"
  | .refused refusal => "runtime error: i/o failed: " ++ refusal.reason

/-- Why there is no memory for a tape. -/
inductive NoTape where
  /-- No block of memory can have so many cells. -/
  | tooLarge
  /-- There is no block of `cells` cells left. -/
  | outOfMemory (cells : Nat)
  deriving DecidableEq, Repr

end Machine

/-- A machine between runs or inside one. -/
structure Machine where
  settings : Machine.Settings
  tape : Array UInt8
  ptr : Nat
  steps : Nat

namespace Machine

/-- A machine with a zeroed tape. -/
def ofSettings (settings : Settings) : Machine where
  settings
  tape := Array.replicate settings.tapeSize 0
  ptr := 0
  steps := 0

/-- The number of cells that a block of memory can have at most. -/
def tapeLimit : Nat := 9223372036854775807

/-- Builds a machine with a zeroed tape where the largest block of memory that is left has
`free` cells. -/
def build (free : Nat) (settings : Settings) : Except NoTape Machine :=
  if tapeLimit < settings.tapeSize then .error .tooLarge
  else if free < settings.tapeSize then .error (.outOfMemory settings.tapeSize)
  else .ok (ofSettings settings)

/-- The machine with its tape zeroed and its pointer and counter at zero. -/
def reset (m : Machine) : Machine :=
  { m with tape := m.tape.map fun _ => 0, ptr := 0, steps := 0 }

/-- A point of a run: the operation to execute next, the machine and what has
happened at the console. -/
structure Snapshot where
  ip : Nat
  machine : Machine
  console : Console

/-- What a step leads to. -/
inductive Outcome where
  /-- The run goes on. -/
  | next (s : Snapshot)
  /-- The run is over; without a fault it has come to the end of the program. -/
  | stop (fault? : Option Fault) (s : Snapshot)

/-- The cell the pointer is at; `none` when it is at none. -/
def cell? (m : Machine) : Option UInt8 := m.tape[m.ptr]?

/-- The machine with another value in the cell the pointer is at. -/
def setCell (m : Machine) (value : UInt8) : Machine :=
  { m with tape := m.tape.setIfInBounds m.ptr value }

/-- The step limit, when the machine has executed as many operations as it may. -/
def limitReached? (m : Machine) : Option Nat :=
  m.settings.maxSteps.filter fun limit => limit ≤ m.steps

/-- A run that stops at `ip` because of `fault`. -/
def fail (fault : Fault) (ip : Nat) (m : Machine) (c : Console) : Outcome :=
  .stop (some fault) ⟨ip, m, c⟩

/-- A run that stops at `ip` for want of a cell. -/
def offTape (ip : Nat) (m : Machine) (c : Console) : Outcome :=
  fail (.outOfTape ip m.tape.size) ip m c

/-- Executes the operation at `ip`.  Cells count modulo 256.  A read first flushes
the output, and at the end of the input it leaves the cell as it is. -/
def execute (jumps : Jumps) (around : Surroundings) (ip : Nat) (m : Machine) (c : Console) :
    Op → Outcome
  | .run .right n =>
      let target := m.ptr + n.toNat
      if target < m.tape.size then .next ⟨ip + 1, { m with ptr := target }, c⟩
      else offTape ip m c
  | .run .left n =>
      if n.toNat ≤ m.ptr then .next ⟨ip + 1, { m with ptr := m.ptr - n.toNat }, c⟩
      else offTape ip m c
  | .run .inc n =>
      match m.cell? with
      | some v => .next ⟨ip + 1, m.setCell (v + n.toUInt8), c⟩
      | none => offTape ip m c
  | .run .dec n =>
      match m.cell? with
      | some v => .next ⟨ip + 1, m.setCell (v - n.toUInt8), c⟩
      | none => offTape ip m c
  | .clear =>
      match m.cell? with
      | some _ => .next ⟨ip + 1, m.setCell 0, c⟩
      | none => offTape ip m c
  | .output =>
      match m.cell? with
      | some v =>
          match c.write around v with
          | (true, c) => .next ⟨ip + 1, m, c⟩
          | (false, c) => fail (.refused (around.refusal .write)) ip m c
      | none => offTape ip m c
  | .input =>
      match c.flush around with
      | (false, c) => fail (.refused (around.refusal .flush)) ip m c
      | (true, c) =>
          match c.read around with
          | (.refused, c) => fail (.refused (around.refusal .read)) ip m c
          | (.atEnd, c) => .next ⟨ip + 1, m, c⟩
          | (.byte b, c) =>
              match m.cell? with
              | some _ => .next ⟨ip + 1, m.setCell b, c⟩
              | none => offTape ip m c
  | .openLoop =>
      match m.cell? with
      | some v => .next ⟨(if v = 0 then jumps.getD ip 0 else ip) + 1, m, c⟩
      | none => offTape ip m c
  | .closeLoop =>
      match m.cell? with
      | some v => .next ⟨(if v = 0 then ip else jumps.getD ip 0) + 1, m, c⟩
      | none => offTape ip m c

/-- One step of a run of `code`, whose brackets `jumps` matches.  Behind the last
operation the output is flushed and the run is over. -/
def step (code : Array Op) (jumps : Jumps) (around : Surroundings) : Snapshot → Outcome
  | ⟨ip, m, c⟩ =>
      match code[ip]? with
      | none =>
          match c.flush around with
          | (true, c) => .stop none ⟨ip, m, c⟩
          | (false, c) => fail (.refused (around.refusal .flush)) ip m c
      | some op =>
          match m.limitReached? with
          | some limit => fail (.stepLimit limit) ip m c
          | none => execute jumps around ip { m with steps := m.steps + 1 } c op

/-- Follows the steps of a run, at most `fuel` of them; `none` when it is not over
by then. -/
def runFor (code : Array Op) (jumps : Jumps) (around : Surroundings) :
    Nat → Snapshot → Option (Option Fault × Snapshot)
  | 0, _ => none
  | fuel + 1, s =>
      match step code jumps around s with
      | .next s' => runFor code jumps around fuel s'
      | .stop fault? s' => some (fault?, s')

/-- What a run leaves behind. -/
structure Report where
  /-- What stopped the run; `none` when the program came to its end. -/
  fault? : Option Fault
  machine : Machine
  console : Console

/-- Runs a program from a zeroed tape, for at most `fuel` steps.  A program whose
brackets do not match is not started. -/
def run (fuel : Nat) (m : Machine) (ops : List Op) (around : Surroundings) : Option Report :=
  match Jumps.ofProgram ops with
  | .error index => some ⟨some (.unmatchedLoop index), m.reset, {}⟩
  | .ok jumps =>
      (runFor ops.toArray jumps around fuel ⟨0, m.reset, {}⟩).map fun (fault?, s) =>
        ⟨fault?, s.machine, s.console⟩

end Machine

end Brainfuck
