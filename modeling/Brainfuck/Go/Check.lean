import Brainfuck.Op

/-!
# Programs that can be written as Go

A program is refused when a run in it repeats nothing or when its brackets do not
match.  Operations are looked at in order and the first fault is reported; loops
that are never closed are reported last, by the innermost of them.
-/

namespace Brainfuck.Go

/-- Why a program cannot be written as Go.  Operations are named by index. -/
inductive Refusal where
  /-- A close bracket with no loop open. -/
  | unmatchedClose (index : Nat)
  /-- At the end `depth` loops are open, the innermost since `index`. -/
  | unclosedLoop (index depth : Nat)
  /-- A run with a count of zero. -/
  | emptyRun (index : Nat)
  deriving DecidableEq, Repr

namespace Refusal

/-- The message shown to the user. -/
def message : Refusal → String
  | .unmatchedClose i => "mismatched loop close: ']' at op " ++ i.repr ++ " has no matching '['"
  | .unclosedLoop i d =>
      "unclosed loop: '[' at op " ++ i.repr ++ " is never closed (" ++ d.repr ++
        " loop(s) open at end)"
  | .emptyRun i => "op " ++ i.repr ++ " has a repetition count of zero"

/-- The identifier of the kind of fault. -/
def code : Refusal → String
  | .unmatchedClose _ => "bfgo::codegen::unmatched_loop_end"
  | .unclosedLoop _ _ => "bfgo::codegen::unclosed_loop"
  | .emptyRun _ => "bfgo::codegen::empty_run"

/-- The advice shown with the message. -/
def help : Refusal → String
  | .unmatchedClose _ => "remove the extra ']' or add a '[' before it"
  | .unclosedLoop _ _ => "add the missing ']' at the end of the loop body"
  | .emptyRun _ => "opcode streams built by hand must use counts of 1 or more"

/-- The index of the operation at fault. -/
def index : Refusal → Nat
  | .unmatchedClose i | .unclosedLoop i _ | .emptyRun i => i

end Refusal

/-- Looks for a fault in a program whose first operation has the index `ip`.
`stack` holds the brackets that are open, the innermost first. -/
def checkFrom (ip : Nat) (stack : List Nat) : List Op → Except Refusal Unit
  | [] =>
      match stack with
      | [] => .ok ()
      | start :: _ => .error (.unclosedLoop start stack.length)
  | .run _ n :: rest =>
      if n = 0 then .error (.emptyRun ip) else checkFrom (ip + 1) stack rest
  | .openLoop :: rest => checkFrom (ip + 1) (ip :: stack) rest
  | .closeLoop :: rest =>
      match stack with
      | [] => .error (.unmatchedClose ip)
      | _ :: outer => checkFrom (ip + 1) outer rest
  | _ :: rest => checkFrom (ip + 1) stack rest

/-- Accepts the programs that can be written as Go. -/
def check (ops : List Op) : Except Refusal Unit := checkFrom 0 [] ops

end Brainfuck.Go
