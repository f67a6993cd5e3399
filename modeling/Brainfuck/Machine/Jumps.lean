import Brainfuck.Op

/-!
# Jump tables

A table gives for the index of each bracket the index of its partner; its other
entries are zero and have no meaning.  Only a balanced program has a table.
-/

namespace Brainfuck

/-- For the index of each bracket the index of its partner. -/
abbrev Jumps := Array Nat

namespace Jumps

/-- Fills `table` for a program whose first operation has the index `ip`.  `stack`
holds the brackets that are open, the innermost first.  The error is the index of
a bracket without a partner. -/
def fill (ip : Nat) (stack : List Nat) (table : Jumps) :
    List Op → Except Nat Jumps
  | [] =>
      match stack with
      | [] => .ok table
      | start :: _ => .error start
  | .openLoop :: rest => fill (ip + 1) (ip :: stack) table rest
  | .closeLoop :: rest =>
      match stack with
      | [] => .error ip
      | start :: outer =>
          fill (ip + 1) outer ((table.setIfInBounds start ip).setIfInBounds ip start) rest
  | _ :: rest => fill (ip + 1) stack table rest

/-- The jump table of a program, or the index of a bracket without a partner: the
first close bracket with nothing open, else the innermost bracket left open. -/
def ofProgram (ops : List Op) : Except Nat Jumps :=
  fill 0 [] (Array.replicate ops.length 0) ops

end Jumps

end Brainfuck
