import Std.Data.HashMap
import Brainfuck.Op

/-!
# Which loop brackets belong together

Brackets are matched with a stack.  A close bracket with nothing open is passed
over, and a bracket without a partner is left out, so that every program has a
matching, balanced or not.
-/

namespace Brainfuck.Loops

/-- Pairs of matched brackets of a program whose first operation has the index
`ip`.  `stack` holds the brackets that are open, the innermost first. -/
def pairsFrom (ip : Nat) (stack : List Nat) : List Op → List (Nat × Nat)
  | [] => []
  | .openLoop :: rest => pairsFrom (ip + 1) (ip :: stack) rest
  | .closeLoop :: rest =>
      match stack with
      | [] => pairsFrom (ip + 1) [] rest
      | start :: outer => (start, ip) :: pairsFrom (ip + 1) outer rest
  | _ :: rest => pairsFrom (ip + 1) stack rest

/-- The matched brackets of a program, open bracket first, in the order of the
close brackets. -/
def pairs (ops : List Op) : List (Nat × Nat) := pairsFrom 0 [] ops

/-- For each matched bracket the index of its partner. -/
def matching (ops : List Op) : Std.HashMap Nat Nat :=
  (pairs ops).foldl (fun table p => (table.insert p.1 p.2).insert p.2 p.1) ∅

/-- The partner table as pairs, in the order of the first index. -/
def matchingList (ops : List Op) : List (Nat × Nat) :=
  let table := matching ops
  (List.range ops.length).filterMap fun i => table[i]?.map fun j => (i, j)

end Brainfuck.Loops
