import Brainfuck.Op
import Brainfuck.Text.Percent

/-!
# How often each operation occurs

Operations are counted by mnemonic, whatever the counts of runs.  The rows of the
table are ordered by falling count, rows of equal count by mnemonic, so that the
table does not depend on the order in which the rows were gathered.
-/

namespace Brainfuck.Statistics

/-- A row of the table. -/
structure Row where
  mnemonic : String
  count : Nat
  deriving DecidableEq, Repr

/-- The rows with `name` counted once more. -/
def bump (name : String) : List Row → List Row
  | [] => [⟨name, 1⟩]
  | row :: rows =>
      if row.mnemonic = name then { row with count := row.count + 1 } :: rows
      else row :: bump name rows

/-- One row for each mnemonic of a program, in the order of first occurrence. -/
def tally (ops : List Op) : List Row :=
  ops.foldl (fun rows op => bump op.mnemonic rows) []

/-- Does `a` stand before `b`?  The larger count comes first, then the smaller
mnemonic. -/
def Row.precedes (a b : Row) : Bool :=
  decide (b.count < a.count) || (a.count == b.count && decide (a.mnemonic ≤ b.mnemonic))

/-- The rows of the table in their order. -/
def rows (ops : List Op) : List Row :=
  (tally ops).mergeSort Row.precedes

/-- The line of a row; `total` is the number of operations of the program. -/
def Row.line (total : Nat) (row : Row) : List Char :=
  "  ".toList ++ row.mnemonic.toList.rightpad 8 ' ' ++ ' ' ::
    (Nat.toDigits 10 row.count).leftpad 6 ' ' ++ " (".toList ++
    (Text.percent row.count total).leftpad 5 ' ' ++ "%)".toList

/-- The lines above the rows. -/
def headings (total : Nat) : List (List Char) :=
  ["=== OPCODE STATISTICS ===".toList, [], "Instructions: ".toList ++ Nat.toDigits 10 total, [],
   "Op frequency:".toList]

/-- The text of the table that has the given rows. -/
def table (total : Nat) (rows : List Row) : String :=
  String.ofList ((headings total ++ rows.map (Row.line total)).flatMap (· ++ ['\n']))

/-- The table of a program. -/
def render (ops : List Op) : String := table ops.length (rows ops)

end Brainfuck.Statistics
