/-!
# Operations of the tape language

A program is a list of operations, which work on a tape of byte cells.  Four of the eight
instructions of the language (`>`, `<`, `+`, `-`) repeat so often that their repetitions are kept as
one operation with a count; the other four stand alone.  A ninth operation sets
a cell to zero and has no character of its own: it comes from shortening the
loop `[-]`.

* `Op.ofChar?` reads one character; every other character is a comment.
* `Op.extend?` makes a run one longer and refuses when its count is full.
* `Op.mnemonic`, `Op.brief` and `Op.verbose` are the three ways to write an
  operation in a listing.
-/

namespace Brainfuck

/-- The number of cells of the tape unless another is asked for. -/
def defaultTapeSize : Nat := 32767

/-- The instructions whose repetitions are merged into one run. -/
inductive RunKind where
  /-- Move the pointer to a higher cell. -/
  | right
  /-- Move the pointer to a lower cell. -/
  | left
  /-- Add to the current cell. -/
  | inc
  /-- Subtract from the current cell. -/
  | dec
  deriving DecidableEq, Repr

/-- An operation of the machine. -/
inductive Op where
  /-- `count` repetitions of one instruction. -/
  | run (kind : RunKind) (count : UInt32)
  /-- Write the current cell. -/
  | output
  /-- Read a byte into the current cell. -/
  | input
  /-- Skip to the end of the loop when the current cell is zero. -/
  | openLoop
  /-- Return to the start of the loop when the current cell is not zero. -/
  | closeLoop
  /-- Set the current cell to zero. -/
  | clear
  deriving DecidableEq, Repr

namespace Op

/-- The operation a character stands for; `none` for a comment. -/
def ofChar? : Char → Option Op
  | '>' => some (.run .right 1)
  | '<' => some (.run .left 1)
  | '+' => some (.run .inc 1)
  | '-' => some (.run .dec 1)
  | '.' => some .output
  | ',' => some .input
  | '[' => some .openLoop
  | ']' => some .closeLoop
  | _ => none

/-- The repetition count of a run. -/
def count? : Op → Option UInt32
  | .run _ n => some n
  | _ => none

/-- Is this a run, so that repetitions of it are merged? -/
def isRun (op : Op) : Bool := op.count?.isSome

/-- Are both operations runs of the same instruction?  Counts are ignored. -/
def sameKind : Op → Op → Bool
  | .run k _, .run l _ => decide (k = l)
  | _, _ => false

/-- The largest count a run can have. -/
def fullCount : UInt32 := 4294967295

/-- A run with one more repetition; `none` when the count is full, and for an
operation that is not a run. -/
def extend? : Op → Option Op
  | .run k n => if n = fullCount then none else some (.run k (n + 1))
  | _ => none

/-! ## Writing an operation -/

/-- Upper-case name of an operation without its count. -/
def mnemonic : Op → String
  | .run .right _ => "FWD"
  | .run .left _ => "BACK"
  | .run .inc _ => "INC"
  | .run .dec _ => "DEC"
  | .output => "OUT"
  | .input => "IN"
  | .openLoop => "LOOP"
  | .closeLoop => "END"
  | .clear => "CLEAR"

/-- Descriptive name of an operation without its count. -/
def title : Op → String
  | .run .right _ => "MovePtrForward"
  | .run .left _ => "MovePtrBackward"
  | .run .inc _ => "IncrementCell"
  | .run .dec _ => "DecrementCell"
  | .output => "OutputCell"
  | .input => "InputCell"
  | .openLoop => "LoopBegin"
  | .closeLoop => "LoopEnd"
  | .clear => "ClearCell"

/-- The mnemonic, followed by the count of a run: `INC 3`, `OUT`. -/
def brief (op : Op) : List Char :=
  match op.count? with
  | some n => op.mnemonic.toList ++ ' ' :: Nat.toDigits 10 n.toNat
  | none => op.mnemonic.toList

/-- The title, with the count of a run in parentheses: `IncrementCell(3)`,
`OutputCell`. -/
def verbose (op : Op) : List Char :=
  match op.count? with
  | some n => op.title.toList ++ '(' :: Nat.toDigits 10 n.toNat ++ [')']
  | none => op.title.toList

end Op

end Brainfuck
