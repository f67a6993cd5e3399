import Brainfuck.Listing
import Brainfuck.Source

/-!
# The listing of located operations

One line for each operation as it was read: its position, the group it belongs
to, and the operation in brief or verbose form.  The group and the operation may
be coloured with terminal escape sequences.
-/

namespace Brainfuck.Listing

/-- What an operation works on. -/
inductive Group where
  | move
  | arith
  | io
  | loop
  deriving DecidableEq, Repr

/-- The group of an operation. -/
def Group.of : Op → Group
  | .run .right _ | .run .left _ => .move
  | .run .inc _ | .run .dec _ | .clear => .arith
  | .output | .input => .io
  | .openLoop | .closeLoop => .loop

/-- The name of a group. -/
def Group.name : Group → String
  | .move => "MOVE"
  | .arith => "ARITH"
  | .io => "IO"
  | .loop => "LOOP"

/-- The escape sequence that starts the colour of a group. -/
def Group.color : Group → String
  | .move => "\x1b[33m"
  | .arith => "\x1b[36m"
  | .io => "\x1b[32m"
  | .loop => "\x1b[35m"

/-- The escape sequence that ends a colour. -/
def colorEnd : String := "\x1b[0m"

/-- How located operations are listed. -/
structure Style where
  /-- Colour the group and the operation. -/
  color : Bool := true
  /-- Write operations in brief form instead of the verbose one. -/
  pretty : Bool := false
  deriving DecidableEq, Repr

/-- The group, filled up with blanks to six characters, and the operation. -/
def Style.body (style : Style) (op : Op) : List Char :=
  (Group.of op).name.toList.rightpad 6 ' ' ++ ' ' ::
    (if style.pretty then op.brief else op.verbose)

/-- The line of one located operation, with its line end. -/
def Style.line (style : Style) (l : Located) : List Char :=
  '[' :: zeroPadded 2 l.position.line ++ ':' :: zeroPadded 2 l.position.column ++ "] ".toList ++
    (if style.color then
      (Group.of l.op).color.toList ++ style.body l.op ++ colorEnd.toList
    else style.body l.op) ++ ['\n']

/-- The listing of located operations. -/
def Style.render (style : Style) (ops : List Located) : String :=
  String.ofList (ops.flatMap style.line)

end Brainfuck.Listing
