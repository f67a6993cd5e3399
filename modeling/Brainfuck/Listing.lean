import Brainfuck.Loops

/-!
# The listing of a program

One line for each operation: its index, blanks for the loops it stands in, and
the operation.  A bracket names its partner.  The depth never goes below zero, so
a stray close bracket is listed at the outermost level.
-/

namespace Brainfuck.Listing

/-- A number with zeros in front, at least `width` digits long. -/
def zeroPadded (width n : Nat) : List Char :=
  (Nat.toDigits 10 n).leftpad width '0'

/-- A mnemonic filled up with blanks to six characters. -/
def nameColumn (op : Op) : List Char :=
  op.mnemonic.toList.rightpad 6 ' '

/-- What the listing says of an operation whose partner is `partner`. -/
def describe (op : Op) (partner : Option Nat) : List Char :=
  match op with
  | .run _ n => nameColumn op ++ ' ' :: Nat.toDigits 10 n.toNat
  | .openLoop | .closeLoop =>
      match partner with
      | some j => nameColumn op ++ " (↔ ".toList ++ zeroPadded 4 j ++ [')']
      | none => nameColumn op ++ " (unmatched)".toList
  | .clear => nameColumn op ++ " ; [-]".toList
  | .output | .input => op.mnemonic.toList

/-- The depth at which an operation is listed when `depth` loops are open
before it. -/
def depthAt (depth : Nat) : Op → Nat
  | .closeLoop => depth - 1
  | _ => depth

/-- How many loops are open behind an operation. -/
def depthAfter (depth : Nat) : Op → Nat
  | .openLoop => depth + 1
  | .closeLoop => depth - 1
  | _ => depth

/-- The line of one operation. -/
def line (ip depth : Nat) (op : Op) (partner : Option Nat) : List Char :=
  zeroPadded 4 ip ++ ' ' :: (List.replicate (2 * depth) ' ' ++ describe op partner)

/-- The lines of a program whose first operation has the index `ip` and stands in
`depth` loops. -/
def linesFrom (partner : Nat → Option Nat) (ip depth : Nat) : List Op → List (List Char)
  | [] => []
  | op :: rest =>
      line ip (depthAt depth op) op (partner ip) ::
        linesFrom partner (ip + 1) (depthAfter depth op) rest

/-- The lines of the listing, without line ends. -/
def lines (ops : List Op) : List (List Char) :=
  let table := Loops.matching ops
  linesFrom (fun i => table[i]?) 0 0 ops

/-- The listing of a program. -/
def listing (ops : List Op) : String :=
  String.ofList ((lines ops).flatMap (· ++ ['\n']))

/-- The rule above and below the title of a listing. -/
def titleRule : String := "════════════════════════════════════════"

/-- The listing under a title that gives the number of operations. -/
def titled (ops : List Op) : String :=
  titleRule ++ "\n main\n " ++ String.ofList (Nat.toDigits 10 ops.length) ++
    " instructions\n" ++ titleRule ++ "\n" ++ listing ops

end Brainfuck.Listing
