import Brainfuck.Op
import Brainfuck.Wire.Varint

/-!
# Operations as bytes

An operation is its number, followed by the count of a run.  Numbers and counts
are written at a width of 32 bits.
-/

namespace Brainfuck.Wire

/-- The bytes of an operation. -/
def opBytes : Op → List UInt8
  | .run .right n => varint 0 ++ varint n.toNat
  | .run .left n => varint 1 ++ varint n.toNat
  | .run .inc n => varint 2 ++ varint n.toNat
  | .run .dec n => varint 3 ++ varint n.toNat
  | .output => varint 4
  | .input => varint 5
  | .openLoop => varint 6
  | .closeLoop => varint 7
  | .clear => varint 8

/-- Reads the count of a run. -/
def readRun (kind : RunKind) : Reader Op := fun bytes => do
  let (n, rest) ← readVarint .w32 bytes
  return (.run kind n.toUInt32, rest)

/-- Reads an operation. -/
def readOp : Reader Op := fun bytes => do
  let (number, rest) ← readVarint .w32 bytes
  match number with
  | 0 => readRun .right rest
  | 1 => readRun .left rest
  | 2 => readRun .inc rest
  | 3 => readRun .dec rest
  | 4 => return (.output, rest)
  | 5 => return (.input, rest)
  | 6 => return (.openLoop, rest)
  | 7 => return (.closeLoop, rest)
  | 8 => return (.clear, rest)
  | _ => .error .badVariant

/-- Reads `n` operations. -/
def readOps : Nat → Reader (List Op)
  | 0, bytes => .ok ([], bytes)
  | n + 1, bytes => do
      let (op, rest) ← readOp bytes
      let (ops, rest) ← readOps n rest
      return (op :: ops, rest)

end Brainfuck.Wire
