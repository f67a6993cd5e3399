import Brainfuck.Wire.Op
import Brainfuck.Wire.Scalar

/-!
# Saved programs

A saved program is four bytes that mark the format, the version of the format,
whether the program has been shortened, the number of operations and the
operations.

`SavedProgram.decode` reads a whole value before it looks at the mark and then at
the version, and ignores what stands behind the value.
-/

namespace Brainfuck

open Wire

/-- A program in a form that can be saved. -/
structure SavedProgram where
  /-- Has the program been shortened? -/
  shortened : Bool
  ops : List Op
  deriving DecidableEq, Repr

namespace SavedProgram

/-- The bytes that mark the format: `BFGO`. -/
def magic : List UInt8 := [66, 70, 71, 79]

/-- The version of the format. -/
def version : Nat := 1

/-- Why bytes are not a saved program. -/
inductive LoadError where
  /-- The bytes are no value of the format. -/
  | malformed (cause : Malformed)
  /-- The mark of the format is missing. -/
  | badMagic
  /-- The format has another version. -/
  | unsupportedVersion (found : Nat)
  deriving DecidableEq, Repr

/-- The message shown to the user. -/
def LoadError.message : LoadError → String
  | .malformed cause => "failed to decode opcode stream: " ++ cause.message
  | .badMagic => "not an opcode stream file (bad magic)"
  | .unsupportedVersion v =>
      "unsupported opcode stream version " ++ v.repr ++ " (expected " ++ version.repr ++ ")"

/-- The bytes of a saved program. -/
def encode (s : SavedProgram) : List UInt8 :=
  magic ++ varint version ++ boolByte s.shortened ++ varint s.ops.length ++ s.ops.flatMap opBytes

/-- A value of the format, whatever its mark and version. -/
structure Envelope where
  magic : List UInt8
  version : Nat
  program : SavedProgram
  deriving DecidableEq, Repr

/-- Reads a value of the format. -/
def readEnvelope : Reader Envelope := fun bytes => do
  let (m₀, rest) ← readByte bytes
  let (m₁, rest) ← readByte rest
  let (m₂, rest) ← readByte rest
  let (m₃, rest) ← readByte rest
  let (version, rest) ← readVarint .w16 rest
  let (shortened, rest) ← readBool rest
  let (length, rest) ← readVarint .w64 rest
  let (ops, rest) ← readOps length rest
  return (⟨[m₀, m₁, m₂, m₃], version, ⟨shortened, ops⟩⟩, rest)

/-- The program of an envelope with the right mark and version. -/
def Envelope.unwrap (e : Envelope) : Except LoadError SavedProgram :=
  if e.magic ≠ SavedProgram.magic then .error .badMagic
  else if e.version ≠ SavedProgram.version then .error (.unsupportedVersion e.version)
  else .ok e.program

/-- Loads a saved program from the front of some bytes. -/
def decode (bytes : List UInt8) : Except LoadError SavedProgram :=
  match readEnvelope bytes with
  | .error cause => .error (.malformed cause)
  | .ok (e, _) => e.unwrap

end SavedProgram

end Brainfuck
