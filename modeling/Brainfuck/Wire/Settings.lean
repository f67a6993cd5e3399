import Brainfuck.Go.Program
import Brainfuck.Machine.Basic
import Brainfuck.Wire.Scalar

/-!
# Settings as bytes

The fields of the settings one behind the other.
-/

namespace Brainfuck

open Wire

/-- The bytes of the settings of the Go writer. -/
def Go.Settings.encode (s : Go.Settings) : List UInt8 :=
  varint s.tapeSize ++ textBytes s.indent ++ textBytes s.packageName

/-- Reads the settings of the Go writer. -/
def Go.Settings.read : Reader Go.Settings := fun bytes => do
  let (tapeSize, rest) ← readVarint .w64 bytes
  let (indent, rest) ← readText rest
  let (packageName, rest) ← readText rest
  return (⟨tapeSize, indent, packageName⟩, rest)

/-- The bytes of the settings of a machine. -/
def Machine.Settings.encode (s : Machine.Settings) : List UInt8 :=
  varint s.tapeSize ++ optionBytes s.maxSteps

/-- Reads the settings of a machine. -/
def Machine.Settings.read : Reader Machine.Settings := fun bytes => do
  let (tapeSize, rest) ← readVarint .w64 bytes
  let (maxSteps, rest) ← readOption rest
  return (⟨tapeSize, maxSteps⟩, rest)

end Brainfuck
