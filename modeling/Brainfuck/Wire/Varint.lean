/-!
# Numbers of variable length

A number is written in groups of seven bits, the lowest first, one group a byte;
every byte but the last has its high bit set.  A number is read at a width of 16,
32 or 64 bits.  The width bounds how many bytes may be used and how large the
last byte that may be used can be.  A number may be written longer than it needs
to be within that bound.
-/

namespace Brainfuck.Wire

/-- Why bytes cannot be read. -/
inductive Malformed where
  /-- The bytes end too early. -/
  | endOfBuffer
  /-- A number does not end in time or does not fit. -/
  | badVarint
  /-- A truth value is neither 0 nor 1. -/
  | badBool
  /-- The mark of an optional value is neither 0 nor 1. -/
  | badOption
  /-- Text is not in UTF-8. -/
  | badUtf8
  /-- No operation has this number. -/
  | badVariant
  deriving DecidableEq, Repr

/-- The message shown to the user. -/
def Malformed.message : Malformed → String
  | .endOfBuffer => "Hit the end of buffer, expected more data"
  | .badVarint => "Found a varint that didn't terminate. Is the usize too big for this platform?"
  | .badBool => "Found a bool that wasn't 0 or 1"
  | .badOption => "Found an Option discriminant that wasn't 0 or 1"
  | .badUtf8 => "Tried to parse invalid utf-8"
  | .badVariant => "Serde Deserialization Error"

/-- Reads a value from the front of some bytes; the answer holds the bytes behind
it. -/
abbrev Reader (α : Type) := List UInt8 → Except Malformed (α × List UInt8)

/-- The width of a number. -/
inductive Width where
  | w16
  | w32
  | w64
  deriving DecidableEq, Repr

namespace Width

/-- How many bits a number of this width has. -/
def bits : Width → Nat
  | .w16 => 16
  | .w32 => 32
  | .w64 => 64

/-- How many bytes a number of this width may use. -/
def maxBytes : Width → Nat
  | .w16 => 3
  | .w32 => 5
  | .w64 => 10

/-- The largest value of the last byte that may be used. -/
def lastMax : Width → Nat
  | .w16 => 3
  | .w32 => 15
  | .w64 => 1

end Width

/-- The shortest bytes for a number. -/
def varint (n : Nat) : List UInt8 :=
  if n < 128 then [n.toUInt8] else (n % 128 + 128).toUInt8 :: varint (n / 128)
termination_by n

/-- Reads the groups of a number from at most `left` bytes. -/
def readGroups (lastMax : Nat) : Nat → Reader Nat
  | 0, _ => .error .badVarint
  | _ + 1, [] => .error .endOfBuffer
  | left + 1, b :: rest =>
      if b.toNat < 128 then
        if left = 0 ∧ lastMax < b.toNat then .error .badVarint else .ok (b.toNat, rest)
      else
        match readGroups lastMax left rest with
        | .ok (high, rest) => .ok (b.toNat - 128 + 128 * high, rest)
        | .error e => .error e

/-- Reads a number of the given width. -/
def readVarint (w : Width) : Reader Nat := readGroups w.lastMax w.maxBytes

end Brainfuck.Wire
