import Brainfuck.Wire.Varint

/-!
# Truth values, text and optional numbers as bytes

A truth value is the byte 0 or 1.  Text is its length in bytes and its UTF-8
bytes.  An optional number is the byte 0, or the byte 1 and the number.  Numbers
and lengths are written at a width of 64 bits.
-/

namespace Brainfuck.Wire

/-- Reads one byte. -/
def readByte : Reader UInt8
  | [] => .error .endOfBuffer
  | b :: rest => .ok (b, rest)

/-! ## Truth values -/

/-- A truth value as a byte. -/
def boolByte (b : Bool) : List UInt8 := [if b then 1 else 0]

/-- Reads a truth value. -/
def readBool : Reader Bool
  | [] => .error .endOfBuffer
  | b :: rest =>
      if b = 0 then .ok (false, rest)
      else if b = 1 then .ok (true, rest)
      else .error .badBool

/-! ## Text -/

/-- The UTF-8 bytes of a text. -/
def utf8 (s : String) : List UInt8 := s.toUTF8.data.toList

/-- The text with the given UTF-8 bytes. -/
def ofUtf8? (bytes : List UInt8) : Option String :=
  String.fromUTF8? ⟨bytes.toArray⟩

/-- The bytes of a text. -/
def textBytes (s : String) : List UInt8 :=
  varint (utf8 s).length ++ utf8 s

/-- Reads a text. -/
def readText : Reader String := fun bytes => do
  let (length, rest) ← readVarint .w64 bytes
  if length ≤ rest.length then
    match ofUtf8? (rest.take length) with
    | some s => return (s, rest.drop length)
    | none => .error .badUtf8
  else .error .endOfBuffer

/-! ## Optional numbers -/

/-- The bytes of an optional number. -/
def optionBytes : Option Nat → List UInt8
  | none => [0]
  | some n => 1 :: varint n

/-- Reads an optional number. -/
def readOption : Reader (Option Nat)
  | [] => .error .endOfBuffer
  | b :: rest =>
      if b = 0 then .ok (none, rest)
      else if b = 1 then
        match readVarint .w64 rest with
        | .ok (n, rest) => .ok (some n, rest)
        | .error e => .error e
      else .error .badOption

end Brainfuck.Wire
