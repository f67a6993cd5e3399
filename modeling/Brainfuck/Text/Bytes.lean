/-!
# Parts of a text by byte

The characters of a text take one to four bytes each.  A part of the text can be
cut out by the number of bytes in front of it, as long as no cut falls inside a
character.
-/

namespace Brainfuck.Text

/-- The number of bytes of a text. -/
def byteLength : List Char → Nat
  | [] => 0
  | c :: cs => c.utf8Size + byteLength cs

/-- A text cut behind its first `n` bytes; `none` when the text is shorter or the
cut falls inside a character. -/
def splitAtByte? : Nat → List Char → Option (List Char × List Char)
  | 0, cs => some ([], cs)
  | _ + 1, [] => none
  | n + 1, c :: cs =>
      if c.utf8Size ≤ n + 1 then
        (splitAtByte? (n + 1 - c.utf8Size) cs).map fun (front, rest) => (c :: front, rest)
      else none

/-- The part of a text from byte `start` on. -/
def fromByte? (start : Nat) (text : List Char) : Option (List Char) :=
  (splitAtByte? start text).map Prod.snd

/-- The part of a text from byte `start` up to, but without, byte `stop`. -/
def betweenBytes? (start stop : Nat) (text : List Char) : Option (List Char) := do
  let rest ← fromByte? start text
  let (part, _) ← splitAtByte? (stop - start) rest
  return part

end Brainfuck.Text
