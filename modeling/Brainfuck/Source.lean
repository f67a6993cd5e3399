import Brainfuck.Op

/-!
# Reading a source text

A text is read from left to right into operations.  Repetitions of `>`, `<`, `+`
or `-` become one run, also when comments stand between them; a run whose count
is full ends there and the next repetition starts another one.  Each operation
keeps the position of its first character.

* `Source.readLocated` gives the operations of a text with their positions.
* `Source.read` gives the operations alone.
* `Cursor.read` reads what is left behind a cursor and moves the cursor to the
  end, so that reading twice finds nothing the second time.
-/

namespace Brainfuck

/-- A place in a text.  Lines and columns are counted from 1, columns in
characters, and only a line feed starts a new line. -/
structure Position where
  line : Nat
  column : Nat
  deriving DecidableEq, Repr

namespace Position

/-- The place of the first character of a text. -/
def start : Position := ⟨1, 1⟩

/-- The place behind the character `c` that stands at `p`. -/
def after (p : Position) (c : Char) : Position :=
  if c = '\n' then ⟨p.line + 1, 1⟩ else ⟨p.line, p.column + 1⟩

end Position

/-- An operation with the position of its first character. -/
structure Located where
  op : Op
  position : Position
  deriving DecidableEq, Repr

/-- The run with one more repetition, if `op` continues it and its count is not
full. -/
def Located.grow? (run : Located) (op : Op) : Option Located :=
  if run.op.sameKind op then
    run.op.extend?.map fun longer => { run with op := longer }
  else none

namespace Source

/-- Reads the characters that start at `pos`.  `run` is the run that is still
growing; it is handed out when something ends it. -/
def readFrom (run : Option Located) (pos : Position) : List Char → List Located
  | [] => run.toList
  | c :: cs =>
      match Op.ofChar? c with
      | none => readFrom run (pos.after c) cs
      | some op =>
          if op.isRun then
            match run.bind (·.grow? op) with
            | some longer => readFrom (some longer) (pos.after c) cs
            | none => run.toList ++ readFrom (some ⟨op, pos⟩) (pos.after c) cs
          else
            run.toList ++ ⟨op, pos⟩ :: readFrom none (pos.after c) cs

/-- The operations of a text with their positions. -/
def readLocated (text : String) : List Located :=
  readFrom none .start text.toList

/-- The operations of a text. -/
def read (text : String) : List Op :=
  (readLocated text).map (·.op)

end Source

/-- A text that is being read: what is left of it, and where that starts. -/
structure Cursor where
  rest : List Char
  position : Position

namespace Cursor

/-- A cursor in front of the whole text. -/
def ofText (text : String) : Cursor := ⟨text.toList, .start⟩

/-- Reads everything behind the cursor and leaves the cursor at the end. -/
def read (c : Cursor) : List Located × Cursor :=
  (Source.readFrom none c.position c.rest, ⟨[], c.rest.foldl Position.after c.position⟩)

end Cursor

end Brainfuck
