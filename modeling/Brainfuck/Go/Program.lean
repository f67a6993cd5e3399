import Brainfuck.Go.Check

/-!
# Writing a program as Go

The text is a list of lines, each with a level of indentation: a fixed frame
around one line per operation, four for a read.  Go refuses unused imports and
variables, so the frame declares only what the operations use.

* `Go.lines` are the lines of a program.
* `Go.write` writes them, after the check of `Go.check`.
-/

namespace Brainfuck.Go

/-- What a Go program is written with. -/
structure Settings where
  /-- Number of cells of the tape. -/
  tapeSize : Nat := defaultTapeSize
  /-- One level of indentation. -/
  indent : String := "\t"
  /-- Name in the package clause. -/
  packageName : String := "main"
  deriving DecidableEq, Repr

/-- A line of Go: how deep it is indented, and what stands on it. -/
structure Line where
  level : Nat
  content : List Char
  deriving DecidableEq, Repr

/-- The text of a line, with its line end. -/
def Line.render (indent : List Char) (l : Line) : List Char :=
  (List.replicate l.level indent).flatten ++ l.content ++ ['\n']

/-- Which ends of the console a program uses. -/
structure Channels where
  writes : Bool
  reads : Bool
  deriving DecidableEq, Repr

/-- The ends of the console that occur in a program. -/
def Channels.of (ops : List Op) : Channels where
  writes := ops.contains .output
  reads := ops.contains .input

/-- The lines in front of the operations. -/
def preamble (settings : Settings) (use : Channels) : List Line :=
  [⟨0, "package ".toList ++ settings.packageName.toList⟩, ⟨0, []⟩] ++
  (if use.writes || use.reads then
    [⟨0, "import (".toList⟩] ++
    (if use.writes then [⟨1, "\"bufio\"".toList⟩] else []) ++
    [⟨1, "\"os\"".toList⟩, ⟨0, ")".toList⟩, ⟨0, []⟩]
  else []) ++
  [⟨0, "func main() \x7b".toList⟩,
   ⟨1, "buffer := make([]byte, ".toList ++ Nat.toDigits 10 settings.tapeSize ++ ")".toList⟩,
   ⟨1, "ptr := 0".toList⟩] ++
  (if use.writes then
    [⟨1, "out := bufio.NewWriter(os.Stdout)".toList⟩, ⟨1, "defer out.Flush()".toList⟩]
  else []) ++
  (if use.reads then [⟨1, "b := make([]byte, 1)".toList⟩] else [])

/-- The lines behind the operations. -/
def epilogue : List Line :=
  [⟨1, "_ = buffer".toList⟩, ⟨1, "_ = ptr".toList⟩, ⟨0, "\x7d".toList⟩]

/-- The lines of one operation.  `level` is the level behind which it stands, so
the end of a loop is one level further out. -/
def opLines (use : Channels) (level : Nat) : Op → List Line
  | .run .right n => [⟨level, "ptr += ".toList ++ Nat.toDigits 10 n.toNat⟩]
  | .run .left n => [⟨level, "ptr -= ".toList ++ Nat.toDigits 10 n.toNat⟩]
  | .run .inc n =>
      [⟨level, "buffer[ptr] += byte(".toList ++ Nat.toDigits 10 (n.toNat % 256) ++ ")".toList⟩]
  | .run .dec n =>
      [⟨level, "buffer[ptr] -= byte(".toList ++ Nat.toDigits 10 (n.toNat % 256) ++ ")".toList⟩]
  | .output => [⟨level, "out.WriteByte(buffer[ptr])".toList⟩]
  | .input =>
      -- pending output appears before the program waits for input
      (if use.writes then [⟨level, "out.Flush()".toList⟩] else []) ++
      [⟨level, "if n, _ := os.Stdin.Read(b); n == 1 \x7b".toList⟩,
       ⟨level + 1, "buffer[ptr] = b[0]".toList⟩,
       ⟨level, "\x7d".toList⟩]
  | .clear => [⟨level, "buffer[ptr] = 0".toList⟩]
  | .openLoop => [⟨level, "for buffer[ptr] != 0 \x7b".toList⟩]
  | .closeLoop => [⟨level - 1, "\x7d".toList⟩]

/-- The level behind an operation. -/
def levelAfter (level : Nat) : Op → Nat
  | .openLoop => level + 1
  | .closeLoop => level - 1
  | _ => level

/-- The lines of the operations, the first of which stands at `level`. -/
def body (use : Channels) (level : Nat) : List Op → List Line
  | [] => []
  | op :: rest => opLines use level op ++ body use (levelAfter level op) rest

/-- The lines of a whole program. -/
def lines (settings : Settings) (ops : List Op) : List Line :=
  let use := Channels.of ops
  preamble settings use ++ body use 1 ops ++ epilogue

/-- The text of lines that are indented with `indent`. -/
def renderLines (indent : String) (ls : List Line) : String :=
  String.ofList (ls.flatMap (Line.render indent.toList))

/-- The Go program for `ops`.  Nothing is written for a program that is
refused. -/
def write (settings : Settings) (ops : List Op) : Except Refusal String := do
  check ops
  return renderLines settings.indent (lines settings ops)

end Brainfuck.Go
