import Brainfuck.Proofs.Go.Check
import Brainfuck.Proofs.Text.Lines

/-!
# Reading Go back

A reader of the Go that is written here, which knows nothing of the operations it was
written from.  It strips each line of its indentation, takes it for one of the phrases
the writer uses, and matches a `for` with its closing brace by the structure of the
braces alone.

* `Go.phrase` — what a line says.
* `Go.readBody` — the statements of a function body and the pairs of its loop braces.
* `Go.Program.ofLines?`, `Go.Program.ofText?` — the program that lines or a text say.
* `Go.ofLines?_lines` — the lines of a program are read back, one statement for each
  operation, with the loops of the matching.
* `Go.ofText?_of_write` — so is their text, when the indentation is blank and the name
  of the package stays on its line.
-/

namespace Brainfuck.Go

open Loops

/-! ## Phrases -/

/-- The statements that stand for operations. -/
inductive Statement where
  /-- Move the pointer. -/
  | move (distance : Int)
  /-- Add to the current cell. -/
  | add (n : UInt8)
  /-- Subtract from the current cell. -/
  | subtract (n : UInt8)
  /-- Set the current cell to zero. -/
  | zero
  /-- Write the current cell. -/
  | write
  /-- Read a byte into the current cell, if there is one. -/
  | read
  /-- The head of a loop that goes on while the current cell is not zero. -/
  | loop
  /-- The closing brace of a loop. -/
  | close
  deriving DecidableEq, Repr

/-- What a line of a function body says. -/
inductive Phrase where
  /-- The declaration of the tape. -/
  | tape (cells : Nat)
  /-- Another declaration, or a flush: nothing that stands for an operation. -/
  | aside
  /-- A statement on a line of its own. -/
  | statement (s : Statement)
  /-- The head of the block that reads a byte. -/
  | readOpen
  /-- The inside of the block that reads a byte. -/
  | readStore
  /-- The head of a loop. -/
  | loop
  /-- A closing brace. -/
  | close
  /-- Anything else. -/
  | unknown
  deriving DecidableEq, Repr

/-- The lines that never change. -/
def fixedPhrases : List (List Char × Phrase) :=
  [("ptr := 0".toList, .aside),
   ("out := bufio.NewWriter(os.Stdout)".toList, .aside),
   ("defer out.Flush()".toList, .aside),
   ("b := make([]byte, 1)".toList, .aside),
   ("out.Flush()".toList, .aside),
   ("_ = buffer".toList, .aside),
   ("_ = ptr".toList, .aside),
   ("buffer[ptr] = 0".toList, .statement .zero),
   ("out.WriteByte(buffer[ptr])".toList, .statement .write),
   ("if n, _ := os.Stdin.Read(b); n == 1 \x7b".toList, .readOpen),
   ("buffer[ptr] = b[0]".toList, .readStore),
   ("for buffer[ptr] != 0 \x7b".toList, .loop),
   ("\x7d".toList, .close)]

/-- A statement with a byte in it; a larger number is not understood. -/
def bytePhrase (statement : UInt8 → Statement) (n : Nat) : Phrase :=
  if n < 256 then .statement (statement (UInt8.ofNat n)) else .unknown

/-- The lines with a number in them: what stands before it, what stands behind it, and
what the line says. -/
def numberedPhrases : List (List Char × List Char × (Nat → Phrase)) :=
  [("buffer := make([]byte, ".toList, ")".toList, .tape),
   ("ptr += ".toList, [], fun n => .statement (.move n)),
   ("ptr -= ".toList, [], fun n => .statement (.move (-n))),
   ("buffer[ptr] += byte(".toList, ")".toList, bytePhrase .add),
   ("buffer[ptr] -= byte(".toList, ")".toList, bytePhrase .subtract)]

/-- The decimal number on a line, between two texts that have to stand there. -/
def numberBetween? (before behind line : List Char) : Option Nat :=
  (before.isPrefixOf? line).bind fun rest =>
    let digits := rest.takeWhile Char.isDigit
    if digits ≠ [] ∧ rest.dropWhile Char.isDigit = behind then
      some (Nat.ofDigitChars 10 digits 0)
    else none

/-- What a line says. -/
def phrase (line : List Char) : Phrase :=
  match fixedPhrases.lookup line with
  | some p => p
  | none =>
      (numberedPhrases.findSome? fun (before, behind, meaning) =>
        (numberBetween? before behind line).map meaning).getD .unknown

/-! ## Programs -/

/-- The inside of the main function: its statements, and the pairs of braces of its
loops by the indices of the statements. -/
structure Body where
  statements : List Statement
  loops : List (Nat × Nat)
  deriving DecidableEq, Repr

/-- The body with one more statement in front. -/
def Body.push (s : Statement) (b : Body) : Body := { b with statements := s :: b.statements }

/-- Reads a function body whose first statement has the index `pc`, up to the brace
that ends it, behind which nothing may follow.  `opened` holds the loops that are open,
the innermost first. -/
def readBody (pc : Nat) (opened : List Nat) : List Phrase → Option Body
  | .aside :: rest => readBody pc opened rest
  | .statement s :: rest => (readBody (pc + 1) opened rest).map (Body.push s)
  | .readOpen :: .readStore :: .close :: rest =>
      (readBody (pc + 1) opened rest).map (Body.push .read)
  | .loop :: rest => (readBody (pc + 1) (pc :: opened) rest).map (Body.push .loop)
  | .close :: rest =>
      match opened with
      | [] => if rest = [] then some ⟨[], []⟩ else none
      | start :: outer =>
          (readBody (pc + 1) outer rest).map fun b =>
            ⟨.close :: b.statements, (start, pc) :: b.loops⟩
  | _ => none

/-- A program: the number of its cells and the body of its main function. -/
structure Program where
  cells : Nat
  body : Body
  deriving DecidableEq, Repr

/-- Reads the inside of the main function, which declares the tape first. -/
def Program.ofPhrases? : List Phrase → Option Program
  | .tape cells :: rest => (readBody 0 [] rest).map (⟨cells, ·⟩)
  | _ => none

/-- The lines that may stand in front of the main function. -/
def isHeader (line : List Char) : Bool :=
  "package ".toList.isPrefixOf line ||
    ["import (".toList, "\"bufio\"".toList, "\"os\"".toList, ")".toList].contains line

/-- The lines behind the head of the main function. -/
def insideMain? : List (List Char) → Option (List (List Char))
  | [] => none
  | line :: rest =>
      if line = "func main() \x7b".toList then some rest
      else if isHeader line then insideMain? rest
      else none

/-- Reads a program from lines without indentation.  Empty lines are passed over. -/
def Program.ofLines? (lines : List (List Char)) : Option Program :=
  (insideMain? (lines.filter (· ≠ []))).bind fun inside => Program.ofPhrases? (inside.map phrase)

/-- Is this a character to indent with? -/
def isBlank (c : Char) : Bool := c = '\t' || c = ' '

/-- Reads a program from its text, line by line. -/
def Program.ofText? (text : String) : Option Program :=
  Program.ofLines? ((Text.lineFeedPieces text.toList).map (·.dropWhile isBlank))

/-! ## What the writer writes is understood -/

/-- The statement an operation is written as. -/
def statementOf : Op → Statement
  | .run .right n => .move n.toNat
  | .run .left n => .move (-n.toNat)
  | .run .inc n => .add n.toUInt8
  | .run .dec n => .subtract n.toUInt8
  | .output => .write
  | .input => .read
  | .openLoop => .loop
  | .closeLoop => .close
  | .clear => .zero

theorem numberBetween?_append {behind : List Char} (hbehind : behind.takeWhile Char.isDigit = [])
    (before : List Char) (n : Nat) :
    numberBetween? before behind (before ++ (Nat.toDigits 10 n ++ behind)) = some n := by
  have hdigits : ∀ c ∈ Nat.toDigits 10 n, c.isDigit = true :=
    fun c hc => Nat.isDigit_of_mem_toDigits (by decide) (by decide) hc
  have htake : (Nat.toDigits 10 n ++ behind).takeWhile Char.isDigit = Nat.toDigits 10 n := by
    rw [List.takeWhile_append_of_pos hdigits, hbehind, List.append_nil]
  have hdrop : (Nat.toDigits 10 n ++ behind).dropWhile Char.isDigit = behind := by
    rw [List.dropWhile_append_of_pos hdigits]
    have h := @List.takeWhile_append_dropWhile _ Char.isDigit behind
    rwa [hbehind, List.nil_append] at h
  rw [numberBetween?, List.isPrefixOf?_eq_some_iff_append_eq.2 rfl, Option.bind_some]
  simp only [htake, hdrop]
  rw [if_pos ⟨Nat.toDigits_ne_nil, trivial⟩, Nat.ofDigitChars_ten_toDigits]

/-- A line that never changes says what the table says. -/
theorem phrase_fixed (i : Nat) {line : List Char} {p : Phrase}
    (h : fixedPhrases[i]? = some (line, p)) : phrase line = p := by
  have htable : ∀ e ∈ fixedPhrases, phrase e.1 = e.2 := by decide +kernel
  exact htable (line, p) (List.mem_of_getElem? h)

/-- No line that never changes starts as a line with a number does. -/
theorem fixedPhrases_lookup {before behind : List Char} {meaning : Nat → Phrase}
    (hmem : (before, behind, meaning) ∈ numberedPhrases) (rest : List Char) :
    fixedPhrases.lookup (before ++ rest) = none := by
  have htables : (numberedPhrases.all fun e => fixedPhrases.all fun f =>
      !e.1.isPrefixOf f.1) = true := by decide +kernel
  rw [List.lookup_eq_none_iff]
  intro f hf
  have hnot := List.all_eq_true.1 (List.all_eq_true.1 htables _ hmem) f hf
  rw [bne_iff_ne]
  intro heq
  rw [← heq, List.isPrefixOf_iff_prefix.2 (List.prefix_append before rest)] at hnot
  cases hnot

/-- A line with a number in it says what the table says, if no line of the table comes
before. -/
theorem phrase_numbered {before behind : List Char} {meaning : Nat → Phrase} {n : Nat}
    (earlier : List (List Char × List Char × (Nat → Phrase)))
    {later : List (List Char × List Char × (Nat → Phrase))}
    (htable : numberedPhrases = earlier ++ (before, behind, meaning) :: later)
    (hbehind : behind.takeWhile Char.isDigit = [])
    (hearlier : (earlier.all fun e =>
      (numberBetween? e.1 e.2.1 (before ++ (Nat.toDigits 10 n ++ behind))).isNone) = true) :
    phrase (before ++ (Nat.toDigits 10 n ++ behind)) = meaning n := by
  have hmem : (before, behind, meaning) ∈ numberedPhrases := by simp [htable]
  have hnone : (earlier.findSome? fun (before', behind', meaning') =>
      (numberBetween? before' behind' (before ++ (Nat.toDigits 10 n ++ behind))).map meaning') =
        none := by
    rw [List.findSome?_eq_none_iff]
    intro e he
    have hnumber := Option.isNone_iff_eq_none.1 (List.all_eq_true.1 hearlier e he)
    simp [hnumber]
  rw [phrase, fixedPhrases_lookup hmem, htable, List.findSome?_append, hnone]
  simp [numberBetween?_append hbehind]

/-- The line that declares the tape. -/
def tapeLine (cells : Nat) : List Char :=
  "buffer := make([]byte, ".toList ++ Nat.toDigits 10 cells ++ ")".toList

theorem phrase_tapeLine (n : Nat) : phrase (tapeLine n) = .tape n := by
  unfold tapeLine
  rw [List.append_assoc]
  exact phrase_numbered [] rfl rfl rfl

theorem phrase_right (n : Nat) :
    phrase ("ptr += ".toList ++ Nat.toDigits 10 n) = .statement (.move n) := by
  have h := @phrase_numbered "ptr += ".toList [] _ n (numberedPhrases.take 1) _ rfl rfl rfl
  rwa [List.append_nil] at h

theorem phrase_left (n : Nat) :
    phrase ("ptr -= ".toList ++ Nat.toDigits 10 n) = .statement (.move (-n)) := by
  have h := @phrase_numbered "ptr -= ".toList [] _ n (numberedPhrases.take 2) _ rfl rfl rfl
  rwa [List.append_nil] at h

theorem bytePhrase_mod (statement : UInt8 → Statement) (n : UInt32) :
    bytePhrase statement (n.toNat % 256) = .statement (statement n.toUInt8) := by
  have hbyte : UInt8.ofNat (n.toNat % 256) = n.toUInt8 := by
    apply UInt8.toNat_inj.1
    simp
  rw [bytePhrase, if_pos (Nat.mod_lt _ (by decide)), hbyte]

theorem phrase_add (n : UInt32) :
    phrase ("buffer[ptr] += byte(".toList ++ Nat.toDigits 10 (n.toNat % 256) ++ ")".toList) =
      .statement (.add n.toUInt8) := by
  rw [List.append_assoc, ← bytePhrase_mod]
  exact phrase_numbered (numberedPhrases.take 3) rfl rfl rfl

theorem phrase_subtract (n : UInt32) :
    phrase ("buffer[ptr] -= byte(".toList ++ Nat.toDigits 10 (n.toNat % 256) ++ ")".toList) =
      .statement (.subtract n.toUInt8) := by
  rw [List.append_assoc, ← bytePhrase_mod]
  exact phrase_numbered (numberedPhrases.take 4) rfl rfl rfl

/-- What the lines say. -/
def phrases (ls : List Line) : List Phrase := ls.map fun l => phrase l.content

theorem phrases_append (ls ms : List Line) : phrases (ls ++ ms) = phrases ls ++ phrases ms :=
  List.map_append

/-! ## Reading the operations back -/

section Body

variable {use : Channels} {pc level : Nat} {opened : List Nat} {rest : List Phrase}

/-- The lines of an operation that is no bracket are read as its statement. -/
theorem readBody_plain {op : Op} (hop : op.isBracket = false) :
    readBody pc opened (phrases (opLines use level op) ++ rest) =
      (readBody (pc + 1) opened rest).map (Body.push (statementOf op)) := by
  cases op with
  | run kind n =>
      cases kind with
      | right => simp only [phrases, opLines, List.map_cons, List.map_nil, phrase_right]; rfl
      | left => simp only [phrases, opLines, List.map_cons, List.map_nil, phrase_left]; rfl
      | inc => simp only [phrases, opLines, List.map_cons, List.map_nil, phrase_add]; rfl
      | dec => simp only [phrases, opLines, List.map_cons, List.map_nil, phrase_subtract]; rfl
  | input =>
      have hblock (before : List Line) : phrases (before ++
          [⟨level, "if n, _ := os.Stdin.Read(b); n == 1 \x7b".toList⟩,
            ⟨level + 1, "buffer[ptr] = b[0]".toList⟩, ⟨level, "\x7d".toList⟩]) =
          phrases before ++ [.readOpen, .readStore, .close] := by
        simp only [phrases, List.map_append, List.map_cons, List.map_nil, phrase_fixed 9 rfl,
          phrase_fixed 10 rfl, phrase_fixed 12 rfl]
      rw [opLines, hblock]
      cases use.writes with
      | false => rfl
      | true =>
          simp only [if_true, phrases, List.map_cons, List.map_nil, phrase_fixed 4 rfl]
          rfl
  | output => simp only [phrases, opLines, List.map_cons, List.map_nil, phrase_fixed 8 rfl]; rfl
  | clear => simp only [phrases, opLines, List.map_cons, List.map_nil, phrase_fixed 7 rfl]; rfl
  | openLoop => cases hop
  | closeLoop => cases hop

theorem readBody_open :
    readBody pc opened (phrases (opLines use level .openLoop) ++ rest) =
      (readBody (pc + 1) (pc :: opened) rest).map (Body.push .loop) := by
  simp only [phrases, opLines, List.map_cons, List.map_nil, phrase_fixed 11 rfl]
  rfl

theorem readBody_close {start : Nat} :
    readBody pc (start :: opened) (phrases (opLines use level .closeLoop) ++ rest) =
      (readBody (pc + 1) opened rest).map fun b =>
        ⟨.close :: b.statements, (start, pc) :: b.loops⟩ := by
  simp only [phrases, opLines, List.map_cons, List.map_nil, phrase_fixed 12 rfl]
  rfl

theorem phrases_epilogue : phrases epilogue = [.aside, .aside, .close] := by
  simp only [phrases, epilogue, List.map_cons, List.map_nil, phrase_fixed 5 rfl,
    phrase_fixed 6 rfl, phrase_fixed 12 rfl]

/-- A balanced program is read back from the lines of its operations. -/
theorem readBody_body {ops : List Op} (h : unmatchedFrom pc opened ops = none) :
    readBody pc opened (phrases (body use level ops) ++ phrases epilogue) =
      some ⟨ops.map statementOf, pairsFrom pc opened ops⟩ := by
  induction pc, opened, ops using bracketInduction generalizing level with
  | nil pc opened =>
      cases opened with
      | nil =>
          rw [phrases_epilogue]
          rfl
      | cons start outer => cases h
  | plain pc opened op rest hop ih =>
      rw [unmatchedFrom_plain hop] at h
      rw [body, phrases_append, List.append_assoc, readBody_plain hop, ih h,
        pairsFrom_plain hop]
      rfl
  | opened pc opened rest ih =>
      rw [unmatchedFrom_open] at h
      rw [body, phrases_append, List.append_assoc, readBody_open, ih h, pairsFrom_open]
      rfl
  | stray pc rest ih => cases h
  | closed pc start outer rest ih =>
      rw [unmatchedFrom_close] at h
      rw [body, phrases_append, List.append_assoc, readBody_close, ih h, pairsFrom_close]
      rfl

end Body

/-! ## Reading whole programs back -/

/-- What a program imports. -/
def imports (use : Channels) : List Line :=
  if use.writes || use.reads then
    [⟨0, "import (".toList⟩] ++
    (if use.writes then [⟨1, "\"bufio\"".toList⟩] else []) ++
    [⟨1, "\"os\"".toList⟩, ⟨0, ")".toList⟩, ⟨0, []⟩]
  else []

/-- What a program declares behind its tape. -/
def declarations (use : Channels) : List Line :=
  [⟨1, "ptr := 0".toList⟩] ++
  (if use.writes then
    [⟨1, "out := bufio.NewWriter(os.Stdout)".toList⟩, ⟨1, "defer out.Flush()".toList⟩]
  else []) ++
  (if use.reads then [⟨1, "b := make([]byte, 1)".toList⟩] else [])

/-- Only the package clause and the tape depend on the settings. -/
theorem preamble_eq (settings : Settings) (use : Channels) :
    preamble settings use =
      ⟨0, "package ".toList ++ settings.packageName.toList⟩ :: ⟨0, []⟩ :: (imports use ++
        ⟨0, "func main() \x7b".toList⟩ :: ⟨1, tapeLine settings.tapeSize⟩ :: declarations use) := by
  obtain ⟨writes, reads⟩ := use
  cases writes <;> cases reads <;> rfl

/-- In front of the operations the reader finds the tape and nothing else that matters. -/
theorem insideMain?_preamble (settings : Settings) (use : Channels) (rest : List (List Char)) :
    ∃ asides : List (List Char), (∀ line ∈ asides, phrase line = .aside) ∧
      insideMain? (((preamble settings use).map (·.content)).filter (· ≠ []) ++ rest) =
        some (tapeLine settings.tapeSize :: (asides ++ rest)) := by
  refine ⟨(declarations use).map (·.content), ?_, ?_⟩
  · obtain ⟨writes, reads⟩ := use
    cases writes <;> cases reads <;> decide
  · rw [preamble_eq]
    obtain ⟨writes, reads⟩ := use
    cases writes <;> cases reads <;> rfl

theorem readBody_asides {asides : List (List Char)} (h : ∀ line ∈ asides, phrase line = .aside)
    (pc : Nat) (opened : List Nat) (rest : List Phrase) :
    readBody pc opened (asides.map phrase ++ rest) = readBody pc opened rest := by
  induction asides with
  | nil => rfl
  | cons line asides ih =>
      obtain ⟨hline, hasides⟩ := List.forall_mem_cons.1 h
      rw [List.map_cons, hline, List.cons_append, readBody, ih hasides]

theorem opLines_ne_nil {use : Channels} {level : Nat} {op : Op} :
    ∀ l ∈ opLines use level op, l.content ≠ [] := by
  cases op with
  | run kind n => cases kind <;> simp [opLines]
  | input => cases h : use.writes <;> simp [opLines, h]
  | _ => simp [opLines]

/-- What holds for the lines of each operation holds for the lines of all of them. -/
theorem forall_mem_body {use : Channels} {level : Nat} {ops : List Op} {P : Line → Prop}
    (h : ∀ op ∈ ops, ∀ level, ∀ l ∈ opLines use level op, P l) :
    ∀ l ∈ body use level ops, P l := by
  induction ops generalizing level with
  | nil => exact List.forall_mem_nil _
  | cons op ops ih =>
      obtain ⟨hop, hops⟩ := List.forall_mem_cons.1 h
      rw [body]
      exact List.forall_mem_append.2 ⟨hop level, ih hops⟩

theorem body_ne_nil {use : Channels} {level : Nat} {ops : List Op} :
    ∀ l ∈ body use level ops, l.content ≠ [] :=
  forall_mem_body fun _ _ _ => opLines_ne_nil

/-- The lines of a balanced program are read back, whatever the settings. -/
theorem ofLines?_lines {ops : List Op} (h : unmatched ops = none) (settings : Settings) :
    Program.ofLines? ((lines settings ops).map (·.content)) =
      some ⟨settings.tapeSize, ops.map statementOf, pairs ops⟩ := by
  have hrest : ∀ l ∈ body (.of ops) 1 ops ++ epilogue, l.content ≠ [] :=
    List.forall_mem_append.2 ⟨body_ne_nil, by decide⟩
  have hfilter : ((body (.of ops) 1 ops ++ epilogue).map (·.content)).filter (· ≠ []) =
      (body (.of ops) 1 ops ++ epilogue).map (·.content) := by
    rw [List.filter_eq_self]
    intro line hline
    obtain ⟨l, hl, rfl⟩ := List.mem_map.1 hline
    simpa using hrest l hl
  obtain ⟨asides, hasides, hinside⟩ := insideMain?_preamble settings (.of ops)
    ((body (.of ops) 1 ops ++ epilogue).map (·.content))
  have hphrases : ((body (.of ops) 1 ops ++ epilogue).map (·.content)).map phrase =
      phrases (body (.of ops) 1 ops) ++ phrases epilogue := by
    rw [List.map_map, ← phrases_append]
    rfl
  have hlines : lines settings ops =
      preamble settings (.of ops) ++ (body (.of ops) 1 ops ++ epilogue) := List.append_assoc ..
  rw [Program.ofLines?, hlines, List.map_append, List.filter_append, hfilter, hinside,
    Option.bind_some, List.map_cons, List.map_append, hphrases, phrase_tapeLine,
    Program.ofPhrases?, readBody_asides hasides, readBody_body h, Option.map_some, pairs]

/-! ## Reading the text back -/

/-- The content of a line that stays on the line and starts at its indentation. -/
structure Clean (content : List Char) : Prop where
  oneLine : '\n' ∉ content
  unindented : content.head?.any isBlank = false

instance (content : List Char) : Decidable (Clean content) :=
  decidable_of_iff ('\n' ∉ content ∧ content.head?.any isBlank = false)
    ⟨fun h => ⟨h.1, h.2⟩, fun h => ⟨h.1, h.2⟩⟩

theorem Clean.dropWhile {content : List Char} (h : Clean content) :
    content.dropWhile isBlank = content := by
  cases content with
  | nil => rfl
  | cons c content =>
      have hc : isBlank c = false := h.unindented
      rw [List.dropWhile_cons_of_neg (by rw [hc]; exact Bool.false_ne_true)]

theorem Clean.append {start rest : List Char} (h : Clean start) (hstart : start ≠ [])
    (hrest : '\n' ∉ rest) : Clean (start ++ rest) := by
  refine ⟨fun hmem => ?_, ?_⟩
  · rcases List.mem_append.1 hmem with hmem | hmem
    · exact h.oneLine hmem
    · exact hrest hmem
  · cases start with
    | nil => exact absurd rfl hstart
    | cons c start => exact h.unindented

/-- A line with its indentation. -/
def Line.indented (indent : List Char) (l : Line) : List Char :=
  (List.replicate l.level indent).flatten ++ l.content

theorem flatMap_render (indent : List Char) (ls : List Line) :
    ls.flatMap (Line.render indent) = (ls.map (Line.indented indent)).flatMap (· ++ ['\n']) := by
  rw [List.flatMap_map]
  rfl

/-- What holds for the characters of the indentation holds for those in front of a line. -/
theorem forall_mem_indentation {indent : List Char} {P : Char → Prop} (h : ∀ c ∈ indent, P c)
    (level : Nat) : ∀ c ∈ (List.replicate level indent).flatten, P c := by
  intro c hc
  obtain ⟨piece, hpiece, hmem⟩ := List.mem_flatten.1 hc
  rw [List.eq_of_mem_replicate hpiece] at hmem
  exact h c hmem

theorem Line.newline_notMem_indented {indent : List Char} (hindent : '\n' ∉ indent) {l : Line}
    (hl : '\n' ∉ l.content) : '\n' ∉ l.indented indent := by
  intro hmem
  rcases List.mem_append.1 hmem with hmem | hmem
  · exact forall_mem_indentation (P := (· ≠ '\n')) (fun c hc => ne_of_mem_of_not_mem hc hindent) _ _
      hmem rfl
  · exact hl hmem

theorem lineFeedPieces_render {indent : List Char} (hindent : '\n' ∉ indent) {ls : List Line}
    (hls : ∀ l ∈ ls, Clean l.content) :
    Text.lineFeedPieces (ls.flatMap (Line.render indent)) =
      ls.map (Line.indented indent) ++ [[]] := by
  rw [flatMap_render]
  apply Text.lineFeedPieces_flatMap
  exact List.forall_mem_map.2 fun l hl => Line.newline_notMem_indented hindent (hls l hl).oneLine

theorem strip_indented {indent : List Char} (hindent : ∀ c ∈ indent, isBlank c = true) {l : Line}
    (hl : Clean l.content) : (l.indented indent).dropWhile isBlank = l.content := by
  rw [Line.indented, List.dropWhile_append_of_pos (forall_mem_indentation hindent _), hl.dropWhile]

theorem strip_map_indented {indent : List Char} (hindent : ∀ c ∈ indent, isBlank c = true)
    {ls : List Line} (hls : ∀ l ∈ ls, Clean l.content) :
    (ls.map (Line.indented indent)).map (·.dropWhile isBlank) = ls.map (·.content) := by
  rw [List.map_map]
  exact List.map_congr_left fun l hl => strip_indented hindent (hls l hl)

theorem isBlank_of_indent {indent : String} (h : ∀ c ∈ indent.toList, c = '\t' ∨ c = ' ') :
    ∀ c ∈ indent.toList, isBlank c = true := by
  intro c hc
  rcases h c hc with rfl | rfl <;> rfl

theorem newline_notMem_of_blank {indent : List Char} (h : ∀ c ∈ indent, isBlank c = true) :
    '\n' ∉ indent := by
  intro hmem
  cases h _ hmem

/-- A line with a number in it is clean if the text around the number is. -/
theorem clean_numbered {before behind : List Char} (hbefore : Clean before) (hne : before ≠ [])
    (n : Nat) (hbehind : '\n' ∉ behind) : Clean (before ++ Nat.toDigits 10 n ++ behind) :=
  (hbefore.append hne (Text.newline_notMem_toDigits n)).append
    (fun h => hne (List.append_eq_nil_iff.1 h).1) hbehind

theorem clean_opLines {use : Channels} {level : Nat} {op : Op} :
    ∀ l ∈ opLines use level op, Clean l.content := by
  cases op with
  | run kind n =>
      cases kind with
      | right =>
          rw [opLines, List.forall_mem_singleton]
          exact Clean.append (by decide) (by decide) (Text.newline_notMem_toDigits _)
      | left =>
          rw [opLines, List.forall_mem_singleton]
          exact Clean.append (by decide) (by decide) (Text.newline_notMem_toDigits _)
      | inc =>
          rw [opLines, List.forall_mem_singleton]
          exact clean_numbered (by decide) (by decide) _ (by decide)
      | dec =>
          rw [opLines, List.forall_mem_singleton]
          exact clean_numbered (by decide) (by decide) _ (by decide)
  | input =>
      rw [opLines, List.forall_mem_append]
      constructor
      · cases use.writes with
        | false => nofun
        | true => exact List.forall_mem_singleton.2 (by dsimp only; decide)
      · simp only [List.forall_mem_cons]
        refine ⟨?_, ?_, ?_, nofun⟩
        all_goals decide
  | _ =>
      rw [opLines, List.forall_mem_singleton]
      dsimp only
      decide

theorem clean_body {use : Channels} {level : Nat} {ops : List Op} :
    ∀ l ∈ body use level ops, Clean l.content :=
  forall_mem_body fun _ _ _ => clean_opLines

/-- The package clause, whose name may be any text. -/
def packageClause (settings : Settings) : List Char :=
  "package ".toList ++ settings.packageName.toList

theorem lines_eq_cons (settings : Settings) (ops : List Op) :
    lines settings ops = ⟨0, packageClause settings⟩ :: (lines settings ops).tail := by
  rw [lines, preamble_eq]
  rfl

theorem tail_lines (settings : Settings) (ops : List Op) :
    (lines settings ops).tail =
      (preamble settings (.of ops)).tail ++ body (.of ops) 1 ops ++ epilogue := by
  rw [lines, preamble_eq]
  rfl

theorem clean_tapeLine (cells : Nat) : Clean (tapeLine cells) :=
  clean_numbered (by decide) (by decide) _ (by decide)

theorem clean_tail_preamble (settings : Settings) (use : Channels) :
    ∀ l ∈ (preamble settings use).tail, Clean l.content := by
  rw [preamble_eq, List.tail_cons]
  obtain ⟨writes, reads⟩ := use
  refine List.forall_mem_cons.2 ⟨by decide, List.forall_mem_append.2 ⟨?_, List.forall_mem_cons.2
    ⟨by decide, List.forall_mem_cons.2 ⟨clean_tapeLine _, ?_⟩⟩⟩⟩
  · cases writes <;> cases reads <;> decide
  · cases writes <;> cases reads <;> decide

/-- Behind the package clause all lines are clean. -/
theorem clean_tail_lines (settings : Settings) (ops : List Op) :
    ∀ l ∈ (lines settings ops).tail, Clean l.content := by
  rw [tail_lines]
  exact List.forall_mem_append.2
    ⟨List.forall_mem_append.2 ⟨clean_tail_preamble settings _, clean_body⟩, by decide⟩

theorem clean_lines {settings : Settings} (h : '\n' ∉ settings.packageName.toList)
    (ops : List Op) : ∀ l ∈ lines settings ops, Clean l.content := by
  rw [lines_eq_cons]
  exact List.forall_mem_cons.2
    ⟨Clean.append (by decide) (by decide) h, clean_tail_lines settings ops⟩

/-- Without their indentation the lines of a text are what stands on them, and the empty line
behind the last line end. -/
theorem contents_renderLines {indent : String} (hindent : ∀ c ∈ indent.toList, isBlank c = true)
    {ls : List Line} (hls : ∀ l ∈ ls, Clean l.content) :
    (Text.lineFeedPieces (renderLines indent ls).toList).map (·.dropWhile isBlank) =
      ls.map (·.content) ++ [[]] := by
  have hnewline := newline_notMem_of_blank hindent
  rw [renderLines, String.toList_ofList, lineFeedPieces_render hnewline hls, List.map_append,
    strip_map_indented hindent hls]
  rfl

/-- The text of lines is read as the lines are. -/
theorem ofText?_renderLines {indent : String} (hindent : ∀ c ∈ indent.toList, isBlank c = true)
    {ls : List Line} (hls : ∀ l ∈ ls, Clean l.content) :
    Program.ofText? (renderLines indent ls) = Program.ofLines? (ls.map (·.content)) := by
  rw [Program.ofText?, contents_renderLines hindent hls]
  simp [Program.ofLines?]

/-- A text that is written is read back. -/
theorem ofText?_of_write {settings : Settings} {ops : List Op} {text : String}
    (hwrite : write settings ops = .ok text)
    (hindent : ∀ c ∈ settings.indent.toList, c = '\t' ∨ c = ' ')
    (hpackage : '\n' ∉ settings.packageName.toList) :
    Program.ofText? text = some ⟨settings.tapeSize, ops.map statementOf, pairs ops⟩ := by
  obtain ⟨hcheck, rfl⟩ := write_eq_ok_iff.1 hwrite
  rw [ofText?_renderLines (isBlank_of_indent hindent) (clean_lines hpackage ops),
    ofLines?_lines (check_eq_ok_iff.1 hcheck).2]

end Brainfuck.Go
