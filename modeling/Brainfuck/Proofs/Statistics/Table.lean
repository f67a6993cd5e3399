import Mathlib.Data.List.TakeWhile
import Brainfuck.Proofs.Text.Lines
import Brainfuck.Statistics

/-!
# Reading the table of operations

What the table says is read off its text: a line that starts with two blanks is a row, the name on
it goes up to the next blank, and the number behind the blanks is its count.  The heading and the
share in percent are passed over.

* `Statistics.Row.ofLine?`, `Statistics.listed` — the row of a line, and the rows of a text.
* `Statistics.lineFeedPieces_table` — the table has its headings, and one line for each row.
* `Statistics.listed_table` — the rows are read back.
-/

namespace Brainfuck.Statistics

variable {row : Row} {rows : List Row} {name digits rest : List Char} {k n : Nat}

/-- The row that a line says. -/
def Row.ofLine? (line : List Char) : Option Row :=
  ("  ".toList.isPrefixOf? line).bind fun text =>
    let name := text.takeWhile (· ≠ ' ')
    let digits := ((text.dropWhile (· ≠ ' ')).dropWhile (· = ' ')).takeWhile Char.isDigit
    if name ≠ [] ∧ digits ≠ [] then some ⟨String.ofList name, Nat.ofDigitChars 10 digits 0⟩
    else none

/-- The rows that a text says. -/
def listed (text : String) : List Row := (Text.lineFeedPieces text.toList).filterMap Row.ofLine?

/-- The name of a row is one word. -/
structure Row.Plain (row : Row) : Prop where
  ne_nil : row.mnemonic.toList ≠ []
  unbroken : ∀ c ∈ row.mnemonic.toList, c ≠ ' ' ∧ c ≠ '\n'

theorem plain_mnemonic (op : Op) (count : Nat) : Row.Plain ⟨op.mnemonic, count⟩ := by
  have hword : (!op.mnemonic.toList.isEmpty &&
      op.mnemonic.toList.all fun c => c != ' ' && c != '\n') = true := by
    rcases op with ⟨_ | _ | _ | _, n⟩ | _ | _ | _ | _ | _
    all_goals
      dsimp only [Op.mnemonic]
      decide +kernel
  obtain ⟨hne, hall⟩ := Bool.and_eq_true_iff.1 hword
  refine ⟨by simpa using hne, fun c hc => ?_⟩
  simpa using List.all_eq_true.1 hall c hc

/-! ## A line -/

theorem blanks_append_cons (k : Nat) (rest : List Char) :
    List.replicate k ' ' ++ ' ' :: rest = ' ' :: (List.replicate k ' ' ++ rest) := by
  rw [← List.singleton_append, ← List.append_assoc, ← List.replicate_succ', List.replicate_succ,
    List.cons_append]

/-- A text is cut where its characters are first of another kind. -/
theorem cut_append_cons {p : Char → Bool} {front : List Char} {c : Char}
    (hfront : ∀ d ∈ front, p d = true) (hc : p c = false) (rest : List Char) :
    (front ++ c :: rest).takeWhile p = front ∧ (front ++ c :: rest).dropWhile p = c :: rest := by
  have hnot : ¬ p c = true := by simp [hc]
  rw [List.takeWhile_append_of_pos hfront, List.dropWhile_append_of_pos hfront,
    List.takeWhile_cons_of_neg hnot, List.dropWhile_cons_of_neg hnot, List.append_nil]
  exact ⟨rfl, rfl⟩

/-- A word, and a number behind it with blanks between them and one behind it. -/
theorem ofLine?_columns (hname : name ≠ []) (hblank : ∀ c ∈ name, c ≠ ' ') (k n : Nat)
    (rest : List Char) :
    Row.ofLine? ("  ".toList ++ (name ++ ' ' ::
        (List.replicate k ' ' ++ (Nat.toDigits 10 n ++ ' ' :: rest)))) =
      some ⟨String.ofList name, n⟩ := by
  have hdigits : ∀ c ∈ Nat.toDigits 10 n, c.isDigit = true :=
    fun c hc => Nat.isDigit_of_mem_toDigits (by decide) (by decide) hc
  obtain ⟨d, ds, hcons⟩ := List.exists_cons_of_ne_nil (Nat.toDigits_ne_nil (n := n) (b := 10))
  have hd : d ≠ ' ' := by
    rintro rfl
    cases hdigits ' ' (by simp [hcons])
  obtain ⟨hword, hbehind⟩ := cut_append_cons (p := (· ≠ ' ')) (c := ' ')
    (fun c hc => decide_eq_true (hblank c hc)) rfl
    (List.replicate k ' ' ++ (Nat.toDigits 10 n ++ ' ' :: rest))
  have hblanks : (' ' :: (List.replicate k ' ' ++ (Nat.toDigits 10 n ++ ' ' :: rest))).dropWhile
      (· = ' ') = Nat.toDigits 10 n ++ ' ' :: rest := by
    rw [← List.cons_append, ← List.replicate_succ, hcons]
    exact (cut_append_cons (fun c hc => decide_eq_true (List.eq_of_mem_replicate hc))
      (decide_eq_false hd) _).2
  have hnumber : (Nat.toDigits 10 n ++ ' ' :: rest).takeWhile Char.isDigit = Nat.toDigits 10 n :=
    (cut_append_cons hdigits rfl rest).1
  rw [Row.ofLine?, List.isPrefixOf?_eq_some_iff_append_eq.2 rfl, Option.bind_some]
  simp only [hword, hbehind, hblanks, hnumber]
  rw [if_pos ⟨hname, Nat.toDigits_ne_nil⟩, Nat.ofDigitChars_ten_toDigits]

/-- A row is read back from its line. -/
theorem ofLine?_line (h : row.Plain) (total : Nat) : Row.ofLine? (row.line total) = some row := by
  have hline : row.line total = "  ".toList ++ (row.mnemonic.toList ++ ' ' ::
      (List.replicate (8 - row.mnemonic.toList.length + (6 - (Nat.toDigits 10 row.count).length))
          ' ' ++ (Nat.toDigits 10 row.count ++ ' ' :: ('(' ::
            ((Text.percent row.count total).leftpad 5 ' ' ++ "%)".toList))))) := by
    rw [List.replicate_add, List.append_assoc, ← blanks_append_cons]
    simp [Row.line, List.leftpad, List.rightpad]
  rw [hline, ofLine?_columns h.ne_nil fun c hc => (h.unbroken c hc).1, String.ofList_toList]

/-! ## The table -/

theorem newline_notMem_percent (count total : Nat) : '\n' ∉ Text.percent count total := by
  rw [Text.percent, Text.Dyadic.oneDecimal]
  simp only [List.mem_append, List.mem_cons, not_or]
  exact ⟨Text.newline_notMem_toDigits _, by decide, Text.newline_notMem_toDigits _⟩

theorem newline_notMem_line (h : row.Plain) (total : Nat) : '\n' ∉ row.line total := by
  have hname : '\n' ∉ row.mnemonic.toList := fun hmem => (h.unbroken _ hmem).2 rfl
  simp [Row.line, List.leftpad, List.rightpad, hname, Text.newline_notMem_toDigits,
    newline_notMem_percent]

theorem newline_notMem_headings (total : Nat) : ∀ line ∈ headings total, '\n' ∉ line := by
  simp [headings, Text.newline_notMem_toDigits]

/-- The table has its headings, and one line for each row. -/
theorem lineFeedPieces_table (h : ∀ row ∈ rows, row.Plain) (total : Nat) :
    Text.lineFeedPieces (table total rows).toList =
      headings total ++ rows.map (Row.line total) ++ [[]] := by
  rw [table, String.toList_ofList]
  apply Text.lineFeedPieces_flatMap
  refine List.forall_mem_append.2 ⟨newline_notMem_headings total, List.forall_mem_map.2 ?_⟩
  exact fun row hrow => newline_notMem_line (h row hrow) total

theorem filterMap_headings (total : Nat) : (headings total).filterMap Row.ofLine? = [] := rfl

/-- The rows of a table are read back. -/
theorem listed_table (h : ∀ row ∈ rows, row.Plain) (total : Nat) :
    listed (table total rows) = rows := by
  have hrows : (rows.map (Row.line total)).filterMap Row.ofLine? = rows := by
    rw [List.filterMap_map]
    exact (List.filterMap_congr fun row hrow => ofLine?_line (h row hrow) total).trans
      List.filterMap_some
  rw [listed, lineFeedPieces_table h, List.filterMap_append, List.filterMap_append,
    filterMap_headings, hrows]
  exact List.append_nil rows

end Brainfuck.Statistics
