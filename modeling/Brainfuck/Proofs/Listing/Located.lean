import Brainfuck.Listing.Located
import Brainfuck.Proofs.Listing.Faithful

/-!
# A listing of located operations says what it lists

Colours are all that a coloured listing has more than a plain one, and a plain one can be read back:
the numbers of a position end where their digits end, however many there are, the group always takes
six characters, and the operation goes to the end of the line.

* `Listing.withoutEscapes` — a text without its escape sequences.
* `Listing.withoutEscapes_render` — without them a coloured listing is the plain one.
* `Listing.readLocated` — the located operations that a plain listing says.
* `Listing.readLocated_render` — they are the ones that were listed.
* `Listing.located_listing_faithful` — both together, in either form of the operations.
-/

namespace Brainfuck.Listing

variable {c : Char} {n width : Nat} {s rest : List Char}

/-! ## Escape sequences -/

/-- How many characters the escape sequence at the front of a text has: an ESC, a bracket, digits
and an `m`.  It is 0 where there is none. -/
def escapeLength (text : List Char) : Nat :=
  let digits := (text.drop 2).takeWhile Char.isDigit
  let back := (text.drop 2).dropWhile Char.isDigit
  if text.take 2 = ['\x1b', '['] ∧ digits ≠ [] ∧ back.head? = some 'm' then digits.length + 3
  else 0

/-- A text without its escape sequences, of which the first `skip` characters are the rest of
one. -/
def skipEscapes : Nat → List Char → List Char
  | _, [] => []
  | skip + 1, _ :: rest => skipEscapes skip rest
  | 0, c :: rest =>
      match escapeLength (c :: rest) with
      | 0 => c :: skipEscapes 0 rest
      | skip + 1 => skipEscapes skip rest

/-- A text without its escape sequences. -/
def withoutEscapes (text : List Char) : List Char := skipEscapes 0 text

/-- The characters are one escape sequence. -/
def IsEscape (s : List Char) : Prop :=
  ∃ digits, digits ≠ [] ∧ (∀ c ∈ digits, c.isDigit = true) ∧
    s = '\x1b' :: '[' :: (digits ++ ['m'])

theorem isEscape_color (group : Group) : IsEscape group.color.toList := by
  cases group with
  | move => exact ⟨['3', '3'], by simp, by simp, rfl⟩
  | arith => exact ⟨['3', '6'], by simp, by simp, rfl⟩
  | io => exact ⟨['3', '2'], by simp, by simp, rfl⟩
  | loop => exact ⟨['3', '5'], by simp, by simp, rfl⟩

theorem isEscape_colorEnd : IsEscape colorEnd.toList := ⟨['0'], by simp, by simp, rfl⟩

theorem escapeLength_of_ne (h : c ≠ '\x1b') : escapeLength (c :: rest) = 0 := by
  apply if_neg
  rintro ⟨htake, -⟩
  cases rest <;> simp [h] at htake

theorem IsEscape.escapeLength (h : IsEscape s) (rest : List Char) :
    escapeLength (s ++ rest) = s.length := by
  obtain ⟨digits, hne, hdigits, rfl⟩ := h
  have hend : ¬ Char.isDigit 'm' = true := by decide
  have hback : ('\x1b' :: '[' :: (digits ++ ['m']) ++ rest).drop 2 = digits ++ 'm' :: rest := by
    simp
  unfold Listing.escapeLength
  simp only [hback, List.takeWhile_append_of_pos hdigits, List.dropWhile_append_of_pos hdigits,
    List.takeWhile_cons_of_neg hend, List.dropWhile_cons_of_neg hend]
  simp [hne]

theorem skipEscapes_append (s rest : List Char) :
    skipEscapes s.length (s ++ rest) = withoutEscapes rest := by
  induction s with
  | nil => rfl
  | cons c s ih => exact ih

/-- An escape sequence is left out. -/
theorem IsEscape.withoutEscapes_append (h : IsEscape s) (rest : List Char) :
    withoutEscapes (s ++ rest) = withoutEscapes rest := by
  have hlength := h.escapeLength rest
  obtain ⟨digits, -, -, rfl⟩ := h
  rw [withoutEscapes, List.cons_append, skipEscapes, ← List.cons_append, hlength]
  exact skipEscapes_append _ rest

/-- What has no ESC is kept. -/
theorem withoutEscapes_append (h : '\x1b' ∉ s) (rest : List Char) :
    withoutEscapes (s ++ rest) = s ++ withoutEscapes rest := by
  induction s with
  | nil => rfl
  | cons c s ih =>
      rw [List.mem_cons, not_or] at h
      rw [List.cons_append, withoutEscapes, skipEscapes, escapeLength_of_ne (Ne.symm h.1)]
      exact congrArg (c :: ·) (ih h.2)

/-! ## Plain lines -/

/-- The position at the front of a line. -/
def place (p : Position) : List Char :=
  '[' :: zeroPadded 2 p.line ++ ':' :: zeroPadded 2 p.column ++ "] ".toList

/-- The group of an operation in the middle of a line. -/
def groupColumn (op : Op) : List Char := (Group.of op).name.toList.rightpad 6 ' '

/-- The operation at the end of a line. -/
def written (pretty : Bool) (op : Op) : List Char := if pretty then op.brief else op.verbose

/-- The line of a located operation without colours and without its line end. -/
def plainLine (pretty : Bool) (l : Located) : List Char :=
  place l.position ++ (groupColumn l.op ++ ' ' :: written pretty l.op)

theorem line_plain (pretty : Bool) (l : Located) :
    Style.line ⟨false, pretty⟩ l = plainLine pretty l ++ ['\n'] := rfl

theorem line_colored (pretty : Bool) (l : Located) :
    Style.line ⟨true, pretty⟩ l =
      place l.position ++ ((Group.of l.op).color.toList ++
        ((groupColumn l.op ++ ' ' :: written pretty l.op) ++ (colorEnd.toList ++ ['\n']))) := by
  simp [Style.line, Style.body, place, groupColumn, written]

/-- The names of a run do not depend on its count. -/
theorem written_run (pretty : Bool) (kind : RunKind) (n : UInt32) :
    written pretty (.run kind n) =
      if pretty then (Op.run kind 0).mnemonic.toList ++ ' ' :: Nat.toDigits 10 n.toNat
      else (Op.run kind 0).title.toList ++ '(' :: (Nat.toDigits 10 n.toNat ++ [')']) := by
  cases pretty
  · cases kind <;> simp [written, Op.verbose, Op.count?, Op.title]
  · cases kind <;> rfl

/-- Is there neither a line feed nor an ESC among the characters? -/
def printed (s : List Char) : Bool := s.all fun c => c != '\n' && c != '\x1b'

theorem printed_append (s t : List Char) : printed (s ++ t) = (printed s && printed t) :=
  List.all_append

theorem printed_cons (c : Char) (s : List Char) :
    printed (c :: s) = ((c != '\n' && c != '\x1b') && printed s) :=
  List.all_cons

theorem printed_of_isDigit (h : ∀ c ∈ s, c.isDigit = true) : printed s = true := by
  rw [printed, List.all_eq_true]
  intro c hc
  rw [Bool.and_eq_true, bne_iff_ne, bne_iff_ne]
  constructor
  · rintro rfl
    cases h _ hc
  · rintro rfl
    cases h _ hc

theorem notMem_of_printed (h : printed s = true) : '\n' ∉ s ∧ '\x1b' ∉ s := by
  rw [printed, List.all_eq_true] at h
  constructor
  · intro hmem
    cases h _ hmem
  · intro hmem
    cases h _ hmem

theorem printed_place (p : Position) : printed (place p) = true := by
  have hnumber (n : Nat) : printed (zeroPadded 2 n) = true :=
    printed_of_isDigit fun c => isDigit_of_mem_zeroPadded
  rw [place, printed_append, printed_append, printed_cons, printed_cons, hnumber, hnumber]
  rfl

theorem printed_written (pretty : Bool) (op : Op) : printed (written pretty op) = true := by
  cases op with
  | run kind n =>
      have hdigits : printed (Nat.toDigits 10 n.toNat) = true :=
        printed_of_isDigit fun c => Nat.isDigit_of_mem_toDigits (by decide) (by decide)
      rw [written_run]
      cases pretty
      · rw [if_neg (by decide), printed_append, printed_cons, printed_append, hdigits]
        cases kind <;> rfl
      · rw [if_pos rfl, printed_append, printed_cons, hdigits]
        cases kind <;> rfl
  | _ => cases pretty <;> rfl

theorem printed_body (pretty : Bool) (op : Op) :
    printed (groupColumn op ++ ' ' :: written pretty op) = true := by
  have hgroup : printed (groupColumn op) = true := by
    unfold groupColumn
    cases Group.of op <;> rfl
  rw [printed_append, printed_cons, hgroup, printed_written]
  rfl

theorem printed_plainLine (pretty : Bool) (l : Located) : printed (plainLine pretty l) = true := by
  rw [plainLine, printed_append, printed_place, printed_body]
  rfl

/-! ## Without colours -/

theorem withoutEscapes_line (pretty : Bool) (l : Located) (rest : List Char) :
    withoutEscapes (Style.line ⟨true, pretty⟩ l ++ rest) =
      Style.line ⟨false, pretty⟩ l ++ withoutEscapes rest := by
  have hplace := (notMem_of_printed (printed_place l.position)).2
  have hbody := (notMem_of_printed (printed_body pretty l.op)).2
  have hend : '\x1b' ∉ ['\n'] := by decide
  rw [line_colored, line_plain, plainLine]
  -- the text between the colours is kept in one piece
  generalize groupColumn l.op ++ ' ' :: written pretty l.op = body at hbody ⊢
  simp only [List.append_assoc]
  rw [withoutEscapes_append hplace, (isEscape_color _).withoutEscapes_append,
    withoutEscapes_append hbody, isEscape_colorEnd.withoutEscapes_append,
    withoutEscapes_append hend]

/-- A coloured listing without its escape sequences is the plain one. -/
theorem withoutEscapes_render (pretty : Bool) (ops : List Located) :
    withoutEscapes (Style.render ⟨true, pretty⟩ ops).toList =
      (Style.render ⟨false, pretty⟩ ops).toList := by
  rw [Style.render, Style.render, String.toList_ofList, String.toList_ofList]
  induction ops with
  | nil => rfl
  | cons l ops ih => rw [List.flatMap_cons, List.flatMap_cons, withoutEscapes_line, ih]

/-! ## Reading a plain listing back -/

/-- The name of an operation at the end of a line. -/
def writtenName (pretty : Bool) (op : Op) : List Char :=
  (if pretty then op.mnemonic else op.title).toList

/-- The operation that is written in a text: its name goes up to a blank or a bracket, and all
digits are those of its count. -/
def readOp? (pretty : Bool) (text : List Char) : Option Op :=
  let name := text.takeWhile fun c => c != ' ' && c != '('
  ((namedOps.map Prod.snd).find? fun op => writtenName pretty (op 0) == name).map fun op =>
    op (Nat.ofDigitChars 10 (text.filter Char.isDigit) 0)

/-- The number at the front of a text. -/
def numberAt (text : List Char) : Nat := Nat.ofDigitChars 10 (text.takeWhile Char.isDigit) 0

/-- What stands behind the number at the front of a text. -/
def behindNumber (text : List Char) : List Char := text.dropWhile Char.isDigit

/-- The located operation that a plain line says. -/
def readLine? (pretty : Bool) (line : List Char) : Option Located :=
  let text := line.drop 1
  let text' := (behindNumber text).drop 1
  (readOp? pretty ((behindNumber text').drop 9)).map fun op =>
    ⟨op, ⟨numberAt text, numberAt text'⟩⟩

/-- The located operations that a plain listing says. -/
def readLocated (pretty : Bool) (text : String) : List Located :=
  (Text.lineFeedPieces text.toList).filterMap (readLine? pretty)

theorem readOp?_written (pretty : Bool) (op : Op) :
    readOp? pretty (written pretty op) = some op := by
  cases op with
  | run kind n =>
      have hdigits : (Nat.toDigits 10 n.toNat).filter Char.isDigit = Nat.toDigits 10 n.toNat :=
        List.filter_eq_self.2 fun c => Nat.isDigit_of_mem_toDigits (by decide) (by decide)
      -- the names are found whatever digits stand behind them, so the count comes in last
      have hbrief (digits : List Char) :
          readOp? true ((Op.run kind 0).mnemonic.toList ++ ' ' :: digits) =
            some (.run kind (Nat.ofDigitChars 10 (digits.filter Char.isDigit) 0).toUInt32) := by
        cases kind <;> rfl
      have hverbose (digits : List Char) :
          readOp? false ((Op.run kind 0).title.toList ++ '(' :: digits) =
            some (.run kind (Nat.ofDigitChars 10 (digits.filter Char.isDigit) 0).toUInt32) := by
        cases kind <;> rfl
      rw [written_run]
      cases pretty
      · rw [if_neg (by decide), hverbose, List.filter_append, hdigits,
          List.filter_cons_of_neg (by decide), List.filter_nil, List.append_nil,
          count_toDigits]
      · rw [if_pos rfl, hbrief, hdigits, count_toDigits]
  | _ => cases pretty <;> rfl

theorem numberAt_zeroPadded (h : c.isDigit = false) (rest : List Char) :
    numberAt (zeroPadded width n ++ c :: rest) = n := by
  rw [numberAt, List.takeWhile_append_of_pos fun c => isDigit_of_mem_zeroPadded,
    List.takeWhile_cons_of_neg (by simp [h]), List.append_nil, zeroPadded, List.leftpad,
    Nat.ofDigitChars_append, Nat.ofDigitChars_replicate_zero, Nat.mul_zero,
    Nat.ofDigitChars_ten_toDigits]

theorem behindNumber_zeroPadded (h : c.isDigit = false) (rest : List Char) :
    behindNumber (zeroPadded width n ++ c :: rest) = c :: rest := by
  rw [behindNumber, List.dropWhile_append_of_pos fun c => isDigit_of_mem_zeroPadded,
    List.dropWhile_cons_of_neg (by simp [h])]

theorem place_append (p : Position) (rest : List Char) :
    place p ++ rest =
      '[' :: (zeroPadded 2 p.line ++ ':' :: (zeroPadded 2 p.column ++ ']' :: ' ' :: rest)) := by
  have hend : "] ".toList = [']', ' '] := rfl
  simp [place, hend]

theorem readLine?_plainLine (pretty : Bool) (l : Located) :
    readLine? pretty (plainLine pretty l) = some l := by
  have hop : (']' :: ' ' :: (groupColumn l.op ++ ' ' :: written pretty l.op)).drop 9 =
      written pretty l.op := by
    unfold groupColumn
    cases Group.of l.op <;> rfl
  have hcolon : ':'.isDigit = false := rfl
  have hbracket : ']'.isDigit = false := rfl
  rw [plainLine, place_append, readLine?]
  simp only [List.drop_one, List.tail_cons, behindNumber_zeroPadded hcolon,
    numberAt_zeroPadded hcolon, behindNumber_zeroPadded hbracket, numberAt_zeroPadded hbracket, hop,
    readOp?_written, Option.map_some]

/-- A plain listing is read back. -/
theorem readLocated_render (pretty : Bool) (ops : List Located) :
    readLocated pretty (Style.render ⟨false, pretty⟩ ops) = ops := by
  have hlines : ops.flatMap (Style.line ⟨false, pretty⟩) =
      (ops.map (plainLine pretty)).flatMap (· ++ ['\n']) := by
    rw [List.flatMap_map]
    rfl
  have hbreaks : ∀ line ∈ ops.map (plainLine pretty), '\n' ∉ line := by
    intro line hline
    obtain ⟨l, -, rfl⟩ := List.mem_map.1 hline
    exact (notMem_of_printed (printed_plainLine pretty l)).1
  have hread : readLine? pretty ∘ plainLine pretty = some := by
    funext l
    exact readLine?_plainLine pretty l
  -- behind the last line feed there is one more piece, and it says nothing
  have hlast : [[]].filterMap (readLine? pretty) = [] := by
    cases pretty <;> rfl
  rw [readLocated, Style.render, String.toList_ofList, hlines, Text.lineFeedPieces_flatMap hbreaks,
    List.filterMap_append, List.filterMap_map, hread, List.filterMap_some, hlast, List.append_nil]

/-- **A listing of located operations says what it lists**, whether the operations are written in
brief or in verbose form.  A coloured listing without its escape sequences is the plain one.  And no
other located operations have the same listing, plain or coloured. -/
theorem located_listing_faithful (pretty : Bool) :
    (∀ ops, withoutEscapes (Style.render ⟨true, pretty⟩ ops).toList =
      (Style.render ⟨false, pretty⟩ ops).toList) ∧
    ∀ color ops other,
      Style.render ⟨color, pretty⟩ ops = Style.render ⟨color, pretty⟩ other → ops = other := by
  refine ⟨withoutEscapes_render pretty, ?_⟩
  intro color ops other h
  have hplain : Style.render ⟨false, pretty⟩ ops = Style.render ⟨false, pretty⟩ other := by
    cases color with
    | false => exact h
    | true =>
        apply String.toList_injective
        rw [← withoutEscapes_render, ← withoutEscapes_render, h]
  rw [← readLocated_render pretty ops, hplain, readLocated_render]

/-- A column of three digits is listed with all of them, with colours and without; and what is read
from a text can be told from its listing. -/
theorem located_listing_faithful_wide_column :
    withoutEscapes (Style.render ⟨true, false⟩ [⟨.run .inc 2, ⟨7, 123⟩⟩]).toList =
        "[07:123] ARITH  IncrementCell(2)\n".toList ∧
      Style.render ⟨false, true⟩ (Source.readLocated "+ +\n.") =
        Style.render ⟨false, true⟩ [⟨.run .inc 2, ⟨1, 1⟩⟩, ⟨.output, ⟨2, 1⟩⟩] ∧
      Source.readLocated "+ +\n." = [⟨.run .inc 2, ⟨1, 1⟩⟩, ⟨.output, ⟨2, 1⟩⟩] := by
  have hplain : (Style.render ⟨false, false⟩ [⟨.run .inc 2, ⟨7, 123⟩⟩]).toList =
      "[07:123] ARITH  IncrementCell(2)\n".toList := by decide +kernel
  have hlisted : Style.render ⟨false, true⟩ (Source.readLocated "+ +\n.") =
      Style.render ⟨false, true⟩ [⟨.run .inc 2, ⟨1, 1⟩⟩, ⟨.output, ⟨2, 1⟩⟩] := by decide +kernel
  obtain ⟨hcolors, -⟩ := located_listing_faithful false
  obtain ⟨-, hsame⟩ := located_listing_faithful true
  exact ⟨(hcolors _).trans hplain, hlisted, hsame false _ _ hlisted⟩

end Brainfuck.Listing
