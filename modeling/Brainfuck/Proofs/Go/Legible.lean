import Mathlib.Data.List.TakeWhile
import Brainfuck.Proofs.Go.Reader

/-!
# Which Go texts can be read back

The indentation and the name of the package are free texts, and some of them spoil the Go text they
stand in.  A text is read back exactly if its settings are legible: the indentation is made of tabs,
blanks and line feeds, and all that follows the package clause in the name could as well stand
between the package clause and the main function.

* `Go.said` — the lines of a text that say something.
* `Go.exists_lines_of_ofText?` — what a text that is read as a program looks like.
* `Go.Settings.Legible` — the settings of such texts.
* `Go.ofText?_of_legible`, `Go.ofText?_of_not_legible` — whether a text is read back.
-/

namespace Brainfuck.Go

open Loops

variable {text rest line content : List Char} {settings : Settings} {ops : List Op} {l : Line}

/-! ## The lines that say something -/

/-- The lines of a text without their indentation, and without those that are empty then. -/
def said (text : List Char) : List (List Char) :=
  ((Text.lineFeedPieces text).map (·.dropWhile isBlank)).filter (· ≠ [])

theorem ofText?_eq (text : String) :
    Program.ofText? text = (insideMain? (said text.toList)).bind fun inside =>
      Program.ofPhrases? (inside.map phrase) := rfl

@[simp] theorem said_nil : said [] = [] := rfl

theorem said_append_newline (text rest : List Char) :
    said (text ++ '\n' :: rest) = said text ++ said rest := by
  rw [said, Text.lineFeedPieces_append, List.map_append, List.filter_append, said, said]

theorem said_flatMap (ls : List (List Char)) :
    said (ls.flatMap (· ++ ['\n'])) = ls.flatMap said := by
  induction ls with
  | nil => rfl
  | cons line ls ih =>
      rw [List.flatMap_cons, List.append_assoc, List.singleton_append, said_append_newline, ih,
        List.flatMap_cons]

theorem said_of_clean (h : Clean content) (hne : content ≠ []) : said content = [content] := by
  rw [said, Text.lineFeedPieces_of_notMem h.oneLine, List.map_singleton, h.dropWhile]
  simp [hne]

/-- Tabs, blanks and line feeds. -/
def isWhite (c : Char) : Bool := isBlank c || c = '\n'

/-- White space in front of a text says nothing. -/
theorem said_white_append {white : List Char} (h : ∀ c ∈ white, isWhite c = true)
    (rest : List Char) : said (white ++ rest) = said rest := by
  induction white with
  | nil => rfl
  | cons c white ih =>
      obtain ⟨hc, hwhite⟩ := List.forall_mem_cons.1 h
      rw [List.cons_append, ← ih hwhite]
      by_cases hnewline : c = '\n'
      · subst hnewline
        exact said_append_newline [] _
      · have hblank : isBlank c = true := by simpa [isWhite, hnewline] using hc
        obtain ⟨piece, pieces, hpieces⟩ := Text.exists_lineFeedPieces_eq (white ++ rest)
        rw [said, said, Text.lineFeedPieces_cons_of_ne hnewline hpieces, hpieces, List.map_cons,
          List.map_cons, List.dropWhile_cons_of_pos hblank]

/-- What an indentation says in front of a line: some lines of its own, and some text on the line
itself.  It is white space if it says nothing. -/
theorem exists_said_append (indent : List Char) :
    ∃ (lines : List (List Char)) (start : List Char),
      (lines = [] → start = [] → ∀ c ∈ indent, isWhite c = true) ∧
      ∀ content, Clean content → content ≠ [] →
        said (indent ++ content) = lines ++ [start ++ content] := by
  obtain ⟨pieces, last, hindent, hpieces⟩ := Text.lineFeedPieces_append_line indent
  refine ⟨(pieces.map (·.dropWhile isBlank)).filter (· ≠ []), last.dropWhile isBlank, ?_, ?_⟩
  · intro hlines hstart c hc
    have hblank : ∀ piece ∈ Text.lineFeedPieces indent, piece.dropWhile isBlank = [] := by
      rw [hindent, List.forall_mem_append, List.forall_mem_singleton]
      refine ⟨fun piece hpiece => ?_, hstart⟩
      have hnil := List.filter_eq_nil_iff.1 hlines _ (List.mem_map_of_mem hpiece)
      simpa using hnil
    rcases Text.exists_mem_lineFeedPieces hc with rfl | ⟨piece, hpiece, hmem⟩
    · rfl
    · rw [isWhite, List.dropWhile_eq_nil_iff.1 (hblank piece hpiece) c hmem, Bool.true_or]
  · intro content hclean hne
    have hstrip : (last ++ content).dropWhile isBlank = last.dropWhile isBlank ++ content := by
      rw [List.dropWhile_append, hclean.dropWhile]
      split
      · rename_i hnil
        rw [List.isEmpty_iff.1 hnil, List.nil_append]
      · rfl
    have hkept : [last.dropWhile isBlank ++ content].filter (· ≠ []) =
        [last.dropWhile isBlank ++ content] := by simp [hne]
    rw [said, hpieces content hclean.oneLine, List.map_append, List.map_singleton, hstrip,
      List.filter_append, hkept]

/-! ## What a text that is read looks like -/

/-- The head of the main function. -/
def mainHead : List Char := "func main() \x7b".toList

theorem ne_mainHead_of_isHeader (h : isHeader line = true) : line ≠ mainHead := by
  have hmain : isHeader mainHead = false := by decide
  rintro rfl
  rw [hmain] at h
  cases h

theorem phrase_mainHead : phrase mainHead = .unknown := by decide +kernel

theorem insideMain?_headers {headers : List (List Char)}
    (h : ∀ line ∈ headers, isHeader line = true) (rest : List (List Char)) :
    insideMain? (headers ++ rest) = insideMain? rest := by
  induction headers with
  | nil => rfl
  | cons line headers ih =>
      obtain ⟨hline, hheaders⟩ := List.forall_mem_cons.1 h
      have hne : line ≠ "func main() \x7b".toList := ne_mainHead_of_isHeader hline
      rw [List.cons_append, insideMain?, if_neg hne, if_pos hline, ih hheaders]

/-- In front of the main function there are headers only. -/
theorem exists_headers_of_insideMain? {ls inside : List (List Char)}
    (h : insideMain? ls = some inside) :
    ∃ headers, ls = headers ++ mainHead :: inside ∧ ∀ line ∈ headers, isHeader line = true := by
  induction ls with
  | nil => cases h
  | cons line ls ih =>
      rw [insideMain?] at h
      split at h
      next heq =>
        cases h
        exact ⟨[], by rw [heq]; rfl, List.forall_mem_nil _⟩
      next =>
        split at h
        next hheader =>
          obtain ⟨headers, rfl, hheaders⟩ := ih h
          exact ⟨line :: headers, rfl, List.forall_mem_cons.2 ⟨hheader, hheaders⟩⟩
        next => cases h

/-- Does a line say something that a function body can go on with? -/
def Phrase.isPlain : Phrase → Bool
  | .unknown | .tape _ => false
  | _ => true

/-- A function body that is read declares no tape and has no line that is not understood. -/
theorem isPlain_of_readBody {pc : Nat} {opened : List Nat} {ps : List Phrase} {b : Body}
    (h : readBody pc opened ps = some b) : ∀ p ∈ ps, p.isPlain = true := by
  fun_induction readBody pc opened ps generalizing b with
  | case1 pc opened rest ih => exact List.forall_mem_cons.2 ⟨rfl, ih h⟩
  | case2 pc opened s rest ih =>
      obtain ⟨b', hrest, -⟩ := Option.map_eq_some_iff.1 h
      exact List.forall_mem_cons.2 ⟨rfl, ih hrest⟩
  | case3 pc opened rest ih =>
      obtain ⟨b', hrest, -⟩ := Option.map_eq_some_iff.1 h
      simp only [List.forall_mem_cons]
      exact ⟨rfl, rfl, rfl, ih hrest⟩
  | case4 pc opened rest ih =>
      obtain ⟨b', hrest, -⟩ := Option.map_eq_some_iff.1 h
      exact List.forall_mem_cons.2 ⟨rfl, ih hrest⟩
  | case5 pc => exact List.forall_mem_singleton.2 rfl
  | case6 => cases h
  | case7 pc rest start outer ih =>
      obtain ⟨b', hrest, -⟩ := Option.map_eq_some_iff.1 h
      exact List.forall_mem_cons.2 ⟨rfl, ih hrest⟩
  | case8 => cases h

/-- A text that is read as a program says headers, the head of the main function, the declaration of
the tape, and behind it nothing like the two. -/
theorem exists_lines_of_ofText? {text : String} {program : Program}
    (h : Program.ofText? text = some program) :
    ∃ headers tape rest, said text.toList = headers ++ mainHead :: tape :: rest ∧
      (∀ line ∈ headers, isHeader line = true) ∧ (∃ cells, phrase tape = .tape cells) ∧
      ∀ line ∈ rest, (phrase line).isPlain = true := by
  rw [ofText?_eq, Option.bind_eq_some_iff] at h
  obtain ⟨inside, hinside, hprogram⟩ := h
  obtain ⟨headers, hsaid, hheaders⟩ := exists_headers_of_insideMain? hinside
  cases inside with
  | nil => cases hprogram
  | cons tape rest =>
      rw [List.map_cons] at hprogram
      cases htape : phrase tape with
      | tape cells =>
          rw [htape, Program.ofPhrases?, Option.map_eq_some_iff] at hprogram
          obtain ⟨body, hbody, -⟩ := hprogram
          exact ⟨headers, tape, rest, hsaid, hheaders, ⟨cells, htape⟩,
            List.forall_mem_map.1 (isPlain_of_readBody hbody)⟩
      | _ =>
          rw [htape] at hprogram
          cases hprogram

theorem mainHead_notMem_headers {headers : List (List Char)}
    (h : ∀ line ∈ headers, isHeader line = true) : mainHead ∉ headers :=
  fun hmem => ne_mainHead_of_isHeader (h _ hmem) rfl

theorem mainHead_notMem_inside {tape : List Char} {cells : Nat} {rest : List (List Char)}
    (htape : phrase tape = .tape cells) (hrest : ∀ line ∈ rest, (phrase line).isPlain = true) :
    mainHead ∉ tape :: rest := by
  intro hmem
  rcases List.mem_cons.1 hmem with rfl | hmem
  · rw [phrase_mainHead] at htape
    cases htape
  · have hplain := hrest _ hmem
    rw [phrase_mainHead] at hplain
    cases hplain

/-! ## The declaration of the tape -/

theorem eq_append_of_numberBetween? {before behind : List Char} {n : Nat}
    (h : numberBetween? before behind line = some n) :
    ∃ digits, (∀ c ∈ digits, c.isDigit = true) ∧ line = before ++ (digits ++ behind) := by
  obtain ⟨rest, hrest, hnumber⟩ := Option.bind_eq_some_iff.1 h
  have hline := List.isPrefixOf?_eq_some_iff_append_eq.1 hrest
  dsimp only at hnumber
  split at hnumber
  next hdigits =>
    refine ⟨rest.takeWhile Char.isDigit, fun c hc => List.mem_takeWhile_imp hc, ?_⟩
    rw [← hdigits.2, List.takeWhile_append_dropWhile, hline]
  next => cases hnumber

/-- A line is understood as the declaration of the tape only if it is one. -/
theorem eq_append_of_phrase_tape {cells : Nat} (h : phrase line = .tape cells) :
    ∃ digits, (∀ c ∈ digits, c.isDigit = true) ∧
      line = "buffer := make([]byte, ".toList ++ (digits ++ ")".toList) := by
  have hfixed : ∀ e ∈ fixedPhrases, e.2.isPlain = true := by decide +kernel
  have hmeaning : ∀ e ∈ numberedPhrases.tail, ∀ n, e.2.2 n ≠ .tape cells := by
    have hmove (s : Statement) : Phrase.statement s ≠ .tape cells := by simp
    have hbyte (statement : UInt8 → Statement) (n : Nat) :
        bytePhrase statement n ≠ .tape cells := by
      unfold bytePhrase
      split <;> simp
    simp only [numberedPhrases, List.tail_cons, List.forall_mem_cons]
    exact ⟨fun _ => hmove _, fun _ => hmove _, hbyte _, hbyte _, List.forall_mem_nil _⟩
  unfold phrase at h
  split at h
  next p hlookup =>
    obtain ⟨earlier, later, htable, -⟩ := List.lookup_eq_some_iff.1 hlookup
    have hplain := hfixed (line, p) (by simp [htable])
    rw [h] at hplain
    cases hplain
  next =>
    rcases Option.getD_eq_iff.1 h with hfind | ⟨-, hunknown⟩
    · obtain ⟨⟨before, behind, meaning⟩, hmem, hline⟩ := List.exists_of_findSome?_eq_some hfind
      obtain ⟨n, hnumber, htape⟩ := Option.map_eq_some_iff.1 hline
      rcases List.mem_cons.1 hmem with heq | hmem
      · cases heq
        exact eq_append_of_numberBetween? hnumber
      · exact absurd htape (hmeaning _ hmem n)
    · cases hunknown

/-- A line that declares the tape behind something else is not understood so: the letter `b` stands
on such a line twice and is its first, so that nothing fits in front of it. -/
theorem eq_nil_of_phrase_append_tapeLine {start : List Char} {n cells : Nat}
    (h : phrase (start ++ tapeLine n) = .tape cells) : start = [] := by
  obtain ⟨digits, hdigits, hline⟩ := eq_append_of_phrase_tape h
  have hcount (ds : List Char) (hds : ∀ c ∈ ds, c.isDigit = true) :
      ("buffer := make([]byte, ".toList ++ (ds ++ ")".toList)).count 'b' = 2 := by
    have hzero : ds.count 'b' = 0 := List.count_eq_zero.2 fun hmem => by cases hds 'b' hmem
    rw [List.count_append, List.count_append, hzero]
    rfl
  have htape : (tapeLine n).count 'b' = 2 := by
    unfold tapeLine
    rw [List.append_assoc]
    exact hcount _ fun c hc => Nat.isDigit_of_mem_toDigits (by decide) (by decide) hc
  have htotal := congrArg (List.count 'b') hline
  rw [List.count_append, htape, hcount digits hdigits] at htotal
  cases start with
  | nil => rfl
  | cons c start =>
      have hbuffer : "buffer := make([]byte, ".toList =
          'b' :: "uffer := make([]byte, ".toList := rfl
      rw [hbuffer, List.cons_append, List.cons_append, List.cons.injEq] at hline
      rw [hline.1, List.count_cons_self] at htotal
      omega

/-! ## Legible settings -/

/-- The settings whose texts are read back. -/
structure Settings.Legible (settings : Settings) : Prop where
  /-- The indentation is made of tabs, blanks and line feeds. -/
  white : ∀ c ∈ settings.indent.toList, isWhite c = true
  /-- All lines of the name but the first are empty or headers. -/
  headers : ∀ line ∈ (Text.lineFeedPieces settings.packageName.toList).tail,
    line.dropWhile isBlank = [] ∨ isHeader (line.dropWhile isBlank) = true

instance (settings : Settings) : Decidable settings.Legible :=
  decidable_of_iff (settings.indent.toList.all isWhite = true ∧
      ∀ line ∈ (Text.lineFeedPieces settings.packageName.toList).tail,
        line.dropWhile isBlank = [] ∨ isHeader (line.dropWhile isBlank) = true)
    ⟨fun h => ⟨List.all_eq_true.1 h.1, h.2⟩, fun h => ⟨List.all_eq_true.2 h.1, h.2⟩⟩

theorem isHeader_package (name : List Char) : isHeader ("package ".toList ++ name) = true := by
  have hstart : "package ".toList.isPrefixOf ("package ".toList ++ name) = true :=
    List.isPrefixOf_iff_prefix.2 (List.prefix_append _ _)
  rw [isHeader, hstart, Bool.true_or]

/-- The package clause says headers exactly if the name in it is legible. -/
theorem forall_mem_said_packageClause_iff :
    (∀ line ∈ said (packageClause settings), isHeader line = true) ↔
      ∀ line ∈ (Text.lineFeedPieces settings.packageName.toList).tail,
        line.dropWhile isBlank = [] ∨ isHeader (line.dropWhile isBlank) = true := by
  obtain ⟨first, pieces, hname⟩ := Text.exists_lineFeedPieces_eq settings.packageName.toList
  have hclause : '\n' ∉ "package ".toList := by decide
  have hsaid : said (packageClause settings) = ("package ".toList ++ first) ::
      (pieces.map (·.dropWhile isBlank)).filter (· ≠ []) := by
    unfold said packageClause
    rw [Text.lineFeedPieces_line_append hclause hname]
    rfl
  rw [hsaid, hname, List.forall_mem_cons, List.tail_cons]
  simp only [isHeader_package, true_and, List.mem_filter, List.mem_map, decide_eq_true_eq]
  constructor
  · intro h line hline
    by_cases hnil : line.dropWhile isBlank = []
    · exact .inl hnil
    · exact .inr (h _ ⟨⟨line, hline, rfl⟩, hnil⟩)
  · rintro h _ ⟨⟨line, hline, rfl⟩, hne⟩
    exact (h line hline).resolve_left hne

/-- What a text says: its package clause, and its other lines with their indentation. -/
theorem said_renderLines (settings : Settings) (ops : List Op) :
    said (renderLines settings.indent (lines settings ops)).toList =
      said (packageClause settings) ++
        ((lines settings ops).tail.map (Line.indented settings.indent.toList)).flatMap said := by
  rw [renderLines, String.toList_ofList, flatMap_render, said_flatMap, lines_eq_cons, List.map_cons,
    List.flatMap_cons, List.tail_cons]
  rfl

theorem said_indented (hwhite : ∀ c ∈ settings.indent.toList, isWhite c = true)
    (hl : Clean l.content) :
    said (l.indented settings.indent.toList) = [l.content].filter (· ≠ []) := by
  rw [Line.indented, said_white_append (forall_mem_indentation hwhite _)]
  by_cases hne : l.content = []
  · simp [hne]
  · rw [said_of_clean hl hne]
    simp [hne]

/-- With white indentation the other lines say what stands on them. -/
theorem flatMap_said_indented (hwhite : ∀ c ∈ settings.indent.toList, isWhite c = true)
    {ls : List Line} (hls : ∀ l ∈ ls, Clean l.content) :
    (ls.map (Line.indented settings.indent.toList)).flatMap said =
      (ls.map (·.content)).filter (· ≠ []) := by
  induction ls with
  | nil => rfl
  | cons l ls ih =>
      obtain ⟨hl, hls⟩ := List.forall_mem_cons.1 hls
      rw [List.map_cons, List.flatMap_cons, said_indented hwhite hl, ih hls, List.map_cons,
        ← List.filter_append, List.singleton_append]

/-- A text with legible settings is read back. -/
theorem ofText?_of_legible {text : String} (hwrite : write settings ops = .ok text)
    (h : settings.Legible) :
    Program.ofText? text = some ⟨settings.tapeSize, ops.map statementOf, pairs ops⟩ := by
  obtain ⟨hcheck, rfl⟩ := write_eq_ok_iff.1 hwrite
  have hheaders := forall_mem_said_packageClause_iff.2 h.headers
  have hclause : ∀ line ∈ [packageClause settings], isHeader line = true :=
    List.forall_mem_singleton.2 (isHeader_package _)
  have hkept : [packageClause settings].filter (· ≠ []) = [packageClause settings] := rfl
  have hlines : Program.ofLines? ((lines settings ops).map (·.content)) =
      (insideMain? (((lines settings ops).tail.map (·.content)).filter (· ≠ []))).bind
        fun inside => Program.ofPhrases? (inside.map phrase) := by
    rw [Program.ofLines?, lines_eq_cons, List.map_cons, ← List.singleton_append,
      List.filter_append, hkept, insideMain?_headers hclause, List.tail_cons]
  rw [ofText?_eq, said_renderLines, insideMain?_headers hheaders,
    flatMap_said_indented h.white (clean_tail_lines settings ops), ← hlines,
    ofLines?_lines (check_eq_ok_iff.1 hcheck).2]

/-- In every text two lines that are indented once follow the head of the main function. -/
theorem exists_tail_lines_eq (settings : Settings) (ops : List Op) :
    ∃ earlier later, (lines settings ops).tail = earlier ++ ⟨0, mainHead⟩ ::
      ⟨1, tapeLine settings.tapeSize⟩ :: ⟨1, "ptr := 0".toList⟩ :: later := by
  have hdeclarations : declarations (.of ops) =
      ⟨1, "ptr := 0".toList⟩ :: (declarations (.of ops)).tail := rfl
  refine ⟨⟨0, []⟩ :: imports (.of ops),
    (declarations (.of ops)).tail ++ (body (.of ops) 1 ops ++ epilogue), ?_⟩
  unfold mainHead
  rw [tail_lines, preamble_eq, List.tail_cons, hdeclarations]
  simp only [List.cons_append, List.append_assoc, List.tail_cons]

/-- What every text says: behind the head of the main function stands the declaration of the tape,
with what the indentation says in front of it, and what the indentation says comes once more. -/
theorem exists_said_eq {indented : List (List Char)} {start : List Char}
    (h : ∀ content, Clean content → content ≠ [] →
      said (settings.indent.toList ++ content) = indented ++ [start ++ content]) (ops : List Op) :
    ∃ front later, said (renderLines settings.indent (lines settings ops)).toList =
      (said (packageClause settings) ++ front) ++ mainHead ::
        (indented ++ (start ++ tapeLine settings.tapeSize) :: (indented ++ later)) := by
  obtain ⟨earlier, rest, htail⟩ := exists_tail_lines_eq settings ops
  have honce {content : List Char} (hclean : Clean content) (hne : content ≠ []) :
      said (Line.indented settings.indent.toList ⟨1, content⟩) =
        indented ++ [start ++ content] := by
    rw [Line.indented, List.replicate_one, List.flatten_singleton, h content hclean hne]
  have hmain : said (Line.indented settings.indent.toList ⟨0, mainHead⟩) = [mainHead] := by
    rw [Line.indented, List.replicate_zero, List.flatten_nil, List.nil_append]
    exact said_of_clean (by decide) (by decide)
  have htape := honce (clean_tapeLine settings.tapeSize) (List.cons_ne_nil 'b' _)
  have hptr := @honce "ptr := 0".toList (by decide) (by decide)
  refine ⟨(earlier.map (Line.indented settings.indent.toList)).flatMap said,
    (start ++ "ptr := 0".toList) :: (rest.map (Line.indented settings.indent.toList)).flatMap said,
    ?_⟩
  rw [said_renderLines, htail, List.map_append, List.map_cons, List.map_cons, List.map_cons,
    List.flatMap_append, List.flatMap_cons, List.flatMap_cons, List.flatMap_cons, hmain, htape,
    hptr]
  simp only [List.append_assoc, List.singleton_append]

/-- Settings with which a text is read back are legible. -/
theorem legible_of_ofText? {text : String} (hwrite : write settings ops = .ok text)
    {program : Program} (h : Program.ofText? text = some program) : settings.Legible := by
  obtain ⟨-, rfl⟩ := write_eq_ok_iff.1 hwrite
  obtain ⟨headers, tape, rest, hsaid, hheaders, ⟨cells, htape⟩, hrest⟩ := exists_lines_of_ofText? h
  obtain ⟨indented, start, hwhite, hstart⟩ := exists_said_append settings.indent.toList
  obtain ⟨front, later, hlines⟩ := exists_said_eq hstart ops
  -- the head of the main function is said once, so it divides what is said as it does the lines
  obtain ⟨hfront, -, hinside⟩ := (List.append_cons_inj_of_notMem
    (mainHead_notMem_headers hheaders) (mainHead_notMem_inside htape hrest)).1
      (hsaid.symm.trans hlines)
  refine ⟨?_, forall_mem_said_packageClause_iff.1 fun line hline =>
    hheaders line (hfront ▸ List.mem_append_left _ hline)⟩
  cases indented with
  | nil =>
      rw [List.nil_append, List.cons.injEq] at hinside
      rw [hinside.1] at htape
      exact hwhite rfl (eq_nil_of_phrase_append_tapeLine htape)
  | cons line indented =>
      -- a line of the indentation would declare the tape, and would do it again
      rw [List.cons_append, List.cons.injEq] at hinside
      have hplain := hrest line (by simp [hinside.2])
      rw [← hinside.1, htape] at hplain
      cases hplain

/-- A text whose settings are not legible is not read back. -/
theorem ofText?_of_not_legible {text : String} (hwrite : write settings ops = .ok text)
    (h : ¬ settings.Legible) : Program.ofText? text = none :=
  Option.eq_none_iff_forall_ne_some.2 fun _ hprogram => h (legible_of_ofText? hwrite hprogram)

end Brainfuck.Go
