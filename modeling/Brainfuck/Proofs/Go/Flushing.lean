import Mathlib.Data.List.Infix
import Brainfuck.Proofs.Go.Reader
import Brainfuck.Proofs.Machine.Flushing

/-!
# Output is flushed before input is awaited, in the Go text too

A Go program that writes at all flushes its output on the line before each read, as the machine
flushes before each read call.  The indentation and the name of the package are free texts: a line
feed in the one, or a mention of reading or writing in either, puts other lines between those of
the program.

* `Go.FlushesBeforeReads` — the property of the lines of a text.
* `Go.flushesBeforeReads_lines` — the lines behind the package clause have it, in every setting.
* `Go.Settings.Unobtrusive`, `Go.flushesBeforeReads_of_write` — the text has it when the indentation
  breaks no line and does not mention what its lines do not.
* `Go.flushed_before_reads` — together with what the machine does.
* `Go.obtrusive_settings` — no part of the condition can be left out.
-/

namespace Brainfuck.Go

open Machine

variable {word text line before behind : List Char} {use : Channels} {level : Nat} {op : Op}
  {ops : List Op} {settings : Settings}

/-! ## What a line mentions -/

/-- Reading from standard input. -/
def stdinRead : List Char := "os.Stdin.Read".toList

/-- Writing a byte to the buffered output. -/
def byteWrite : List Char := "out.WriteByte".toList

/-- The line that flushes the buffered output. -/
def flushLine : List Char := "out.Flush()".toList

/-- Is there no capital on a line? -/
def lower (line : List Char) : Bool := line.all fun c => !c.isUpper

/-- A line without capitals does not mention a word that has one. -/
theorem not_infix_of_lower (hword : lower word = false) (hline : lower line = true) :
    ¬ word <:+: line := by
  intro h
  have hlower : lower word = true := by
    rw [lower, List.all_eq_true]
    intro c hc
    exact List.all_eq_true.1 hline c (h.subset hc)
  rw [hword] at hlower
  cases hlower

theorem lower_toDigits (n : Nat) : lower (Nat.toDigits 10 n) = true := by
  rw [lower, List.all_eq_true]
  intro c hc
  rw [Bool.not_eq_true', Bool.eq_false_iff]
  intro hupper
  have hdigit := Nat.isDigit_of_mem_toDigits (by decide) (by decide) hc
  have hleast : 'A'.val ≤ c.val := (of_decide_eq_true hupper).1
  have hmost : c.val ≤ '9'.val := of_decide_eq_true (Bool.and_eq_true_iff.1 hdigit).2
  exact absurd (UInt32.le_trans hleast hmost) (by decide)

theorem lower_append (before behind : List Char) :
    lower (before ++ behind) = (lower before && lower behind) := List.all_append

theorem lower_numbered (hbefore : lower before = true) (n : Nat) (hbehind : lower behind = true) :
    lower (before ++ Nat.toDigits 10 n ++ behind) = true := by
  rw [lower_append, lower_append, hbefore, hbehind, lower_toDigits]
  rfl

/-- No capital stands on the line of a run. -/
theorem lower_run {kind : RunKind} {n : UInt32} :
    ∀ l ∈ opLines use level (.run kind n), lower l.content = true := by
  cases kind with
  | right =>
      rw [opLines, List.forall_mem_singleton, lower_append, lower_toDigits]
      rfl
  | left =>
      rw [opLines, List.forall_mem_singleton, lower_append, lower_toDigits]
      rfl
  | inc =>
      rw [opLines, List.forall_mem_singleton]
      exact lower_numbered rfl _ rfl
  | dec =>
      rw [opLines, List.forall_mem_singleton]
      exact lower_numbered rfl _ rfl

/-- Only a read mentions reading. -/
theorem not_infix_read (hop : op ≠ .input) :
    ∀ l ∈ opLines use level op, ¬ stdinRead <:+: l.content := by
  cases op with
  | run kind n =>
      intro l hl
      exact not_infix_of_lower rfl (lower_run l hl)
  | input => exact absurd rfl hop
  | _ => exact List.forall_mem_singleton.2 (by dsimp only; decide)

/-- Only an output mentions writing. -/
theorem not_infix_write (hop : op ≠ .output) :
    ∀ l ∈ opLines use level op, ¬ byteWrite <:+: l.content := by
  cases op with
  | run kind n =>
      intro l hl
      exact not_infix_of_lower rfl (lower_run l hl)
  | output => exact absurd rfl hop
  | input =>
      rw [opLines, List.forall_mem_append]
      constructor
      · cases use.writes with
        | false => exact List.forall_mem_nil _
        | true => exact List.forall_mem_singleton.2 (by dsimp only; decide)
      · simp only [List.forall_mem_cons]
        refine ⟨?_, ?_, ?_, List.forall_mem_nil _⟩
        all_goals decide
  | _ => exact List.forall_mem_singleton.2 (by dsimp only; decide)

/-- Between the package clause and the operations neither is mentioned. -/
theorem not_infix_preamble (hword : word = stdinRead ∨ word = byteWrite) :
    ∀ l ∈ (preamble settings use).tail, ¬ word <:+: l.content := by
  have htape : ¬ word <:+: tapeLine settings.tapeSize := by
    refine not_infix_of_lower ?_ (lower_numbered rfl _ rfl)
    rcases hword with rfl | rfl <;> rfl
  rw [preamble_eq, List.tail_cons]
  obtain ⟨writes, reads⟩ := use
  rcases hword with rfl | rfl
  all_goals
    refine List.forall_mem_cons.2 ⟨by decide, List.forall_mem_append.2 ⟨?_, List.forall_mem_cons.2
      ⟨by decide, List.forall_mem_cons.2 ⟨htape, ?_⟩⟩⟩⟩
    · cases writes <;> cases reads <;> decide
    · cases writes <;> cases reads <;> decide

theorem not_infix_epilogue (hword : word = stdinRead ∨ word = byteWrite) :
    ∀ l ∈ epilogue, ¬ word <:+: l.content := by
  rcases hword with rfl | rfl <;> decide

/-! ## Flushing before reading -/

section Guarded

variable {α β : Type} {reads flushes : α → Prop} {reads' flushes' : β → Prop} {ls ms : List α}

/-- Every member of a list that reads stands right behind one that flushes. -/
def Guarded (reads flushes : α → Prop) (ls : List α) : Prop :=
  ∀ before a after, ls = before ++ a :: after → reads a →
    ∃ earlier last, before = earlier ++ [last] ∧ flushes last

theorem guarded_of_not_reads (h : ∀ a ∈ ls, ¬ reads a) : Guarded reads flushes ls := by
  rintro before a after rfl ha
  exact absurd ha (h a (by simp))

theorem Guarded.append (hls : Guarded reads flushes ls) (hms : Guarded reads flushes ms) :
    Guarded reads flushes (ls ++ ms) := by
  intro before a after h ha
  rcases List.append_eq_append_iff.1 h with ⟨rest, rfl, hrest⟩ | ⟨rest, rfl, hrest⟩
  · obtain ⟨earlier, last, rfl, hlast⟩ := hms rest a after hrest ha
    exact ⟨ls ++ earlier, last, (List.append_assoc ..).symm, hlast⟩
  · cases rest with
    | nil =>
        obtain ⟨earlier, last, hnil, -⟩ := hms [] a after hrest.symm ha
        simp at hnil
    | cons first rest =>
        obtain ⟨rfl, -⟩ := List.cons.inj hrest
        exact hls before a rest rfl ha

theorem guarded_pair {last a : α} (hreads : ¬ reads last) (hflushes : flushes last) :
    Guarded reads flushes [last, a] := by
  intro before a' after h ha'
  rcases List.cons_eq_append_iff.1 h with ⟨rfl, hcons⟩ | ⟨rest, rfl, hrest⟩
  · cases hcons
    exact absurd ha' hreads
  · obtain ⟨rfl, -⟩ | ⟨-, hnil⟩ := List.singleton_eq_append_iff.1 hrest
    · exact ⟨[], last, rfl, hflushes⟩
    · cases hnil

/-- Members that read only where those they are made of do are guarded as those are. -/
theorem Guarded.map (h : Guarded reads flushes ls) {f : α → β}
    (hreads : ∀ a ∈ ls, reads' (f a) → reads a) (hflushes : ∀ a, flushes a → flushes' (f a)) :
    Guarded reads' flushes' (ls.map f) := by
  intro before b after hsplit hb
  obtain ⟨earlier, rest, rfl, rfl, hrest⟩ := List.map_eq_append_iff.1 hsplit
  obtain ⟨a, later, rfl, rfl, -⟩ := List.map_eq_cons_iff.1 hrest
  obtain ⟨earlier, last, rfl, hlast⟩ := h earlier a later rfl (hreads a (by simp) hb)
  exact ⟨earlier.map f, f last, by simp, hflushes last hlast⟩

/-- A member that reads is not guarded if it stands first, or behind one that does not flush. -/
theorem not_guarded {before after : List α} {a : α} (ha : reads a)
    (hlast : ∀ last ∈ before.getLast?, ¬ flushes last) :
    ¬ Guarded reads flushes (before ++ a :: after) := by
  intro h
  obtain ⟨earlier, last, rfl, hflushes⟩ := h before a after rfl ha
  exact hlast last (by simp) hflushes

end Guarded

/-- If a line mentions writing, every line that mentions reading stands right behind a line that
flushes. -/
def FlushesBeforeReads (flushes : List Char → Prop) (ls : List (List Char)) : Prop :=
  (∃ line ∈ ls, byteWrite <:+: line) → Guarded (stdinRead <:+: ·) flushes ls

/-- The lines whose content mentions reading are guarded by lines that flush. -/
def GuardedLines (ls : List Line) : Prop :=
  Guarded (fun l => stdinRead <:+: l.content) (fun l => l.content = flushLine) ls

/-- An operation's lines flush before they read, in a program that writes. -/
theorem guardedLines_opLines (hwrites : use.writes = true) :
    GuardedLines (opLines use level op) := by
  by_cases hop : op = .input
  · subst hop
    rw [opLines, hwrites]
    have hpair : GuardedLines
        [⟨level, flushLine⟩, ⟨level, "if n, _ := os.Stdin.Read(b); n == 1 \x7b".toList⟩] :=
      guarded_pair (by dsimp only; decide) rfl
    have hrest : GuardedLines
        [⟨level + 1, "buffer[ptr] = b[0]".toList⟩, ⟨level, "\x7d".toList⟩] := by
      refine guarded_of_not_reads (List.forall_mem_cons.2 ⟨?_, List.forall_mem_singleton.2 ?_⟩)
      all_goals
        dsimp only
        decide
    exact hpair.append hrest
  · exact guarded_of_not_reads (not_infix_read hop)

theorem guardedLines_body (hwrites : use.writes = true) : GuardedLines (body use level ops) := by
  induction ops generalizing level with
  | nil => exact guarded_of_not_reads (List.forall_mem_nil _)
  | cons op ops ih =>
      rw [body]
      exact (guardedLines_opLines hwrites).append ih

/-- The lines of a program without outputs do not mention writing. -/
theorem not_infix_body (hops : .output ∉ ops) :
    ∀ l ∈ body use level ops, ¬ byteWrite <:+: l.content := by
  apply forall_mem_body
  intro op hop level
  apply not_infix_write
  rintro rfl
  exact hops hop

/-- The lines behind the package clause are guarded, if one of them mentions writing. -/
theorem guardedLines_lines
    (h : ∃ l ∈ (lines settings ops).tail, byteWrite <:+: l.content) :
    GuardedLines (lines settings ops).tail := by
  obtain ⟨l, hl, hwrite⟩ := h
  rw [tail_lines] at hl ⊢
  have hwrites : (Channels.of ops).writes = true := by
    by_cases hops : Op.output ∈ ops
    · simpa [Channels.of] using hops
    · rcases List.mem_append.1 hl with hl | hl
      · rcases List.mem_append.1 hl with hl | hl
        · exact absurd hwrite (not_infix_preamble (.inr rfl) l hl)
        · exact absurd hwrite (not_infix_body hops l hl)
      · exact absurd hwrite (not_infix_epilogue (.inr rfl) l hl)
  exact ((guarded_of_not_reads (not_infix_preamble (.inl rfl))).append
    (guardedLines_body hwrites)).append (guarded_of_not_reads (not_infix_epilogue (.inl rfl)))

/-- The lines behind the package clause flush before they read. -/
theorem flushesBeforeReads_lines (settings : Settings) (ops : List Op) :
    FlushesBeforeReads (· = flushLine) ((lines settings ops).tail.map (·.content)) := by
  rintro ⟨line, hline, hwrite⟩
  obtain ⟨l, hl, rfl⟩ := List.mem_map.1 hline
  exact (guardedLines_lines ⟨l, hl, hwrite⟩).map (fun _ _ h => h) fun _ h => h

/-! ## The text -/

/-- The indentation of a program breaks no line, and no line mentions a word of `words` through it
that does not stand on the line itself. -/
structure Settings.Unobtrusive (settings : Settings) (words : List (List Char)) (ops : List Op) :
    Prop where
  oneLine : '\n' ∉ settings.indent.toList
  silent : ∀ word ∈ words, ∀ l ∈ lines settings ops,
    word <:+: l.indented settings.indent.toList → word <:+: l.content

/-- A word whose first letter is not in front of it stands behind. -/
theorem infix_of_infix_append {c : Char} (hc : c ∉ before)
    (h : c :: word <:+: before ++ behind) : c :: word <:+: behind := by
  induction before with
  | nil => exact h
  | cons d before ih =>
      rw [List.mem_cons, not_or] at hc
      rcases List.infix_cons_iff.1 h with h | h
      · exact absurd (List.cons_prefix_cons.1 h).1 hc.1
      · exact ih hc.2 h

/-- An indentation without line feeds and without the first letter of each word is unobtrusive. -/
theorem Settings.unobtrusive_of_notMem {words : List (List Char)}
    (hnewline : '\n' ∉ settings.indent.toList)
    (hwords : ∀ word ∈ words, ∃ c rest, word = c :: rest ∧ c ∉ settings.indent.toList)
    (ops : List Op) : settings.Unobtrusive words ops := by
  refine ⟨hnewline, fun word hword l _ h => ?_⟩
  obtain ⟨c, rest, rfl, hc⟩ := hwords word hword
  refine infix_of_infix_append (fun hmem => ?_) h
  exact forall_mem_indentation (P := (· ≠ c)) (fun d hd => ne_of_mem_of_not_mem hd hc) _ _ hmem rfl

/-- A flush at some level of indentation. -/
def IndentedFlush (indent line : List Char) : Prop :=
  ∃ level, line = (List.replicate level indent).flatten ++ flushLine

/-- The lines of a text are those of its package clause, and behind them the others. -/
theorem lineFeedPieces_of_write {text : String} (hwrite : write settings ops = .ok text)
    (hindent : '\n' ∉ settings.indent.toList) :
    Text.lineFeedPieces text.toList = Text.lineFeedPieces (packageClause settings) ++
      ((lines settings ops).tail.map (Line.indented settings.indent.toList) ++ [[]]) := by
  have hclause : Line.render settings.indent.toList ⟨0, packageClause settings⟩ =
      packageClause settings ++ ['\n'] := rfl
  obtain ⟨-, rfl⟩ := write_eq_ok_iff.1 hwrite
  rw [renderLines, String.toList_ofList, lines_eq_cons, List.flatMap_cons, hclause,
    List.append_assoc, List.singleton_append, Text.lineFeedPieces_append,
    lineFeedPieces_render hindent (clean_tail_lines settings ops), List.tail_cons]

/-- A text whose indentation is unobtrusive flushes before it reads, behind its package clause. -/
theorem flushesBeforeReads_of_unobtrusive
    (h : settings.Unobtrusive [stdinRead, byteWrite] ops) :
    FlushesBeforeReads (IndentedFlush settings.indent.toList)
      ((lines settings ops).tail.map (Line.indented settings.indent.toList) ++ [[]]) := by
  have hmention (word) (hword : word ∈ [stdinRead, byteWrite]) (l)
      (hl : l ∈ (lines settings ops).tail) :=
    h.silent word hword l (List.mem_of_mem_tail hl)
  rintro ⟨line, hline, hwrite⟩
  have hline : ∃ l ∈ (lines settings ops).tail, byteWrite <:+: l.content := by
    rcases List.mem_append.1 hline with hline | hline
    · obtain ⟨l, hl, rfl⟩ := List.mem_map.1 hline
      exact ⟨l, hl, hmention byteWrite (by simp) l hl hwrite⟩
    · rw [List.mem_singleton.1 hline] at hwrite
      exact absurd hwrite (by decide)
  refine Guarded.append ?_ (guarded_of_not_reads (by decide))
  exact (guardedLines_lines hline).map (hmention stdinRead (by simp))
    fun l hl => ⟨l.level, hl ▸ rfl⟩

/-- A word without blanks that a line of the package clause mentions stands in the name, unless the
clause mentions it under every name. -/
theorem infix_of_mem_packageClause (hblank : ' ' ∉ word) (hclause : ¬ word <:+: "package ".toList)
    (hline : line ∈ Text.lineFeedPieces (packageClause settings)) (h : word <:+: line) :
    word <:+: settings.packageName.toList := by
  have hword := h.trans ((Text.infix_of_mem_lineFeedPieces _).2 line hline)
  rcases List.infix_append_iff_ne_nil.1 hword with
    hword | hword | ⟨start, rest, hstart, -, rfl, hsuffix, -⟩
  · exact absurd hword hclause
  · exact hword
  · -- a word that starts in the clause and goes on in the name has the blank between them
    obtain ⟨before, hbefore⟩ := hsuffix
    obtain ⟨start, last, rfl⟩ := (List.eq_nil_or_concat start).resolve_left hstart
    have hlast : last = ' ' := by
      have hcut : (before ++ start) ++ [last] = "package".toList ++ [' '] := by
        rw [List.append_assoc, ← List.concat_eq_append, hbefore]
        rfl
      exact List.head_eq_of_cons_eq (List.append_inj_right' hcut rfl)
    rw [hlast] at hblank
    exact absurd (by simp) hblank

/-- A whole text flushes before it reads, if the name of its package mentions neither. -/
theorem flushesBeforeReads_of_write {text : String} (hwrite : write settings ops = .ok text)
    (h : settings.Unobtrusive [stdinRead, byteWrite] ops)
    (hread : ¬ stdinRead <:+: settings.packageName.toList)
    (hbyte : ¬ byteWrite <:+: settings.packageName.toList) :
    FlushesBeforeReads (IndentedFlush settings.indent.toList)
      (Text.lineFeedPieces text.toList) := by
  rw [lineFeedPieces_of_write hwrite h.oneLine]
  rintro ⟨line, hline, hmention⟩
  have hpackage : Guarded (stdinRead <:+: ·) (IndentedFlush settings.indent.toList)
      (Text.lineFeedPieces (packageClause settings)) :=
    guarded_of_not_reads fun line hline h =>
      hread (infix_of_mem_packageClause (by decide) (by decide) hline h)
  refine hpackage.append (flushesBeforeReads_of_unobtrusive h ⟨line, ?_, hmention⟩)
  rcases List.mem_append.1 hline with hline | hline
  · exact absurd (infix_of_mem_packageClause (by decide) (by decide) hline hmention) hbyte
  · exact hline

/-- **Output is flushed before input is awaited.**  At every moment of a run, each read call of the
log stands right behind a flush that was not refused, at a console all of whose output is flushed; a
run that comes to its end does so with such a flush; a run has flushed as often as it has read, once
more if it came to the end of the program, and once more if a flush before a read was refused.
Of the lines that are written for a program, each that reads stands right behind one that flushes,
if any line writes.  So it is in the text, behind its package clause, when the indentation breaks no
line and mentions nothing that its lines do not, and in all of it when the name of the package
mentions neither reading nor writing. -/
theorem flushed_before_reads :
    (∀ m ops around n before after,
      (standing m ops around n).snapshot.console.calls.toList = before ++ .read :: after →
        (∃ earlier, before = earlier ++ [.flush] ∧ ¬ around.Refuses earlier .flush) ∧
          ∃ k < n, ∃ c, ReadAt m ops around k c before) ∧
    (∀ m ops around n s, standing m ops around n = .next s →
      s.console.calls.toList.count .flush = s.console.calls.toList.count .read) ∧
    (∀ fuel m ops around report, run fuel m ops around = some report →
      (report.fault? = none → ∃ earlier, report.console.calls.toList = earlier ++ [.flush] ∧
        ¬ around.Refuses earlier .flush ∧
        report.console.flushes.back? = some report.console.output.size) ∧
      ∃ ip, standing m ops around fuel = .stop report.fault? ⟨ip, report.machine, report.console⟩ ∧
        report.console.calls.toList.count .flush = report.console.calls.toList.count .read +
          (if ops.length ≤ ip then 1 else 0) +
          if report.fault? = some (.refused (around.refusal .flush)) ∧ ip < ops.length then 1
            else 0) ∧
    ∀ (settings : Settings) (ops : List Op) (text : String), write settings ops = .ok text →
      text = renderLines settings.indent (lines settings ops) ∧
      FlushesBeforeReads (· = flushLine) ((lines settings ops).tail.map (·.content)) ∧
      (settings.Unobtrusive [stdinRead, byteWrite] ops →
        (∃ behind, Text.lineFeedPieces text.toList =
            Text.lineFeedPieces (packageClause settings) ++ behind ∧
          FlushesBeforeReads (IndentedFlush settings.indent.toList) behind) ∧
        (¬ stdinRead <:+: settings.packageName.toList →
          ¬ byteWrite <:+: settings.packageName.toList →
          FlushesBeforeReads (IndentedFlush settings.indent.toList)
            (Text.lineFeedPieces text.toList))) := by
  refine ⟨?_, ?_, ?_, ?_⟩
  · intro m ops around n before after hcalls
    obtain ⟨k, hk, c, hread⟩ := exists_readAt hcalls
    exact ⟨hread.exists_flush, k, hk, c, hread⟩
  · intro m ops around n s hs
    exact count_flush_of_next hs
  · intro fuel m ops around report hrun
    obtain ⟨ip, hstop⟩ := standing_of_run hrun
    exact ⟨flushed_of_ended hrun, ip, hstop, count_flush_of_stop hstop⟩
  · intro settings ops text hwrite
    refine ⟨(write_eq_ok_iff.1 hwrite).2, flushesBeforeReads_lines settings ops, fun h => ⟨?_, ?_⟩⟩
    · exact ⟨_, lineFeedPieces_of_write hwrite h.oneLine, flushesBeforeReads_of_unobtrusive h⟩
    · exact flushesBeforeReads_of_write hwrite h

/-- A program that copies one byte: its read call is made behind the first flush, and of the lines
of its text, which are indented with tabs, the one that reads stands behind one that flushes. -/
theorem flushed_before_reads_copying :
    (∃ c, ReadAt (ofSettings ⟨1, none⟩) [.input, .output] { input := #[65] } 0 c [.flush]) ∧
      (Settings.Unobtrusive {} [stdinRead, byteWrite] [.input, .output]) ∧
      ∃ text, write {} [.input, .output] = .ok text ∧
        FlushesBeforeReads (IndentedFlush ['\t']) (Text.lineFeedPieces text.toList) := by
  obtain ⟨hreads, -, -, htext⟩ := flushed_before_reads
  have hwrite : write {} [.input, .output] = .ok (renderLines "\t" (lines {} [.input, .output])) :=
    write_eq_ok_iff.2 ⟨rfl, rfl⟩
  have hunobtrusive : Settings.Unobtrusive {} [stdinRead, byteWrite] [.input, .output] := by
    refine Settings.unobtrusive_of_notMem (by decide) ?_ _
    simp only [List.forall_mem_cons]
    exact ⟨⟨_, _, rfl, by decide⟩, ⟨_, _, rfl, by decide⟩, List.forall_mem_nil _⟩
  refine ⟨?_, hunobtrusive, _, hwrite,
    ((htext _ _ _ hwrite).2.2 hunobtrusive).2 (by decide) (by decide)⟩
  obtain ⟨-, k, hk, c, hread⟩ := hreads (ofSettings ⟨1, none⟩) [.input, .output]
    { input := #[65] } 1 [.flush] [] (by cbv)
  cases Nat.lt_one_iff.1 hk
  exact ⟨c, hread⟩

/-! ## Settings that come between -/

/-- A text is written in which a line mentions writing and one that mentions reading does not stand
right behind one that mentions the flush. -/
def Settings.Obtrudes (settings : Settings) (ops : List Op) : Prop :=
  ∃ text, write settings ops = .ok text ∧
    ¬ FlushesBeforeReads (flushLine <:+: ·) (Text.lineFeedPieces text.toList)

theorem Settings.obtrudes_of_getElem? (hcheck : check ops = .ok ()) {ls : List (List Char)}
    (hls : Text.lineFeedPieces ((lines settings ops).flatMap (Line.render settings.indent.toList)) =
      ls) (k : Nat)
    (h : (∃ line ∈ ls, byteWrite <:+: line) ∧ (∃ line ∈ ls[k]?, stdinRead <:+: line) ∧
      ∀ last ∈ (ls.take k).getLast?, ¬ flushLine <:+: last) :
    settings.Obtrudes ops := by
  obtain ⟨hwrite, ⟨line, hline, hread⟩, hlast⟩ := h
  refine ⟨_, write_eq_ok_iff.2 ⟨hcheck, rfl⟩, fun hflushes => ?_⟩
  rw [renderLines, String.toList_ofList, hls] at hflushes
  obtain ⟨hk, rfl⟩ := List.getElem?_eq_some_iff.1 hline
  have hsplit : ls = ls.take k ++ ls[k] :: ls.drop (k + 1) := by simp
  have hguarded := hflushes hwrite
  rw [hsplit] at hguarded
  exact not_guarded hread hlast hguarded

/-- A line feed in the indentation parts a read from its flush, and an indentation or a name that
mentions reading or writing does what no operation of the program does. -/
theorem obtrusive_settings :
    Settings.Obtrudes { indent := "\n" } [.output, .input] ∧
      Settings.Obtrudes { indent := "os.Stdin.Read" } [.output] ∧
      Settings.Obtrudes { indent := "out.WriteByte" } [.input] ∧
      Settings.Obtrudes { packageName := "os.Stdin.Read" } [.output] ∧
      Settings.Obtrudes { packageName := "out.WriteByte" } [.input] := by
  refine ⟨?_, ?_, ?_, ?_, ?_⟩
  · exact Settings.obtrudes_of_getElem? rfl rfl 25 (by decide +kernel)
  · exact Settings.obtrudes_of_getElem? rfl rfl 3 (by decide +kernel)
  · exact Settings.obtrudes_of_getElem? rfl rfl 10 (by decide +kernel)
  · exact Settings.obtrudes_of_getElem? rfl rfl 0 (by decide +kernel)
  · exact Settings.obtrudes_of_getElem? rfl rfl 10 (by decide +kernel)

end Brainfuck.Go
