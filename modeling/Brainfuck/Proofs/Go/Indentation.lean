import Brainfuck.Proofs.Go.Reader

/-!
# Indentation shows the blocks

The depth of a line is counted from the texts alone: a line that is a closing bracket lies one
less deep than what stands before it, and what stands behind a line that ends in an opening
bracket lies one deeper.  The Go that is written is indented by that depth, line by line.

* `Go.depthOn`, `Go.depthBehind`, `Go.depthAfter` — the depth on a line, behind it, and behind
  some lines.
* `Go.layout` — goes through lines, with their levels, as long as the level is the depth.
* `Go.layout_body` — the lines of balanced operations are laid out, nowhere less deep than the
  inside of the main function.
* `Go.indented_by_depth` — so is the whole text; and it has one loop head for each open bracket.
-/

namespace Brainfuck.Go

open Loops

variable {low level : Nat} {depth : Int} {use : Channels} {op : Op} {ops : List Op} {l : Line}
  {ls ms : List Line} {settings : Settings} {content before behind : List Char}

/-! ## Depth -/

/-- Is a line, without its indentation, a closing bracket? -/
def closes (content : List Char) : Bool := content == "\x7d".toList || content == ")".toList

/-- Does a line end in an opening bracket? -/
def opens (content : List Char) : Bool := content.getLast?.any fun c => c == '\x7b' || c == '('

/-- The depth on a line that stands behind lines of depth `depth`. -/
def depthOn (depth : Int) (content : List Char) : Int :=
  if closes content then depth - 1 else depth

/-- The depth behind that line. -/
def depthBehind (depth : Int) (content : List Char) : Int :=
  if opens content then depthOn depth content + 1 else depthOn depth content

/-- The depth behind lines, the first of which stands at `depth`. -/
def depthAfter (depth : Int) (contents : List (List Char)) : Int := contents.foldl depthBehind depth

/-- The depth behind lines whose levels are the depths on them, none of them below `low`. -/
def layout (low : Nat) (depth : Int) : List Line → Option Int
  | [] => some depth
  | l :: rest =>
      if low ≤ l.level ∧ depthOn depth l.content = l.level then
        layout low (depthBehind depth l.content) rest
      else none

theorem layout_cons (hlow : low ≤ l.level) (hdepth : depthOn depth l.content = l.level) :
    layout low depth (l :: ls) = layout low (depthBehind depth l.content) ls :=
  if_pos ⟨hlow, hdepth⟩

theorem of_layout_cons {d : Int} (h : layout low depth (l :: ls) = some d) :
    low ≤ l.level ∧ depthOn depth l.content = l.level ∧
      layout low (depthBehind depth l.content) ls = some d := by
  by_cases hl : low ≤ l.level ∧ depthOn depth l.content = l.level
  · rw [layout_cons hl.1 hl.2] at h
    exact ⟨hl.1, hl.2, h⟩
  · rw [layout, if_neg hl] at h
    cases h

theorem layout_append (low : Nat) (depth : Int) (ls ms : List Line) :
    layout low depth (ls ++ ms) = (layout low depth ls).bind fun d => layout low d ms := by
  induction ls generalizing depth with
  | nil => rfl
  | cons l ls ih =>
      rw [List.cons_append, layout, layout]
      split
      · exact ih _
      · rfl

/-- Lines that keep above a bound keep above a lower one. -/
theorem layout_mono {low' : Nat} (hle : low' ≤ low) {d : Int} (h : layout low depth ls = some d) :
    layout low' depth ls = some d := by
  induction ls generalizing depth with
  | nil => exact h
  | cons l ls ih =>
      obtain ⟨hlow, hdepth, hrest⟩ := of_layout_cons h
      rw [layout_cons (Nat.le_trans hle hlow) hdepth, ih hrest]

theorem depthAfter_of_layout {d : Int} (h : layout low depth ls = some d) :
    depthAfter depth (ls.map (·.content)) = d := by
  induction ls generalizing depth with
  | nil => exact Option.some.inj h
  | cons l ls ih => exact ih (of_layout_cons h).2.2

/-- Every line that is laid out has the depth on it for its level. -/
theorem level_of_layout {d : Int} (h : layout low depth (ls ++ l :: ms) = some d) :
    low ≤ l.level ∧ depthOn (depthAfter depth (ls.map (·.content))) l.content = l.level := by
  rw [layout_append] at h
  obtain ⟨e, he, hrest⟩ := Option.bind_eq_some_iff.1 h
  obtain ⟨hlow, hdepth, -⟩ := of_layout_cons hrest
  rw [depthAfter_of_layout he]
  exact ⟨hlow, hdepth⟩

/-! ## The lines of the operations -/

theorem depthOn_of_not_closes (h : closes content = false) : depthOn depth content = depth := by
  rw [depthOn, h, if_neg Bool.false_ne_true]

/-- A line that opens and closes nothing leaves the depth as it is. -/
theorem layout_plain (hcloses : closes content = false) (hopens : opens content = false)
    (hlow : low ≤ level) :
    layout low level (⟨level, content⟩ :: ls) = layout low level ls := by
  have hdepth : depthOn level content = level := depthOn_of_not_closes hcloses
  rw [layout_cons hlow hdepth, depthBehind, hopens, hdepth]
  rfl

/-- Behind a line that opens a block the depth is one more. -/
theorem layout_open (hcloses : closes content = false) (hopens : opens content = true)
    (hlow : low ≤ level) :
    layout low level (⟨level, content⟩ :: ls) = layout low (level + 1 : Nat) ls := by
  have hdepth : depthOn level content = level := depthOn_of_not_closes hcloses
  rw [layout_cons hlow hdepth, depthBehind, hopens, hdepth]
  rfl

/-- On a line that closes a block, and behind it, the depth is one less. -/
theorem layout_close (hcloses : closes content = true) (hopens : opens content = false)
    (hlow : low ≤ level) :
    layout low (level + 1 : Nat) (⟨level, content⟩ :: ls) = layout low level ls := by
  have hdepth : depthOn (level + 1 : Nat) content = level := by
    rw [depthOn, hcloses, if_pos rfl]
    omega
  rw [layout_cons hlow hdepth, depthBehind, hopens, hdepth]
  rfl

theorem opens_concat {c : Char} (hc : (c == '\x7b' || c == '(') = false) :
    opens (content ++ [c]) = false := by
  rw [opens, List.getLast?_concat]
  exact hc

/-- A line that ends in a number opens nothing. -/
theorem opens_append_toDigits (before : List Char) (n : Nat) :
    opens (before ++ Nat.toDigits 10 n) = false := by
  have hne : Nat.toDigits 10 n ≠ [] := Nat.toDigits_ne_nil
  have hdigit := Nat.isDigit_of_mem_toDigits (by decide) (by decide) (List.getLast_mem hne)
  rw [← List.dropLast_concat_getLast hne, ← List.append_assoc]
  refine opens_concat ?_
  rw [Bool.eq_false_iff]
  intro hopen
  rcases Bool.or_eq_true_iff.1 hopen with h | h
  · rw [eq_of_beq h] at hdigit
    cases hdigit
  · rw [eq_of_beq h] at hdigit
    cases hdigit

/-- The lines of an operation that is no bracket leave the depth as it is. -/
theorem layout_opLines (hop : op.isBracket = false) (hlow : low ≤ level) :
    layout low level (opLines use level op) = some (level : Int) := by
  cases op with
  | run kind n =>
      cases kind with
      | right => exact layout_plain rfl (opens_append_toDigits _ _) hlow
      | left => exact layout_plain rfl (opens_append_toDigits _ _) hlow
      | inc => exact layout_plain rfl (opens_concat rfl) hlow
      | dec => exact layout_plain rfl (opens_concat rfl) hlow
  | input =>
      have hflush : layout low level (if use.writes then [⟨level, "out.Flush()".toList⟩] else []) =
          some (level : Int) := by
        cases use.writes with
        | false => rfl
        | true => exact layout_plain rfl rfl hlow
      rw [opLines, layout_append, hflush, Option.bind_some, layout_open rfl rfl hlow,
        layout_plain rfl rfl (Nat.le_succ_of_le hlow), layout_close rfl rfl hlow]
      rfl
  | openLoop => cases hop
  | closeLoop => cases hop
  | _ => exact layout_plain rfl rfl hlow

theorem levelAfter_plain (hop : op.isBracket = false) : levelAfter level op = level := by
  cases op with
  | openLoop => cases hop
  | closeLoop => cases hop
  | _ => rfl

/-- The lines of operations that close the loops `opened`, and all they open, end at the depth of
the outermost of them, and none of them is less deep. -/
theorem layout_body {pc : Nat} {opened : List Nat} (h : unmatchedFrom pc opened ops = none) :
    layout low (low + opened.length : Nat) (body use (low + opened.length) ops) =
      some (low : Int) := by
  induction pc, opened, ops using bracketInduction with
  | nil pc opened =>
      cases opened with
      | nil => rfl
      | cons start outer => cases h
  | plain pc opened op rest hop ih =>
      rw [unmatchedFrom_plain hop] at h
      rw [body, layout_append, layout_opLines hop (Nat.le_add_right ..), Option.bind_some,
        levelAfter_plain hop, ih h]
  | opened pc opened rest ih =>
      rw [unmatchedFrom_open] at h
      rw [body, opLines, List.singleton_append, layout_open rfl rfl (Nat.le_add_right ..)]
      exact ih h
  | stray pc rest ih => cases h
  | closed pc start outer rest ih =>
      rw [unmatchedFrom_close] at h
      rw [body, opLines, List.singleton_append]
      exact (layout_close rfl rfl (Nat.le_add_right ..)).trans (ih h)

/-! ## Whole programs -/

/-- The lines in front of the main function. -/
def header (settings : Settings) (use : Channels) : List Line :=
  ⟨0, "package ".toList ++ settings.packageName.toList⟩ :: ⟨0, []⟩ :: imports use

/-- The lines inside the main function. -/
def inside (settings : Settings) (ops : List Op) : List Line :=
  ⟨1, tapeLine settings.tapeSize⟩ :: (declarations (.of ops) ++ body (.of ops) 1 ops ++
    [⟨1, "_ = buffer".toList⟩, ⟨1, "_ = ptr".toList⟩])

/-- The empty line behind the last line end. -/
def lastLine : Line := ⟨0, []⟩

theorem lines_eq (settings : Settings) (ops : List Op) :
    lines settings ops = header settings (.of ops) ++ ⟨0, "func main() \x7b".toList⟩ ::
      (inside settings ops ++ [⟨0, "\x7d".toList⟩]) := by
  simp only [lines, preamble_eq, header, inside, epilogue, List.append_assoc, List.cons_append,
    List.nil_append]

theorem header_ne_main (settings : Settings) (use : Channels) :
    ∀ l ∈ header settings use, l.content ≠ "func main() \x7b".toList := by
  refine List.forall_mem_cons.2 ⟨?_, List.forall_mem_cons.2 ⟨by decide, ?_⟩⟩
  · intro h
    cases congrArg List.head? h
  · obtain ⟨writes, reads⟩ := use
    cases writes <;> cases reads <;> decide

theorem opens_package (h : opens settings.packageName.toList = false) :
    opens ("package ".toList ++ settings.packageName.toList) = false := by
  rw [opens, List.getLast?_append]
  cases hlast : settings.packageName.toList.getLast? with
  | none => rfl
  | some c =>
      rw [opens, hlast] at h
      exact h

theorem layout_header (hend : opens settings.packageName.toList = false) :
    layout 0 0 (header settings use) = some 0 := by
  have himports : layout 0 0 (imports use) = some 0 := by
    obtain ⟨writes, reads⟩ := use
    cases writes <;> cases reads <;> decide
  have hempty : layout 0 0 (⟨0, []⟩ :: imports use) = some 0 :=
    (layout_plain rfl rfl (Nat.le_refl 0)).trans himports
  exact (layout_plain rfl (opens_package hend) (Nat.le_refl 0)).trans hempty

theorem layout_inside (h : unmatched ops = none) : layout 1 1 (inside settings ops) = some 1 := by
  have hdeclarations : layout 1 1 (declarations (.of ops)) = some 1 := by
    obtain ⟨writes, reads⟩ := Channels.of ops
    cases writes <;> cases reads <;> decide
  have hbody : layout 1 1 (body (.of ops) 1 ops) = some 1 := layout_body h
  have hrest : layout 1 1 (declarations (.of ops) ++ body (.of ops) 1 ops ++
      [⟨1, "_ = buffer".toList⟩, ⟨1, "_ = ptr".toList⟩]) = some 1 := by
    rw [layout_append, layout_append, hdeclarations, Option.bind_some, hbody, Option.bind_some]
    decide
  exact (layout_plain rfl (opens_concat rfl) (Nat.le_refl 1)).trans hrest

/-- The lines of a balanced program are laid out. -/
theorem layout_lines (hend : opens settings.packageName.toList = false)
    (h : unmatched ops = none) : layout 0 0 (lines settings ops) = some 0 := by
  have hmain : layout 0 0 (⟨0, "func main() \x7b".toList⟩ ::
      (inside settings ops ++ [⟨0, "\x7d".toList⟩])) = some 0 := by
    have hinside : layout 0 1 (inside settings ops) = some 1 :=
      layout_mono (Nat.zero_le 1) (layout_inside h)
    refine (layout_open rfl rfl (Nat.le_refl 0)).trans ?_
    change layout 0 1 (inside settings ops ++ [⟨0, "\x7d".toList⟩]) = some 0
    rw [layout_append, hinside, Option.bind_some]
    decide
  rw [lines_eq, layout_append, layout_header hend, Option.bind_some, hmain]

/-! ## Texts -/

/-- The depth on a line of a text, behind the lines `before`. -/
def textDepth (before : List (List Char)) (line : List Char) : Int :=
  depthOn (depthAfter 0 (before.map (·.dropWhile isBlank))) (line.dropWhile isBlank)

/-- The lines of a text are indented by their depth. -/
structure IndentedByDepth (indent : List Char) (lines : List (List Char)) : Prop where
  /-- The depth is never negative. -/
  nonneg : ∀ before line after, lines = before ++ line :: after → 0 ≤ textDepth before line
  /-- A line that is not empty stands behind as many indentations as it is deep. -/
  indented : ∀ before line after, lines = before ++ line :: after → line ≠ [] →
    line = (List.replicate (textDepth before line).toNat indent).flatten ++ line.dropWhile isBlank
  /-- In the main function, which ends the text, all lines are at least one deep. -/
  main : ∃ header inside,
    lines = header ++ "func main() \x7b".toList :: (inside ++ ["\x7d".toList, []]) ∧
      "func main() \x7b".toList ∉ header ∧
      ∀ before line after, inside = before ++ line :: after →
        1 ≤ textDepth (header ++ "func main() \x7b".toList :: before) line
  /-- All blocks are closed. -/
  closed : depthAfter 0 (lines.map (·.dropWhile isBlank)) = 0

section Text

variable {indent : List Char}

/-- A part of lines with indentation is part of the lines. -/
theorem split_indented {before after : List (List Char)} {line : List Char}
    (h : ls.map (Line.indented indent) = before ++ line :: after) :
    ∃ earlier l later, ls = earlier ++ l :: later ∧ before = earlier.map (Line.indented indent) ∧
      line = l.indented indent := by
  obtain ⟨earlier, rest, rfl, rfl, hrest⟩ := List.map_eq_append_iff.1 h
  obtain ⟨l, later, rfl, rfl, -⟩ := List.map_eq_cons_iff.1 hrest
  exact ⟨earlier, l, later, rfl, rfl, rfl⟩

/-- On a line of a text that is laid out the depth is the level. -/
theorem textDepth_of_layout (hindent : ∀ c ∈ indent, isBlank c = true)
    (hclean : ∀ x ∈ ls ++ l :: ms, Clean x.content) {d : Int}
    (h : layout 0 0 (ls ++ l :: ms) = some d) :
    textDepth (ls.map (Line.indented indent)) (l.indented indent) = l.level := by
  obtain ⟨hls, hl⟩ := List.forall_mem_append.1 hclean
  rw [textDepth, strip_map_indented hindent hls,
    strip_indented hindent (List.forall_mem_cons.1 hl).1, (level_of_layout h).2]

/-- Lines that are laid out are indented by their depth. -/
theorem indentedByDepth_of_layout (hindent : ∀ c ∈ indent, isBlank c = true)
    (hclean : ∀ x ∈ ls, Clean x.content) (h : layout 0 0 ls = some 0) {header inside : List Line}
    (hls : ls = header ++ ⟨0, "func main() \x7b".toList⟩ ::
      (inside ++ [⟨0, "\x7d".toList⟩, lastLine]))
    (hheader : ∀ l ∈ header, l.content ≠ "func main() \x7b".toList)
    (hinside : ∀ l ∈ inside, 1 ≤ l.level) :
    IndentedByDepth indent (ls.map (Line.indented indent)) := by
  constructor
  case nonneg =>
    intro before line after hline
    obtain ⟨earlier, l, later, rfl, rfl, rfl⟩ := split_indented hline
    rw [textDepth_of_layout hindent hclean h]
    exact Int.natCast_nonneg l.level
  case indented =>
    intro before line after hline hne
    obtain ⟨earlier, l, later, rfl, rfl, rfl⟩ := split_indented hline
    rw [textDepth_of_layout hindent hclean h, Int.toNat_natCast,
      strip_indented hindent (hclean l (by simp)), Line.indented]
  case main =>
    refine ⟨header.map (Line.indented indent), inside.map (Line.indented indent), ?_, ?_, ?_⟩
    · rw [hls, List.map_append, List.map_cons, List.map_append]
      rfl
    · intro hmem
      obtain ⟨l, hl, hline⟩ := List.mem_map.1 hmem
      refine hheader l hl ?_
      rw [← strip_indented hindent (hclean l (by simp [hls, hl]))]
      exact congrArg (·.dropWhile isBlank) hline
    · intro before line after hline
      obtain ⟨earlier, l, later, rfl, rfl, rfl⟩ := split_indented hline
      have hsplit : ls = (header ++ ⟨0, "func main() \x7b".toList⟩ :: earlier) ++
          l :: (later ++ [⟨0, "\x7d".toList⟩, lastLine]) := by
        rw [hls, List.append_assoc, List.append_assoc, List.cons_append, List.cons_append]
      rw [hsplit] at hclean h
      have hdepth := textDepth_of_layout hindent hclean h
      rw [List.map_append] at hdepth
      exact Int.le_trans (Int.ofNat_le.2 (hinside l (by simp))) (Int.le_of_eq hdepth.symm)
  case closed => rw [strip_map_indented hindent hclean, depthAfter_of_layout h]

end Text

/-! ## Loop heads -/

/-- The head of a loop. -/
def loopHead : List Char := "for buffer[ptr] != 0 \x7b".toList

theorem count_opLines (use : Channels) (level : Nat) (op : Op) :
    ((opLines use level op).map (·.content)).count loopHead = [op].count .openLoop := by
  cases op with
  | run kind n => cases kind <;> rfl
  | input =>
      rw [opLines]
      cases use.writes <;> rfl
  | _ => rfl

theorem count_body (use : Channels) (level : Nat) (ops : List Op) :
    ((body use level ops).map (·.content)).count loopHead = ops.count .openLoop := by
  induction ops generalizing level with
  | nil => rfl
  | cons op ops ih =>
      rw [body, List.map_append, List.count_append, count_opLines, ih, ← List.count_append,
        List.singleton_append]

theorem count_preamble (settings : Settings) (use : Channels) :
    ((preamble settings use).map (·.content)).count loopHead = 0 := by
  rw [preamble_eq]
  obtain ⟨writes, reads⟩ := use
  cases writes <;> cases reads <;> rfl

/-- The lines of a program have one loop head for each open bracket. -/
theorem count_lines (settings : Settings) (ops : List Op) :
    ((lines settings ops).map (·.content)).count loopHead = ops.count .openLoop := by
  rw [lines, List.map_append, List.map_append, List.count_append, List.count_append,
    count_preamble, count_body, Nat.zero_add]
  rfl

/-- **Indentation shows the blocks.**  The text of a program is indented by the depth of its lines,
and it has one loop head for each open bracket.  The indentation is blank, and the name of the
package stays on its line and does not end in an opening bracket. -/
theorem indented_by_depth {text : String} (hwrite : write settings ops = .ok text)
    (hindent : ∀ c ∈ settings.indent.toList, c = '\t' ∨ c = ' ')
    (hpackage : '\n' ∉ settings.packageName.toList)
    (hend : opens settings.packageName.toList = false) :
    IndentedByDepth settings.indent.toList (Text.lineFeedPieces text.toList) ∧
      ((Text.lineFeedPieces text.toList).map (·.dropWhile isBlank)).count loopHead =
        ops.count .openLoop := by
  obtain ⟨hcheck, rfl⟩ := write_eq_ok_iff.1 hwrite
  have hbalanced := (check_eq_ok_iff.1 hcheck).2
  have hblank := isBlank_of_indent hindent
  have hclean := clean_lines hpackage ops
  constructor
  · -- behind the last line end there is an empty line
    have hpieces : Text.lineFeedPieces (renderLines settings.indent (lines settings ops)).toList =
        (lines settings ops ++ [lastLine]).map (Line.indented settings.indent.toList) := by
      rw [renderLines, String.toList_ofList,
        lineFeedPieces_render (newline_notMem_of_blank hblank) hclean, List.map_append]
      rfl
    have hlayout : layout 0 0 (lines settings ops ++ [lastLine]) = some 0 := by
      rw [layout_append, layout_lines hend hbalanced]
      rfl
    have hls : lines settings ops ++ [lastLine] =
        header settings (.of ops) ++ ⟨0, "func main() \x7b".toList⟩ ::
          (inside settings ops ++ [⟨0, "\x7d".toList⟩, lastLine]) := by
      rw [lines_eq, List.append_assoc, List.cons_append, List.append_assoc]
      rfl
    rw [hpieces]
    refine indentedByDepth_of_layout hblank ?_ hlayout hls ?_ ?_
    · exact List.forall_mem_append.2 ⟨hclean, by decide⟩
    · exact header_ne_main settings _
    · intro l hl
      obtain ⟨earlier, later, hl⟩ := List.append_of_mem hl
      exact (level_of_layout (hl ▸ layout_inside hbalanced)).1
  · rw [contents_renderLines hblank hclean, List.count_append, count_lines]
    rfl

/-- A read in a loop in a loop, indented with two spaces. -/
theorem indented_by_depth_nested :
    ∃ text, write { indent := "  " } [.openLoop, .openLoop, .input, .closeLoop, .closeLoop] =
        .ok text ∧
      IndentedByDepth "  ".toList (Text.lineFeedPieces text.toList) ∧
      ((Text.lineFeedPieces text.toList).map (·.dropWhile isBlank)).count loopHead = 2 := by
  have hcheck : check [.openLoop, .openLoop, .input, .closeLoop, .closeLoop] = .ok () := rfl
  obtain ⟨text, hwrite⟩ : ∃ text, write { indent := "  " }
      [.openLoop, .openLoop, .input, .closeLoop, .closeLoop] = .ok text :=
    ⟨_, write_eq_ok_iff.2 ⟨hcheck, rfl⟩⟩
  have hindent : ∀ c ∈ [' ', ' '], c = '\t' ∨ c = ' ' :=
    List.forall_mem_cons.2 ⟨.inr rfl, List.forall_mem_singleton.2 (.inr rfl)⟩
  exact ⟨text, hwrite, indented_by_depth hwrite hindent (by decide +kernel) rfl⟩

end Brainfuck.Go
