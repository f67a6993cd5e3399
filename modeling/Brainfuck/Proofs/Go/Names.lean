import Brainfuck.Proofs.Go.Flushing
import Brainfuck.Proofs.Go.Tokens

/-!
# The names of a Go program

Go refuses a program that imports or declares what it does not use, or uses what it has not
imported or declared.  Which names a program needs is decided from its operations before the
first of them is written; here it is read off the tokens of the text alone.

* `Go.Name` — the names a program may introduce.
* `Go.Name.follow` — goes through lines as long as a name is introduced once, and in front of its
  uses.
* `Go.InOrder`, `Go.inOrder_of_follow` — what that says about the lines.
* `Go.inner_body` — the lines of operations introduce no name, and use only the needed ones.
* `Go.follow_programTokens` — the lines of a program introduce just the names that are needed.
* `Go.NamesInOrder`, `Go.names_in_order` — what a text that is written imports, declares and uses.
-/

namespace Brainfuck.Go

/-! ## Names -/

/-- The names a program may introduce. -/
inductive Name where
  /-- The package of buffered output. -/
  | bufio
  /-- The package of the console. -/
  | os
  /-- The buffered output. -/
  | out
  /-- The place a byte is read to. -/
  | b
  /-- The tape. -/
  | buffer
  /-- The pointer. -/
  | ptr
  deriving DecidableEq, Repr

namespace Name

/-- All names. -/
def all : List Name := [.bufio, .os, .out, .b, .buffer, .ptr]

theorem mem_all (name : Name) : name ∈ all := by
  cases name <;> decide

/-- The name as a token. -/
def token : Name → Token
  | .bufio => .word "bufio".toList
  | .os => .word "os".toList
  | .out => .word "out".toList
  | .b => .word "b".toList
  | .buffer => .word "buffer".toList
  | .ptr => .word "ptr".toList

/-- Is it the name of a package, and not of a variable? -/
def isPackage : Name → Bool
  | .bufio | .os => true
  | _ => false

/-- The line on which a package is named in the import block. -/
def importLine (name : Name) : List Token := [.symbol '"', name.token, .symbol '"']

/-- Does a line import the package, or declare the variable, of this name? -/
def introduces (name : Name) (line : List Token) : Bool :=
  if name.isPackage then line == name.importLine
  else [name.token, .symbol ':', .symbol '='].isPrefixOf line

/-- Does the name stand on a line that does not introduce it? -/
def usedOn (name : Name) (line : List Token) : Bool :=
  line.contains name.token && !name.introduces line

/-- Goes through lines as long as a name is introduced at most once, and in front of its uses.
`seen` says whether it has been introduced. -/
def follow (name : Name) (seen : Bool) : List (List Token) → Option Bool
  | [] => some seen
  | line :: rest =>
      if name.introduces line then if seen then none else name.follow true rest
      else if name.usedOn line && !seen then none
      else name.follow seen rest

/-- Does a program that uses these ends of the console need the name? -/
def needed (use : Channels) : Name → Bool
  | .bufio | .out => use.writes
  | .os => use.writes || use.reads
  | .b => use.reads
  | .buffer | .ptr => true

end Name

variable {name : Name} {seen seen' : Bool} {line part : List Token} {ls ms : List (List Token)}
  {use : Channels} {level n : Nat} {op : Op} {ops : List Op} {settings : Settings}

/-- Is the name introduced on one of the lines? -/
def Introduced (name : Name) (ls : List (List Token)) : Prop :=
  ∃ line ∈ ls, name.introduces line = true

/-- A name is introduced at most once, and used only behind the line that introduces it. -/
structure InOrder (name : Name) (ls : List (List Token)) : Prop where
  once : ls.countP name.introduces ≤ 1
  behind : ∀ before line after, ls = before ++ line :: after → name.usedOn line = true →
    Introduced name before

/-! ## Following a name -/

theorem follow_append (name : Name) (seen : Bool) (ls ms : List (List Token)) :
    name.follow seen (ls ++ ms) = (name.follow seen ls).bind fun s => name.follow s ms := by
  induction ls generalizing seen with
  | nil => rfl
  | cons line ls ih =>
      rw [List.cons_append, Name.follow, Name.follow]
      split
      · split
        · rfl
        · exact ih true
      · split
        · rfl
        · exact ih seen

/-- A name has been introduced as often behind some lines as before them and on them. -/
theorem countP_of_follow (h : name.follow seen ls = some seen') :
    ls.countP name.introduces + seen.toNat = seen'.toNat := by
  induction ls generalizing seen with
  | nil =>
      cases h
      simp
  | cons line ls ih =>
      rw [Name.follow] at h
      by_cases hline : name.introduces line = true
      · cases seen with
        | true => simp [hline] at h
        | false =>
            simp only [hline, if_true, Bool.false_eq_true, if_false] at h
            simpa [List.countP_cons, hline] using ih h
      · simp only [hline, Bool.false_eq_true, if_false] at h
        split at h
        · cases h
        · simpa [List.countP_cons, hline] using ih h

theorem introduced_iff_of_follow (h : name.follow false ls = some seen) :
    Introduced name ls ↔ seen = true := by
  have hcount := countP_of_follow h
  rw [Introduced, ← List.countP_pos_iff]
  cases seen with
  | false => simp_all
  | true => simp_all

/-- A name that can be followed is introduced at most once, and before it is used. -/
theorem inOrder_of_follow (h : name.follow false ls = some seen) : InOrder name ls := by
  refine ⟨?_, ?_⟩
  · have hcount := countP_of_follow h
    have hle := Bool.toNat_le seen
    omega
  · rintro before line after rfl hused
    rw [follow_append] at h
    obtain ⟨s, hbefore, hline⟩ := Option.bind_eq_some_iff.1 h
    rw [introduced_iff_of_follow hbefore]
    have hnot : name.introduces line = false := by
      simp only [Name.usedOn, Bool.and_eq_true, Bool.not_eq_true'] at hused
      exact hused.2
    cases s with
    | true => rfl
    | false => simp [Name.follow, hnot, hused] at hline

/-- Lines that introduce nothing, and use a name only if it has been introduced, are passed. -/
theorem follow_of_usedOn (h : ∀ line ∈ ls, name.introduces line = false ∧
    (name.token ∈ line → seen = true)) : name.follow seen ls = some seen := by
  induction ls with
  | nil => rfl
  | cons line ls ih =>
      obtain ⟨⟨hnot, huse⟩, hls⟩ := List.forall_mem_cons.1 h
      have hused : (name.usedOn line && !seen) = false := by
        by_cases hmem : name.token ∈ line
        · simp [huse hmem]
        · simp [Name.usedOn, hmem]
      rw [Name.follow, hnot, hused, if_neg Bool.false_ne_true, if_neg Bool.false_ne_true, ih hls]

/-- A name that stands on one of the lines is introduced on one of them. -/
theorem InOrder.introduced (h : InOrder name ls) (hmem : line ∈ ls) (hname : name.token ∈ line) :
    Introduced name ls := by
  by_cases hline : name.introduces line = true
  · exact ⟨line, hmem, hline⟩
  · obtain ⟨before, after, rfl⟩ := List.append_of_mem hmem
    have hused : name.usedOn line = true := by simp [Name.usedOn, hname, hline]
    obtain ⟨earlier, hearlier, hintro⟩ := h.behind before line after rfl hused
    exact ⟨earlier, List.mem_append_left _ hearlier, hintro⟩

/-! ## Import blocks -/

/-- The head of an import block. -/
def importOpen : List Token := [.word "import".toList, .symbol '(']

/-- The lines of the import block, if there is one. -/
def importBlock (ls : List (List Token)) : Option (List (List Token)) :=
  if importOpen ∈ ls then
    some ((ls.dropWhile (· != importOpen)).tail.takeWhile (· != [.symbol ')']))
  else none

/-- Is the package named in the import block? -/
def Imported (name : Name) (ls : List (List Token)) : Prop :=
  ∃ block, importBlock ls = some block ∧ name.importLine ∈ block

/-! ## Lines of operations -/

/-- A line behind the declarations: it opens no import block, introduces no name and uses only the
needed ones. -/
def inner (use : Channels) (line : List Token) : Bool :=
  line != importOpen && Name.all.all fun name =>
    !name.introduces line && (!line.contains name.token || name.needed use)

theorem inner_iff : inner use line = true ↔ line ≠ importOpen ∧ ∀ name : Name,
    name.introduces line = false ∧ (name.token ∈ line → name.needed use = true) := by
  have himp (name : Name) : (name.token ∉ line ∨ name.needed use = true) ↔
      (name.token ∈ line → name.needed use = true) := by
    by_cases h : name.token ∈ line <;> simp [h]
  simp [inner, Name.mem_all, himp]

/-- The lines of an operation introduce no name, and use only what is needed if the operation
is. -/
theorem inner_opLines (hwrites : op = .output → use.writes = true)
    (hreads : op = .input → use.reads = true) :
    ∀ line ∈ tokenLines (opLines use level op), inner use line = true := by
  obtain ⟨writes, reads⟩ := use
  cases op with
  | run kind n =>
      rw [tokenLines_run, List.forall_mem_singleton]
      cases kind <;> rfl
  | output =>
      cases hwrites rfl
      exact List.forall_mem_singleton.2 rfl
  | input =>
      cases hreads rfl
      rw [opLines, tokenLines_append, List.forall_mem_append]
      constructor
      · cases writes with
        | false => exact List.forall_mem_nil _
        | true => exact List.forall_mem_singleton.2 rfl
      · simp only [tokenLines_cons, tokenLines_nil]
        cases writes <;> decide +kernel
  | _ => exact List.forall_mem_singleton.2 rfl

theorem inner_body (hwrites : .output ∈ ops → use.writes = true)
    (hreads : .input ∈ ops → use.reads = true) :
    ∀ line ∈ tokenLines (body use level ops), inner use line = true := by
  refine List.forall_mem_map.2 (forall_mem_body ?_)
  intro op hop level
  refine List.forall_mem_map.1 (inner_opLines ?_ ?_)
  · rintro rfl
    exact hwrites hop
  · rintro rfl
    exact hreads hop

theorem inner_epilogue : ∀ line ∈ tokenLines epilogue, inner use line = true := by
  simp only [epilogue, tokenLines_cons, tokenLines_nil, List.forall_mem_cons]
  exact ⟨rfl, rfl, rfl, List.forall_mem_nil _⟩

/-! ## Lines in front of the operations -/

/-- The tokens between the package clause and the operations. -/
def frontTokens (use : Channels) (cells : Nat) : List (List Token) :=
  [] :: (tokenLines (imports use) ++
    tokens "func main() \x7b".toList :: tapeTokens cells :: tokenLines (declarations use))

theorem tokenLines_preamble (settings : Settings) (use : Channels) :
    tokenLines (preamble settings use).tail = frontTokens use settings.tapeSize := by
  rw [preamble_eq, List.tail_cons, tokenLines_cons, tokenLines_append, tokenLines_cons,
    tokenLines_cons, tokens_tapeLine]
  rfl

/-- The number of cells does not matter for what is introduced and used. -/
theorem follow_tapeTokens (name : Name) (seen : Bool) (cells : Nat) (ls : List (List Token)) :
    name.follow seen (tapeTokens cells :: ls) = name.follow seen (tapeTokens 0 :: ls) := by
  have hintro : name.introduces (tapeTokens cells) = name.introduces (tapeTokens 0) := by
    cases name <;> rfl
  have hused : name.usedOn (tapeTokens cells) = name.usedOn (tapeTokens 0) := by
    cases name <;> rfl
  rw [Name.follow, Name.follow, hintro, hused]

/-- In front of the operations just the names that are needed are introduced. -/
theorem follow_frontTokens (name : Name) (use : Channels) (cells : Nat) :
    name.follow false (frontTokens use cells) = some (name.needed use) := by
  have hcells : name.follow false (frontTokens use cells) =
      name.follow false (frontTokens use 0) := by
    have hsplit (k : Nat) : frontTokens use k =
        ([] :: (tokenLines (imports use) ++ [tokens "func main() \x7b".toList])) ++
          tapeTokens k :: tokenLines (declarations use) := by simp [frontTokens]
    rw [hsplit, hsplit, follow_append, follow_append]
    simp only [follow_tapeTokens name _ cells]
  have hall : ∀ writes reads, Name.all.all (fun name =>
      name.follow false (frontTokens ⟨writes, reads⟩ 0) == some (name.needed ⟨writes, reads⟩)) =
        true := by decide +kernel
  rw [hcells]
  exact beq_iff_eq.1 (List.all_eq_true.1 (hall use.writes use.reads) name name.mem_all)

/-- The import block names the packages that are needed, and is absent if none is. -/
theorem importBlock_frontTokens (use : Channels) (cells : Nat)
    (hls : importOpen ∉ ls) :
    importBlock (frontTokens use cells ++ ls) =
      if use.writes || use.reads then
        some (([Name.bufio, .os].filter (·.needed use)).map Name.importLine)
      else none := by
  obtain ⟨writes, reads⟩ := use
  cases writes with
  | true => cases reads <;> rfl
  | false =>
      cases reads with
      | true => rfl
      | false =>
          have hfront : (frontTokens ⟨false, false⟩ cells).contains importOpen = false := rfl
          have hnone : importOpen ∉ frontTokens ⟨false, false⟩ cells ++ ls := by
            rw [List.mem_append, not_or]
            exact ⟨by simpa using hfront, hls⟩
          exact if_neg hnone

theorem count_importOpen_frontTokens (use : Channels) (cells : Nat) :
    (frontTokens use cells).count importOpen ≤ 1 := by
  obtain ⟨writes, reads⟩ := use
  cases writes <;> cases reads <;> exact Nat.le_of_ble_eq_true rfl

/-! ## Words and bytes -/

/-- The words that are not introduced: keywords, what Go declares by itself, what belongs to a
package or a variable, the number of bytes in the head of a read, and the blank. -/
def commonWords : List Token :=
  ["import", "func", "main", "defer", "for", "if", "make", "byte", "NewWriter", "Stdout", "Stdin",
    "Read", "Flush", "WriteByte", "n", "_"].map fun w => .word w.toList

/-- Is a token a name or a common word, if it is a word? -/
def isKnown : Token → Bool
  | .word w => commonWords.contains (.word w) || Name.all.any (·.token == .word w)
  | _ => true

/-- Is a token a byte, if it is a number? -/
def isSmall : Token → Bool
  | .number n => n < 256
  | _ => true

/-- A byte in a program. -/
def byteLiteral (n : Nat) : List Token :=
  [.word "byte".toList, .symbol '(', .number n, .symbol ')']

/-- A line has no words but those that are known, and its byte literals are bytes. -/
structure Legal (line : List Token) : Prop where
  known : ∀ t ∈ line, isKnown t = true
  bytes : ∀ n, byteLiteral n <:+: line → n < 256

theorem legal_of_small (hknown : line.all isKnown = true) (hsmall : line.all isSmall = true) :
    Legal line := by
  refine ⟨List.all_eq_true.1 hknown, ?_⟩
  intro n hn
  have hmem : .number n ∈ line := hn.subset (by simp [byteLiteral])
  simpa [isSmall] using List.all_eq_true.1 hsmall _ hmem

theorem legal_of_not_byte (hknown : line.all isKnown = true)
    (hbyte : line.contains (.word "byte".toList) = false) : Legal line := by
  refine ⟨List.all_eq_true.1 hknown, ?_⟩
  intro n hn
  have hmem : .word "byte".toList ∈ line := hn.subset (by simp [byteLiteral])
  rw [List.contains_iff_mem.2 hmem] at hbyte
  cases hbyte

theorem legal_runTokens (kind : RunKind) (n : UInt32) : Legal (runTokens kind n) := by
  have hmod : isSmall (.number (n.toNat % 256)) = true :=
    decide_eq_true (Nat.mod_lt _ (by decide))
  have hbyte (before : List Token) (hbefore : before.all isSmall = true) :
      (before ++ [Token.number (n.toNat % 256), .symbol ')']).all isSmall = true := by
    rw [List.all_append, List.all_cons, hbefore, hmod]
    rfl
  cases kind with
  | right => exact legal_of_not_byte rfl rfl
  | left => exact legal_of_not_byte rfl rfl
  | inc => exact legal_of_small rfl (hbyte _ rfl)
  | dec => exact legal_of_small rfl (hbyte _ rfl)

theorem legal_tapeTokens (cells : Nat) : Legal (tapeTokens cells) := by
  refine ⟨List.all_eq_true.1 rfl, ?_⟩
  intro n hn
  have hexplicit : tapeTokens cells = [.word "buffer".toList, .symbol ':', .symbol '=',
      .word "make".toList, .symbol '(', .symbol '[', .symbol ']', .word "byte".toList,
      .symbol ',', .number cells, .symbol ')'] := rfl
  rw [hexplicit] at hn
  simp [byteLiteral, List.infix_cons_iff] at hn

theorem legal_opLines : ∀ line ∈ tokenLines (opLines use level op), Legal line := by
  cases op with
  | run kind n =>
      rw [tokenLines_run, List.forall_mem_singleton]
      exact legal_runTokens kind n
  | input =>
      rw [opLines, tokenLines_append, List.forall_mem_append]
      constructor
      · cases use.writes with
        | false => exact List.forall_mem_nil _
        | true => exact List.forall_mem_singleton.2 (legal_of_small rfl rfl)
      · simp only [tokenLines_cons, tokenLines_nil, List.forall_mem_cons]
        exact ⟨legal_of_small rfl rfl, legal_of_small rfl rfl, legal_of_small rfl rfl,
          List.forall_mem_nil _⟩
  | _ => exact List.forall_mem_singleton.2 (legal_of_small rfl rfl)

theorem legal_frontTokens (use : Channels) (cells : Nat) :
    ∀ line ∈ frontTokens use cells, Legal line := by
  have hfixed : ∀ writes reads, ([] :: (tokenLines (imports ⟨writes, reads⟩) ++
      tokens "func main() \x7b".toList :: tokenLines (declarations ⟨writes, reads⟩))).all
        (fun line => line.all isKnown && line.all isSmall) = true := by decide +kernel
  intro line hline
  by_cases htape : line = tapeTokens cells
  · rw [htape]
    exact legal_tapeTokens cells
  · have hmem : line ∈ [] :: (tokenLines (imports use) ++
        tokens "func main() \x7b".toList :: tokenLines (declarations use)) := by
      simpa [frontTokens, htape] using hline
    have hboth := List.all_eq_true.1 (hfixed use.writes use.reads) line hmem
    rw [Bool.and_eq_true] at hboth
    exact legal_of_small hboth.1 hboth.2

/-! ## Whole programs -/

/-- The tokens behind the package clause. -/
def programTokens (settings : Settings) (ops : List Op) : List (List Token) :=
  frontTokens (.of ops) settings.tapeSize ++
    (tokenLines (body (.of ops) 1 ops) ++ (tokenLines epilogue ++ [[]]))

theorem programTokens_of_write {text : String} (hwrite : write settings ops = .ok text)
    (hindent : ∀ c ∈ settings.indent.toList, c = '\t' ∨ c = ' ')
    (hpackage : '\n' ∉ settings.packageName.toList) :
    (Text.lineFeedPieces text.toList).tail.map tokens = programTokens settings ops := by
  have htail : (tokenLines (lines settings ops) ++ [[]]).tail =
      tokenLines (lines settings ops).tail ++ [[]] := by
    rw [lines, preamble_eq]
    rfl
  rw [List.map_tail, tokenLines_of_write hwrite hindent hpackage, htail, tail_lines,
    tokenLines_append, tokenLines_append, tokenLines_preamble, programTokens, List.append_assoc,
    List.append_assoc]

theorem inner_programTokens (ops : List Op) :
    ∀ line ∈ tokenLines (body (.of ops) 1 ops) ++ (tokenLines epilogue ++ [[]]),
      inner (.of ops) line = true := by
  refine List.forall_mem_append.2 ⟨inner_body ?_ ?_, List.forall_mem_append.2
    ⟨inner_epilogue, List.forall_mem_singleton.2 rfl⟩⟩
  · intro hops
    simpa [Channels.of] using hops
  · intro hops
    simpa [Channels.of] using hops

/-- The lines of a program introduce just the names that are needed, before they use them. -/
theorem follow_programTokens (name : Name) (settings : Settings) (ops : List Op) :
    name.follow false (programTokens settings ops) = some (name.needed (.of ops)) := by
  rw [programTokens, follow_append, follow_frontTokens, Option.bind_some]
  apply follow_of_usedOn
  intro line hline
  exact (inner_iff.1 (inner_programTokens ops line hline)).2 name

theorem importOpen_notMem (ops : List Op) :
    importOpen ∉ tokenLines (body (.of ops) 1 ops) ++ (tokenLines epilogue ++ [[]]) := by
  intro hmem
  exact (inner_iff.1 (inner_programTokens ops _ hmem)).1 rfl

theorem count_importOpen_programTokens (settings : Settings) (ops : List Op) :
    (programTokens settings ops).count importOpen ≤ 1 := by
  rw [programTokens, List.count_append, List.count_eq_zero.2 (importOpen_notMem ops)]
  exact count_importOpen_frontTokens _ _

theorem importBlock_programTokens (settings : Settings) (ops : List Op) :
    importBlock (programTokens settings ops) =
      if (Channels.of ops).writes || (Channels.of ops).reads then
        some (([Name.bufio, .os].filter (·.needed (.of ops))).map Name.importLine)
      else none :=
  importBlock_frontTokens _ _ (importOpen_notMem ops)

theorem legal_programTokens (settings : Settings) (ops : List Op) :
    ∀ line ∈ programTokens settings ops, Legal line := by
  have hepilogue : ∀ line ∈ tokenLines epilogue ++ [[]], Legal line := by
    simp only [epilogue, tokenLines_cons, tokenLines_nil, List.cons_append, List.nil_append,
      List.forall_mem_cons]
    exact ⟨legal_of_small rfl rfl, legal_of_small rfl rfl, legal_of_small rfl rfl,
      legal_of_small rfl rfl, List.forall_mem_nil _⟩
  refine List.forall_mem_append.2 ⟨legal_frontTokens _ _, List.forall_mem_append.2 ⟨?_, hepilogue⟩⟩
  exact List.forall_mem_map.2 (forall_mem_body fun op _ level =>
    List.forall_mem_map.1 legal_opLines)

/-- The lines of an operation stand among the lines of a program. -/
theorem exists_subset_body (h : op ∈ ops) :
    ∃ level', opLines use level' op ⊆ body use level ops := by
  induction ops generalizing level with
  | nil => cases h
  | cons first ops ih =>
      rw [body]
      rcases List.mem_cons.1 h with rfl | h
      · exact ⟨level, List.subset_append_left _ _⟩
      · obtain ⟨level', hsubset⟩ := @ih (levelAfter level first) h
        exact ⟨level', List.Subset.trans hsubset (List.subset_append_right _ _)⟩

/-- Do the tokens of a text stand together on one of the lines? -/
def Refers (text : String) (ls : List (List Token)) : Prop :=
  ∃ line ∈ ls, tokens text.toList <:+: line

/-- What refers to a name that is in order refers to one that is introduced. -/
theorem InOrder.introduced_of_refers {text : String} (h : InOrder name ls)
    (hname : (tokens text.toList).contains name.token = true) (hrefers : Refers text ls) :
    Introduced name ls := by
  obtain ⟨line, hline, hpart⟩ := hrefers
  exact h.introduced hline (hpart.subset (List.contains_iff_mem.1 hname))

/-- A program that writes refers to its output, and to what that is declared with. -/
theorem refers_of_writes (h : (Channels.of ops).writes = true) :
    Refers "bufio." (programTokens settings ops) ∧ Refers "os." (programTokens settings ops) ∧
      Refers "out.WriteByte" (programTokens settings ops) := by
  have hdeclared : tokens "out := bufio.NewWriter(os.Stdout)".toList ∈
      programTokens settings ops := by
    have hmem : ⟨1, "out := bufio.NewWriter(os.Stdout)".toList⟩ ∈ declarations (.of ops) := by
      rw [declarations, if_pos h]
      exact List.mem_append_left _ (List.mem_append_right _ List.mem_cons_self)
    apply List.mem_append_left
    apply List.mem_cons_of_mem
    apply List.mem_append_right
    exact List.mem_cons_of_mem _ (List.mem_cons_of_mem _ (List.mem_map_of_mem hmem))
  have hwritten : tokens "out.WriteByte(buffer[ptr])".toList ∈ programTokens settings ops := by
    have hop : .output ∈ ops := by simpa [Channels.of] using h
    obtain ⟨level, hsubset⟩ := @exists_subset_body (.of ops) 1 _ _ hop
    apply List.mem_append_right
    apply List.mem_append_left
    exact List.mem_map_of_mem (hsubset (List.mem_singleton_self _))
  refine ⟨⟨_, hdeclared, ?_⟩, ⟨_, hdeclared, ?_⟩, ⟨_, hwritten, ?_⟩⟩
  all_goals decide +kernel

/-- A program that reads refers to what it reads from and where to. -/
theorem refers_of_reads (h : (Channels.of ops).reads = true) :
    Refers "os." (programTokens settings ops) ∧
      Refers "os.Stdin.Read(b)" (programTokens settings ops) := by
  have hread : tokens "if n, _ := os.Stdin.Read(b); n == 1 \x7b".toList ∈
      programTokens settings ops := by
    have hop : .input ∈ ops := by simpa [Channels.of] using h
    obtain ⟨level, hsubset⟩ := @exists_subset_body (.of ops) 1 _ _ hop
    apply List.mem_append_right
    apply List.mem_append_left
    exact List.mem_map_of_mem (hsubset (List.mem_append_right _ List.mem_cons_self))
  refine ⟨⟨_, hread, ?_⟩, ⟨_, hread, ?_⟩⟩
  all_goals decide +kernel

/-- What a program imports, declares and uses, by the tokens of its lines: a package is imported
just if the lines refer to it, and the variables of the console are declared just if a byte is
written or read; every name is introduced at most once, and before it is used; there is at most one
block of imports, and it is not empty; the tape and the pointer are declared once, and used; no
other words stand on the lines but the common ones, and no literal of a byte is too large. -/
structure NamesInOrder (ls : List (List Token)) : Prop where
  bufio : Imported .bufio ls ↔ Refers "bufio." ls
  os : Imported .os ls ↔ Refers "os." ls
  out : Introduced .out ls ↔ Refers "out.WriteByte" ls
  b : Introduced .b ls ↔ Refers "os.Stdin.Read(b)" ls
  inOrder : ∀ name : Name, InOrder name ls
  imported : ∀ name : Name, name.isPackage = true → (Introduced name ls ↔ Imported name ls)
  oneBlock : ls.count importOpen ≤ 1
  block : importBlock ls ≠ some []
  declared : ∀ name ∈ [Name.buffer, .ptr],
    ls.countP name.introduces = 1 ∧ ∃ line ∈ ls, name.usedOn line = true
  legal : ∀ line ∈ ls, Legal line

/-- A package is imported just if it is needed. -/
theorem imported_programTokens_iff (hname : name.isPackage = true) :
    Imported name (programTokens settings ops) ↔ name.needed (.of ops) = true := by
  rw [Imported, importBlock_programTokens]
  obtain ⟨writes, reads⟩ := Channels.of ops
  cases name with
  | bufio => cases writes <;> cases reads <;> simp [Name.needed, Name.importLine, Name.token]
  | os => cases writes <;> cases reads <;> simp [Name.needed, Name.importLine, Name.token]
  | _ => cases hname

/-- The tape and the pointer are declared once, and used behind the operations at the latest. -/
theorem declared_programTokens (hname : name ∈ [Name.buffer, .ptr]) :
    (programTokens settings ops).countP name.introduces = 1 ∧
      ∃ line ∈ programTokens settings ops, name.usedOn line = true := by
  have hcount := countP_of_follow (follow_programTokens name settings ops)
  have hend : ∀ line ∈ tokenLines epilogue, line ∈ programTokens settings ops := by
    intro line hline
    exact List.mem_append_right _ (List.mem_append_right _ (List.mem_append_left _ hline))
  simp only [List.mem_cons, List.not_mem_nil, or_false] at hname
  rcases hname with rfl | rfl
  · exact ⟨hcount, tokens "_ = buffer".toList, hend _ List.mem_cons_self, rfl⟩
  · exact ⟨hcount, tokens "_ = ptr".toList, hend _ (List.mem_cons_of_mem _ List.mem_cons_self), rfl⟩

theorem namesInOrder_programTokens (settings : Settings) (ops : List Op) :
    NamesInOrder (programTokens settings ops) := by
  have horder (name : Name) : InOrder name (programTokens settings ops) :=
    inOrder_of_follow (follow_programTokens name settings ops)
  have hintro (name : Name) :
      Introduced name (programTokens settings ops) ↔ name.needed (.of ops) = true :=
    introduced_iff_of_follow (follow_programTokens name settings ops)
  have himported (name : Name) (hname : name.isPackage = true) :
      Introduced name (programTokens settings ops) ↔ Imported name (programTokens settings ops) :=
    (hintro name).trans (imported_programTokens_iff hname).symm
  refine ⟨?_, ?_, ?_, ?_, horder, himported, count_importOpen_programTokens settings ops, ?_,
    fun name => declared_programTokens, legal_programTokens settings ops⟩
  · rw [← himported .bufio rfl]
    refine ⟨?_, (horder .bufio).introduced_of_refers rfl⟩
    intro h
    exact (refers_of_writes ((hintro .bufio).1 h)).1
  · rw [← himported .os rfl]
    refine ⟨?_, (horder .os).introduced_of_refers rfl⟩
    intro h
    rcases Bool.or_eq_true_iff.1 ((hintro .os).1 h) with hwrites | hreads
    · exact (refers_of_writes hwrites).2.1
    · exact (refers_of_reads hreads).1
  · refine ⟨?_, (horder .out).introduced_of_refers rfl⟩
    intro h
    exact (refers_of_writes ((hintro .out).1 h)).2.2
  · refine ⟨?_, (horder .b).introduced_of_refers rfl⟩
    intro h
    exact (refers_of_reads ((hintro .b).1 h)).2
  · rw [importBlock_programTokens]
    obtain ⟨writes, reads⟩ := Channels.of ops
    cases writes <;> cases reads <;> simp [Name.needed]

/-- **No name is missing and none is unused.**  Behind the package clause the lines of a text that
is written import, declare and use their names in order.  The indentation is blank, and the name of
the package stays on its line. -/
theorem names_in_order {text : String} (hwrite : write settings ops = .ok text)
    (hindent : ∀ c ∈ settings.indent.toList, c = '\t' ∨ c = ' ')
    (hpackage : '\n' ∉ settings.packageName.toList) :
    NamesInOrder ((Text.lineFeedPieces text.toList).tail.map tokens) := by
  rw [programTokens_of_write hwrite hindent hpackage]
  exact namesInOrder_programTokens settings ops

/-- A program that only reads imports `os` and not `bufio`. -/
theorem names_in_order_reading :
    ∃ text, write {} [.input] = .ok text ∧
      NamesInOrder ((Text.lineFeedPieces text.toList).tail.map tokens) ∧
      Imported .os ((Text.lineFeedPieces text.toList).tail.map tokens) ∧
      ¬ Imported .bufio ((Text.lineFeedPieces text.toList).tail.map tokens) := by
  have hwrite : write {} [.input] = .ok (renderLines "\t" (lines {} [.input])) :=
    write_eq_ok_iff.2 ⟨rfl, rfl⟩
  have hindent : ∀ c ∈ ({} : Settings).indent.toList, c = '\t' ∨ c = ' ' :=
    List.forall_mem_singleton.2 (.inl rfl)
  have hpackage : '\n' ∉ ({} : Settings).packageName.toList := by decide +kernel
  refine ⟨_, hwrite, names_in_order hwrite hindent hpackage, ?_, ?_⟩
  · rw [programTokens_of_write hwrite hindent hpackage, imported_programTokens_iff rfl]
    rfl
  · rw [programTokens_of_write hwrite hindent hpackage, imported_programTokens_iff rfl]
    exact Bool.false_ne_true

end Brainfuck.Go
