import Brainfuck.Compile
import Brainfuck.Proofs.Go.Check
import Brainfuck.Proofs.Source.Direct

/-!
# Which texts are compiled

Whether a text is compiled can be told from its characters: it has to have an
instruction, and its brackets have to be balanced.  The program that the Go writer checks
is not that of the characters.  Repetitions have been merged in it, comments have gone,
and shortening has taken brackets out.  None of it hides a fault or makes one.

* `Verdict` — what is told about a text, without the operation that is named.
* `verdict_goText` — the verdict is that on the instructions of the text, whatever the
  options.
* `goText_accepts_iff` — the verdicts by the characters of the text.
-/

namespace Brainfuck.Compile

open Loops

/-- What is told about a text.  Which operation is at fault is left out. -/
inductive Verdict where
  /-- A program is written for the text. -/
  | accepted
  /-- The text has no instruction. -/
  | noInstruction
  /-- A close bracket has no partner. -/
  | strayClose
  /-- So many loops are never closed. -/
  | leftOpen (depth : Nat)
  /-- A run has length zero. -/
  | emptyRun
  deriving DecidableEq, Repr

/-- The verdict that is given with an answer. -/
def verdict : Except Rejection String → Verdict
  | .ok _ => .accepted
  | .error .emptyProgram => .noInstruction
  | .error (.refused (.unmatchedClose _)) => .strayClose
  | .error (.refused (.unclosedLoop _ depth)) => .leftOpen depth
  | .error (.refused (.emptyRun _)) => .emptyRun

/-- The verdict on a program whose bracket to report is known. -/
def Verdict.ofUnmatched : Option Unmatched → Verdict
  | none => .accepted
  | some (.stray _) => .strayClose
  | some (.leftOpen _ depth) => .leftOpen depth

/-- The text has one of the instruction characters. -/
def HasInstruction (text : String) : Prop := ∃ c ∈ text.toList, c ∈ Direct.instructions

/-- Some prefix of the text closes more loops than it opens. -/
def ClosesTooMuch (text : String) : Prop :=
  ∃ k ≤ text.toList.length, (text.toList.take k).count '[' < (text.toList.take k).count ']'

instance (text : String) : Decidable (HasInstruction text) :=
  List.decidableBEx (fun c => c ∈ Direct.instructions) text.toList

instance (text : String) : Decidable (ClosesTooMuch text) :=
  inferInstanceAs (Decidable (∃ k ≤ text.toList.length,
    (text.toList.take k).count '[' < (text.toList.take k).count ']'))

variable {options : Options} {settings : Go.Settings} {text : String} {ops : List Op}
  {answer : Except Rejection String} {depth : Nat}

/-! ## Answers and verdicts -/

theorem verdict_eq_accepted_iff : verdict answer = .accepted ↔ ∃ go, answer = .ok go := by
  rcases answer with (_ | _ | _ | _) | go <;> simp [verdict]

theorem verdict_eq_noInstruction_iff :
    verdict answer = .noInstruction ↔ answer = .error .emptyProgram := by
  rcases answer with (_ | _ | _ | _) | go <;> simp [verdict]

theorem verdict_eq_strayClose_iff :
    verdict answer = .strayClose ↔ ∃ i, answer = .error (.refused (.unmatchedClose i)) := by
  rcases answer with (_ | _ | _ | _) | go <;> simp [verdict]

theorem verdict_eq_leftOpen_iff :
    verdict answer = .leftOpen depth ↔
      ∃ i, answer = .error (.refused (.unclosedLoop i depth)) := by
  rcases answer with (_ | _ | _ | _) | go <;> simp [verdict]

/-! ## The program that is checked -/

/-- The program is read, shortened or not, and written. -/
theorem goText_eq (options : Options) (text : String) :
    goText options text =
      if Source.read text = [] then .error .emptyProgram
      else (Go.write options.go (options.apply (Source.read text))).mapError .refused := by
  unfold goText program
  cases Source.read text with
  | nil => rfl
  | cons op rest =>
      rw [if_neg (List.cons_ne_nil op rest)]
      rw [Except.ok_bind]
      cases Go.write options.go (options.apply (op :: rest)) <;> rfl

theorem counted_of_mem_apply (options : Options) (h : ∀ op ∈ ops, op.Counted) :
    ∀ op ∈ options.apply ops, op.Counted := by
  unfold Options.apply
  split
  · exact Peephole.counted_of_mem_shorten h
  · exact h

/-- Shortened or not, the program stands for the same instructions. -/
theorem expand_apply (options : Options) (ops : List Op) :
    (options.apply ops).flatMap Op.expand = ops.flatMap Op.expand := by
  unfold Options.apply
  split
  · exact Peephole.expand_shorten ops
  · rfl

/-- A program without empty runs has the same verdict as the instructions it stands for. -/
theorem ofUnmatched_expand (h : ∀ op ∈ ops, op.Counted) :
    Verdict.ofUnmatched (unmatched (ops.flatMap Op.expand)) =
      Verdict.ofUnmatched (unmatched ops) := by
  have hsound : ∀ p ∈ ops.map fun op => (⟨op, op.expand⟩ : Abbreviation.Piece), p.Sound := by
    intro p hp
    obtain ⟨op, hop, rfl⟩ := List.mem_map.1 hp
    exact Op.sound_expand (h op hop)
  have hlong := Abbreviation.unmatched_long hsound
  rw [Abbreviation.long, List.flatMap_map, Abbreviation.short, List.map_map] at hlong
  have hshort : ops.map ((fun p => p.op) ∘ fun op => (⟨op, op.expand⟩ : Abbreviation.Piece)) =
      ops := List.map_id ops
  rw [hlong, hshort]
  rcases unmatched ops with _ | _ | _ <;> rfl

theorem verdict_write (h : ∀ op ∈ ops, op.Counted) :
    verdict ((Go.write settings ops).mapError .refused) = .ofUnmatched (unmatched ops) := by
  rw [Go.write_eq, Go.check_of_counted h]
  rcases unmatched ops with _ | _ | _ <;> rfl

theorem read_eq_nil_iff : Source.read text = [] ↔ Source.units text = [] := by
  rw [← Source.expand_read, List.flatMap_eq_nil_iff, List.eq_nil_iff_forall_not_mem]
  refine forall_congr' fun op => ⟨fun h hop => absurd hop h, fun h hop => ?_⟩
  have hcounted := Source.counted_of_mem_read op hop
  have hexpand := h hop
  cases op with
  | run kind n =>
      rw [Op.expand, List.replicate_eq_nil_iff] at hexpand
      exact hcounted (congrArg some (UInt32.toNat_inj.1 hexpand))
  | _ => cases hexpand

/-- The verdict on a text is that on its instructions, whatever the options. -/
theorem verdict_goText (options : Options) (text : String) :
    verdict (goText options text) =
      if Source.units text = [] then .noInstruction
      else .ofUnmatched (unmatched (Source.units text)) := by
  have hcounted := counted_of_mem_apply options (@Source.counted_of_mem_read text)
  rw [goText_eq]
  simp only [read_eq_nil_iff]
  split
  · rfl
  · rw [verdict_write hcounted, ← ofUnmatched_expand hcounted, expand_apply, Source.expand_read]

/-! ## Counting characters -/

theorem units_eq_nil_iff : Source.units text = [] ↔ ¬ HasInstruction text := by
  unfold Source.units HasInstruction
  rw [List.filterMap_eq_nil_iff]
  have hinstruction : ∀ c, c ∈ Direct.instructions ↔ Op.ofChar? c ≠ none := by
    intro c
    rw [← List.contains_iff_mem, Direct.contains_instructions, Option.isSome_iff_ne_none]
  constructor
  · rintro h ⟨c, hc, hi⟩
    exact (hinstruction c).1 hi (h c hc)
  · intro h c hc
    cases hop : Op.ofChar? c with
    | none => rfl
    | some op =>
        refine absurd ⟨c, hc, (hinstruction c).2 ?_⟩ h
        rw [hop]
        nofun

theorem unmatched_units_stray_iff :
    (∃ i, unmatched (Source.units text) = some (.stray i)) ↔ ClosesTooMuch text := by
  rw [unmatched_stray_iff]
  constructor
  · rintro ⟨p, hp, hlt⟩
    obtain ⟨q, hq, rfl⟩ := List.prefix_filterMap_iff.1 hp
    rw [(Direct.count_units q).1, (Direct.count_units q).2, List.prefix_iff_eq_take.1 hq] at hlt
    exact ⟨q.length, hq.length_le, hlt⟩
  · rintro ⟨k, -, hlt⟩
    refine ⟨_, (List.take_prefix k text.toList).filterMap _, ?_⟩
    rw [(Direct.count_units _).1, (Direct.count_units _).2]
    exact hlt

theorem unmatched_units_eq_none_iff :
    unmatched (Source.units text) = none ↔ Direct.Balanced text := by
  rw [← balanced_iff_unmatched_eq_none, Direct.balanced_units_iff]

theorem unmatched_units_leftOpen_iff :
    (∃ i, unmatched (Source.units text) = some (.leftOpen i depth)) ↔
      ¬ ClosesTooMuch text ∧ ¬ Direct.Balanced text ∧
        text.toList.count '[' = text.toList.count ']' + depth := by
  rw [← unmatched_units_stray_iff, ← unmatched_units_eq_none_iff]
  have hcount : (∀ i, unmatched (Source.units text) ≠ some (.stray i)) →
      text.toList.count '[' = text.toList.count ']' +
        (unmatched (Source.units text)).elim 0 Unmatched.depth := by
    intro h
    have hunits := count_of_not_stray h
    rw [Source.units, (Direct.count_units _).1, (Direct.count_units _).2] at hunits
    exact hunits
  cases hu : unmatched (Source.units text) with
  | none => simp
  | some u =>
      rw [hu] at hcount
      cases u with
      | stray i => simp
      | leftOpen i d =>
          have hd := hcount (by simp)
          simp only [Option.elim_some, Unmatched.depth] at hd
          simp only [Option.some.injEq, Unmatched.leftOpen.injEq]
          constructor
          · rintro ⟨_, rfl, rfl⟩
            exact ⟨by simp, by simp, hd⟩
          · rintro ⟨-, -, h⟩
            exact ⟨i, rfl, by omega⟩

/-! ## The verdicts by the characters -/

theorem verdict_of_hasInstruction (options : Options) (h : HasInstruction text) :
    verdict (goText options text) = .ofUnmatched (unmatched (Source.units text)) := by
  rw [verdict_goText, if_neg]
  rw [units_eq_nil_iff]
  exact fun hnot => hnot h

theorem verdict_of_not_hasInstruction (options : Options) (h : ¬ HasInstruction text) :
    verdict (goText options text) = .noInstruction := by
  rw [verdict_goText, if_pos (units_eq_nil_iff.2 h)]

/-- A text without instructions has no brackets that could be unmatched. -/
theorem unmatched_units_of_not_hasInstruction (h : ¬ HasInstruction text) :
    unmatched (Source.units text) = none := by
  rw [units_eq_nil_iff.2 h]
  rfl

theorem verdict_accepted_iff (options : Options) (text : String) :
    verdict (goText options text) = .accepted ↔ HasInstruction text ∧ Direct.Balanced text := by
  by_cases h : HasInstruction text
  · rw [verdict_of_hasInstruction options h, ← unmatched_units_eq_none_iff]
    rcases unmatched (Source.units text) with _ | _ | _ <;> simp [Verdict.ofUnmatched, h]
  · simp [verdict_of_not_hasInstruction options h, h]

theorem verdict_noInstruction_iff (options : Options) (text : String) :
    verdict (goText options text) = .noInstruction ↔ ¬ HasInstruction text := by
  by_cases h : HasInstruction text
  · rw [verdict_of_hasInstruction options h]
    rcases unmatched (Source.units text) with _ | _ | _ <;> simp [Verdict.ofUnmatched, h]
  · simp [verdict_of_not_hasInstruction options h, h]

theorem verdict_strayClose_iff (options : Options) (text : String) :
    verdict (goText options text) = .strayClose ↔ ClosesTooMuch text := by
  rw [← unmatched_units_stray_iff]
  by_cases h : HasInstruction text
  · rw [verdict_of_hasInstruction options h]
    rcases unmatched (Source.units text) with _ | _ | _ <;> simp [Verdict.ofUnmatched]
  · simp [verdict_of_not_hasInstruction options h, unmatched_units_of_not_hasInstruction h]

theorem verdict_leftOpen_iff (options : Options) (text : String) (depth : Nat) :
    verdict (goText options text) = .leftOpen depth ↔
      ¬ ClosesTooMuch text ∧ ¬ Direct.Balanced text ∧
        text.toList.count '[' = text.toList.count ']' + depth := by
  rw [← unmatched_units_leftOpen_iff]
  by_cases h : HasInstruction text
  · rw [verdict_of_hasInstruction options h]
    rcases unmatched (Source.units text) with _ | _ | _ <;> simp [Verdict.ofUnmatched]
  · simp [verdict_of_not_hasInstruction options h, unmatched_units_of_not_hasInstruction h]

/-- No run of a text has length zero. -/
theorem verdict_ne_emptyRun (options : Options) (text : String) :
    verdict (goText options text) ≠ .emptyRun := by
  by_cases h : HasInstruction text
  · rw [verdict_of_hasInstruction options h]
    rcases unmatched (Source.units text) with _ | _ | _ <;> nofun
  · rw [verdict_of_not_hasInstruction options h]
    nofun

/-- What is written for a text with instructions is the shortened program. -/
theorem goText_eq_goTextOfAny (hshorten : options.shorten = true) (h : HasInstruction text) :
    goText options text = (goTextOfAny options.go text).mapError .refused := by
  have hread : Source.read text ≠ [] := by
    rw [Ne, read_eq_nil_iff, units_eq_nil_iff]
    exact fun hnot => hnot h
  rw [goText_eq, if_neg hread, goTextOfAny, Options.apply, if_pos hshorten]

/-- **A text is compiled exactly when it has an instruction and its brackets are balanced.**
A text without instructions is an empty program; a close bracket is unmatched exactly when
some prefix closes more loops than it opens; otherwise the loops that are opened and not
closed are counted; and a run of length zero never occurs.  So neither shortening nor any
other option changes what is told about a text, and a shortened program is what is
written for any text that has instructions. -/
theorem goText_accepts_iff (options : Options) (text : String) :
    ((∃ go, goText options text = .ok go) ↔ HasInstruction text ∧ Direct.Balanced text) ∧
    (goText options text = .error .emptyProgram ↔ ¬ HasInstruction text) ∧
    ((∃ i, goText options text = .error (.refused (.unmatchedClose i))) ↔ ClosesTooMuch text) ∧
    (∀ depth, (∃ i, goText options text = .error (.refused (.unclosedLoop i depth))) ↔
      ¬ ClosesTooMuch text ∧ ¬ Direct.Balanced text ∧
        text.toList.count '[' = text.toList.count ']' + depth) ∧
    (∀ i, goText options text ≠ .error (.refused (.emptyRun i))) ∧
    (∀ options', verdict (goText options' text) = verdict (goText options text)) ∧
    (options.shorten = true → HasInstruction text →
      goText options text = (goTextOfAny options.go text).mapError .refused) := by
  rw [← verdict_eq_accepted_iff, ← verdict_eq_noInstruction_iff, ← verdict_eq_strayClose_iff]
  simp only [← verdict_eq_leftOpen_iff]
  refine ⟨verdict_accepted_iff options text, verdict_noInstruction_iff options text,
    verdict_strayClose_iff options text, verdict_leftOpen_iff options text, ?_, ?_,
    goText_eq_goTextOfAny⟩
  · intro i hi
    apply verdict_ne_emptyRun options text
    rw [hi]
    rfl
  · intro options'
    rw [verdict_goText, verdict_goText]

/-- A loop around one that is shortened away, and never closed: shortening leaves one bracket
of three, and the verdict is as for all of them. -/
theorem goText_accepts_iff_left_open :
    HasInstruction "[[-] x" ∧
      (∃ i, goText {} "[[-] x" = .error (.refused (.unclosedLoop i 1))) ∧
      (∃ i, goText { shorten := false } "[[-] x" = .error (.refused (.unclosedLoop i 1))) ∧
      goText {} "[[-] x" = (goTextOfAny {} "[[-] x").mapError .refused := by
  have hinstruction : HasInstruction "[[-] x" := by decide
  have hclosed : ¬ ClosesTooMuch "[[-] x" := by decide
  have hbalanced : ¬ Direct.Balanced "[[-] x" := by decide
  refine ⟨hinstruction, ?_, ?_, (goText_accepts_iff {} _).2.2.2.2.2.2 rfl hinstruction⟩
  · exact ((goText_accepts_iff {} _).2.2.2.1 1).2 ⟨hclosed, hbalanced, by decide⟩
  · exact ((goText_accepts_iff { shorten := false } _).2.2.2.1 1).2 ⟨hclosed, hbalanced, by decide⟩

end Brainfuck.Compile
