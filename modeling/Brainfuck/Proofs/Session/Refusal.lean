import Brainfuck.Proofs.Session.Effects

/-!
# A program that is refused leaves no trace

Commands read, compile, look for tools, print and write in orders of their own.  None of
them prints, writes or starts anything before it knows that its program is fit for it.

* `Command.source?`, `Command.needsGo` — what a command reads and whether it uses the Go
  tool.
* `Session.Refused` — the reasons to refuse a command.
* `Session.BreaksDown` — the command builds a machine first, and there is no memory for its tape.
* `Session.ends_of_refused` — a command that is refused ends where it started.
* `Session.no_trace_of_refused` — so does its command line, with the exit status 1 unless it breaks
  down.
-/

namespace Brainfuck

/-- The source file of a command. -/
def Command.source? : Command → Option String
  | .exportGo source _ _ | .build source _ _ _ | .run source _ | .emit source _
  | .interpret (.source source) _ _ | .list source _ _ => some source
  | .interpret (.saved _) _ _ => none

/-- Does the command use the Go tool? -/
def Command.needsGo : Command → Bool
  | .build .. | .run .. => true
  | _ => false

/-- Does the command only list operations? -/
def Command.isListing : Command → Bool
  | .list .. => true
  | _ => false

namespace Session

open Loops

/-- The reasons to refuse a command, with the tools on the search path and the files. -/
inductive Refused (cwd : Location) (tools : String → Option Tool) (fs : Files)
    (command : Command) : Prop
  /-- The source file cannot be read as text. -/
  | unreadable {source : String} : command.source? = some source →
      (∀ text, ¬ fs.ReadsAs cwd source text) → Refused cwd tools fs command
  /-- The source text has no instruction. -/
  | empty {source text : String} : command.source? = some source → fs.ReadsAs cwd source text →
      ¬ Compile.HasInstruction text → Refused cwd tools fs command
  /-- The brackets of the source text are not balanced, and it is not just listed. -/
  | unbalanced {source text : String} : command.source? = some source →
      fs.ReadsAs cwd source text → ¬ Direct.Balanced text → command.isListing = false →
      Refused cwd tools fs command
  /-- There is no Go tool. -/
  | noGo : command.needsGo = true → tools "go" = none → Refused cwd tools fs command

/-- The command interprets the program of a source text, whose brackets are looked at only by the
machine, and there is no memory for the tape of the machine. -/
inductive BreaksDown (cwd : Location) (memory : Nat) (fs : Files) : Command → Machine.NoTape → Prop
  | intro {source text : String} {maxSteps : Option Nat} {options : Compile.Options}
      {cause : Machine.NoTape} : fs.ReadsAs cwd source text → Compile.HasInstruction text →
      Machine.build memory ⟨options.go.tapeSize, maxSteps⟩ = .error cause →
      BreaksDown cwd memory fs (.interpret (.source source) maxSteps options) cause

variable {s : Setting} {fs : Files} {v : World} {command : Command} {source text : String}
  {options : Compile.Options}

/-- A command is refused for want of the Go tool, or because its source file has no text
that could be compiled. -/
theorem Refused.unfit (h : Refused s.cwd s.tool? fs command)
    (hsource : command.source? = some source) :
    command.needsGo = true ∧ s.tool? "go" = none ∨
      ∀ text, fs.ReadsAs s.cwd source text →
        ¬ (Compile.HasInstruction text ∧ Direct.Balanced text) := by
  cases h with
  | noGo hneeds hgo => exact .inl ⟨hneeds, hgo⟩
  | unreadable hs hread =>
      cases hs.symm.trans hsource
      exact .inr fun text htext => absurd htext (hread text)
  | empty hs hread hempty =>
      cases hs.symm.trans hsource
      exact .inr fun text htext hfit => hempty (hread.unique htext ▸ hfit.1)
  | unbalanced hs hread hbalanced _ =>
      cases hs.symm.trans hsource
      exact .inr fun text htext hfit => hbalanced (hread.unique htext ▸ hfit.2)

/-- A listing is refused because its source file has no text with an instruction. -/
theorem Refused.empty_of_listing (h : Refused s.cwd s.tool? fs command)
    (hsource : command.source? = some source) (hlisting : command.isListing = true) :
    ∀ text, fs.ReadsAs s.cwd source text → ¬ Compile.HasInstruction text := by
  cases h with
  | noGo hneeds _ => cases command <;> simp_all [Command.needsGo, Command.isListing]
  | unreadable hs hread =>
      cases hs.symm.trans hsource
      exact fun text htext => absurd htext (hread text)
  | empty hs hread hempty =>
      cases hs.symm.trans hsource
      exact fun text htext hinstruction => hempty (hread.unique htext ▸ hinstruction)
  | unbalanced _ _ _ hnot => simp [hlisting] at hnot

/-! ## Texts that are refused -/

theorem program_of_not_hasInstruction (options : Compile.Options)
    (h : ¬ Compile.HasInstruction text) :
    Compile.program options text = .error .emptyProgram := by
  rw [Compile.program, Compile.read_eq_nil_iff.2 (Compile.units_eq_nil_iff.2 h)]

theorem program_of_hasInstruction (options : Compile.Options)
    (h : Compile.HasInstruction text) :
    Compile.program options text = .ok (options.apply (Source.read text)) := by
  unfold Compile.program
  cases hread : Source.read text with
  | nil => exact absurd h (Compile.units_eq_nil_iff.1 (Compile.read_eq_nil_iff.1 hread))
  | cons op rest => rfl

/-- A machine does not take the program of a text whose brackets are not balanced. -/
theorem exists_ofProgram_error (options : Compile.Options) (h : ¬ Direct.Balanced text) :
    ∃ i, Jumps.ofProgram (options.apply (Source.read text)) = .error i := by
  have hcounted := Compile.counted_of_mem_apply options (@Source.counted_of_mem_read text)
  have hverdict := Compile.ofUnmatched_expand hcounted
  rw [Compile.expand_apply, Source.expand_read] at hverdict
  cases hu : unmatched (options.apply (Source.read text)) with
  | some u => exact ⟨u.index, ofProgram_eq_error_iff.2 ⟨u, hu, rfl⟩⟩
  | none =>
      rw [hu] at hverdict
      rw [← Compile.unmatched_units_eq_none_iff] at h
      rcases hunits : unmatched (Source.units text) with _ | _ | _
      · exact absurd hunits h
      · rw [hunits] at hverdict
        cases hverdict
      · rw [hunits] at hverdict
        cases hverdict

theorem exists_goTextAt_error (options : Compile.Options)
    (h : ∀ text, fs.ReadsAs s.cwd source text →
      ¬ (Compile.HasInstruction text ∧ Direct.Balanced text)) :
    ∃ failure, goTextAt s fs source options = .error failure ∧
      ∀ cause, failure ≠ .noTape cause := by
  unfold goTextAt
  cases htext : textAt s fs source with
  | error failure =>
      obtain ⟨cause, rfl⟩ := eq_unreadable_of_textAt htext
      exact ⟨_, rfl, nofun⟩
  | ok text =>
      rw [Except.ok_bind]
      cases hgo : Compile.goText options text with
      | error cause => exact ⟨.rejected cause, rfl, nofun⟩
      | ok go =>
          have haccepted := Compile.verdict_eq_accepted_iff.2 ⟨go, hgo⟩
          exact absurd ((Compile.verdict_accepted_iff options text).1 haccepted)
            (h text (textAt_eq_ok_iff.1 htext))

/-! ## Commands that are refused -/

/-- A program with unmatched brackets is not started. -/
theorem ends_interpretOn_of_error {ops : List Op} {i : Nat} (h : Jumps.ofProgram ops = .error i)
    (s : Setting) (machine : Machine) (v : World) :
    (interpretOn s ops machine).Ends v (.error (.failed (.fault (.unmatchedLoop i)))) v := by
  have hrun : machine.run s.fuel ops { input := s.stdin.toArray } =
      some ⟨some (.unmatchedLoop i), machine.reset, {}⟩ := by
    rw [Machine.run, h]
  have hends := ends_interpretOn hrun v
  rw [List.append_nil] at hends
  exact hends

theorem ends_interpret_of_unfit (maxSteps : Option Nat) (options : Compile.Options)
    (h : ∀ text, v.files.ReadsAs s.cwd source text →
      ¬ (Compile.HasInstruction text ∧ Direct.Balanced text)) :
    ∃ failure, (execute s (.interpret (.source source) maxSteps options)).Ends v
      (.error (.failed failure)) v ∧ ∀ cause, failure = .noTape cause ↔
        BreaksDown s.cwd s.memory v.files (.interpret (.source source) maxSteps options) cause := by
  have hread := ends_readText s source v
  cases htext : textAt s v.files source with
  | error failure =>
      rw [htext] at hread
      obtain ⟨cause, rfl⟩ := eq_unreadable_of_textAt htext
      refine ⟨_, hread.bind_error.bind_error, fun cause => ⟨nofun, ?_⟩⟩
      rintro ⟨hreads, -, -⟩
      cases htext.symm.trans (textAt_eq_ok_iff.2 hreads)
  | ok text =>
      rw [htext] at hread
      have hreads := textAt_eq_ok_iff.1 htext
      have hprogram := ends_programOf s options text v
      by_cases hinstruction : Compile.HasInstruction text
      · rw [program_of_hasInstruction options hinstruction] at hprogram
        have hload := hread.bind hprogram
        -- the machine is built before the brackets are looked at
        cases hbuild : Machine.build s.memory ⟨options.go.tapeSize, maxSteps⟩ with
        | error cause =>
            refine ⟨_, hload.bind (ends_interpret_of_noTape hbuild v), fun cause' => ⟨?_, ?_⟩⟩
            · rintro ⟨⟩
              exact .intro hreads hinstruction hbuild
            · rintro ⟨-, -, hbuild'⟩
              cases hbuild.symm.trans hbuild'
              rfl
        | ok machine =>
            have hbalanced : ¬ Direct.Balanced text := fun hbalanced =>
              h text hreads ⟨hinstruction, hbalanced⟩
            obtain ⟨i, hi⟩ := exists_ofProgram_error options hbalanced
            have hinterpret := ends_interpretOn_of_error hi s machine v
            rw [← interpret_of_build hbuild] at hinterpret
            refine ⟨_, hload.bind hinterpret, fun cause => ⟨nofun, ?_⟩⟩
            rintro ⟨-, -, hbuild'⟩
            cases hbuild.symm.trans hbuild'
      · rw [program_of_not_hasInstruction options hinstruction] at hprogram
        refine ⟨_, (hread.bind hprogram).bind_error, fun cause => ⟨nofun, ?_⟩⟩
        rintro ⟨hreads', hinstruction', -⟩
        exact absurd (hreads'.unique hreads ▸ hinstruction') hinstruction

/-- The located listing of a text without instructions is empty, so that printing it first
does no harm. -/
theorem ends_printText_located (style : Listing.Style) (h : ¬ Compile.HasInstruction text)
    (v : World) : (printText (style.render (Source.readLocated text))).Ends v (.ok ()) v := by
  have hread := Compile.read_eq_nil_iff.2 (Compile.units_eq_nil_iff.2 h)
  have hlocated : Source.readLocated text = [] := List.map_eq_nil_iff.1 hread
  have hprint := ends_print [] v
  rw [List.append_nil] at hprint
  rw [hlocated]
  exact hprint

theorem ends_list_of_empty (request : ListingRequest) (options : Compile.Options)
    (h : ∀ text, v.files.ReadsAs s.cwd source text → ¬ Compile.HasInstruction text) :
    ∃ failure, (list s source request options).Ends v (.error (.failed failure)) v ∧
      ∀ cause, failure ≠ .noTape cause := by
  have hread := ends_readText s source v
  cases htext : textAt s v.files source with
  | error failure =>
      rw [htext] at hread
      obtain ⟨cause, rfl⟩ := eq_unreadable_of_textAt htext
      exact ⟨_, hread.bind_error, nofun⟩
  | ok text =>
      rw [htext] at hread
      have hempty := h text (textAt_eq_ok_iff.1 htext)
      have hprogram := ends_programOf s options text v
      rw [program_of_not_hasInstruction options hempty] at hprogram
      refine ⟨.rejected .emptyProgram, hread.bind ?_, nofun⟩
      dsimp only
      split
      · exact (ends_printText_located _ hempty v).bind hprogram.bind_error
      · exact hprogram.bind_error

/-- Whatever is done with the Go text of a file, it is not done if there is none. -/
theorem ends_goTextOfFile_bind {next : String → Session Unit} (options : Compile.Options)
    (h : ∀ text, v.files.ReadsAs s.cwd source text →
      ¬ (Compile.HasInstruction text ∧ Direct.Balanced text)) :
    ∃ failure, (goTextOfFile s source options >>= next).Ends v (.error (.failed failure)) v ∧
      ∀ cause, failure ≠ .noTape cause := by
  have hgo := ends_goTextOfFile s source options v
  obtain ⟨failure, hfailure, hne⟩ := exists_goTextAt_error options h
  rw [hfailure] at hgo
  exact ⟨failure, hgo.bind_error, hne⟩

/-- What is done with the Go tool is not done if there is none. -/
theorem ends_findGo_bind {next : String → Tool → Session Unit} (source : String)
    (options : Compile.Options) (h : s.tool? "go" = none) (v : World) :
    ∃ failure, (goTextOfFile s source options >>= fun go =>
      findTool s "go" >>= next go).Ends v (.error (.failed failure)) v ∧
        ∀ cause, failure ≠ .noTape cause := by
  have hgo := ends_goTextOfFile s source options v
  cases hresult : goTextAt s v.files source options with
  | error failure =>
      rw [hresult] at hgo
      exact ⟨failure, hgo.bind_error, ne_noTape_of_goTextAt hresult⟩
  | ok go =>
      rw [hresult] at hgo
      exact ⟨.toolNotFound "go", hgo.bind (ends_findTool_of_none h v).bind_error, nofun⟩

/-- A command that is refused ends with a failure in the world it started in.  Only a command that
interprets a program can break down. -/
theorem ends_of_refused (h : Refused s.cwd s.tool? v.files command) :
    ∃ failure, (execute s command).Ends v (.error (.failed failure)) v ∧
      ∀ cause, failure = .noTape cause ↔ BreaksDown s.cwd s.memory v.files command cause := by
  have hreported {command : Command} (hcommand : ∀ cause, ¬ BreaksDown s.cwd s.memory v.files
      command cause) : (∃ failure, (execute s command).Ends v (.error (.failed failure)) v ∧
        ∀ cause, failure ≠ .noTape cause) →
      ∃ failure, (execute s command).Ends v (.error (.failed failure)) v ∧
        ∀ cause, failure = .noTape cause ↔ BreaksDown s.cwd s.memory v.files command cause := by
    rintro ⟨failure, hends, hne⟩
    exact ⟨failure, hends, fun cause => iff_of_false (hne cause) (hcommand cause)⟩
  cases command with
  | exportGo source output options =>
      obtain ⟨⟨⟩, -⟩ | hunfit := h.unfit rfl
      exact hreported nofun (ends_goTextOfFile_bind options hunfit)
  | build source output packed options =>
      obtain ⟨-, hgo⟩ | hunfit := h.unfit rfl
      · exact hreported nofun (ends_findGo_bind source options hgo v)
      · exact hreported nofun (ends_goTextOfFile_bind options hunfit)
  | run source options =>
      obtain ⟨-, hgo⟩ | hunfit := h.unfit rfl
      · exact hreported nofun (ends_findGo_bind source options hgo v)
      · exact hreported nofun (ends_goTextOfFile_bind options hunfit)
  | emit source options =>
      obtain ⟨⟨⟩, -⟩ | hunfit := h.unfit rfl
      exact hreported nofun (ends_goTextOfFile_bind options hunfit)
  | interpret program maxSteps options =>
      cases program with
      | source source =>
          obtain ⟨⟨⟩, -⟩ | hunfit := h.unfit rfl
          exact ends_interpret_of_unfit maxSteps options hunfit
      | saved path =>
          cases h with
          | noGo hneeds _ => cases hneeds
          | unreadable hs _ | empty hs _ _ | unbalanced hs _ _ _ => cases hs
  | list source request options =>
      exact hreported nofun (ends_list_of_empty request options (h.empty_of_listing rfl rfl))

/-- **A program that is refused leaves no trace.**  If the source file of a command cannot be
read as text or has no instruction, or if its brackets are not balanced and it is not just to
be listed, or if there is no Go tool for a command that needs one, then the command line fails,
all files are as they were, nothing has been printed and no tool has been started.  It breaks down
exactly if it interprets a text with instructions and there is no memory for the tape it asks for;
the exit status is 1 in all other cases and in no other. -/
theorem no_trace_of_refused {args : List String} {invocation : Invocation} {files : Files}
    (hargs : Usage.parse args = .ok invocation) (h : Refused s.cwd s.tool? files invocation.command)
    (directives : Option String) :
    ∃ failure w, carryOut s directives args files = .ok (.failure failure, w) ∧
      w.files = files ∧ w.stdout = [] ∧ w.calls = [] ∧
      (∀ cause, failure = .noTape cause ↔
        BreaksDown s.cwd s.memory files invocation.command cause) ∧
      ((Ending.failure failure).exitCode = 1 ↔
        ∀ cause, ¬ BreaksDown s.cwd s.memory files invocation.command cause) := by
  obtain ⟨failure, hends, hbreaks⟩ := ends_of_refused
    (s := { s with filter := Log.chosenFilter directives invocation.verbosity })
    (v := { files }) h
  obtain ⟨w, hcarry, hfiles, hstdout, hcalls⟩ := carryOut_of_ends hargs hends
  refine ⟨failure, w, hcarry, hfiles, hstdout, hcalls, hbreaks, ?_⟩
  exact failure.exitCode_eq_one_iff.trans (forall_congr' fun cause => not_congr (hbreaks cause))

/-- A listing of a file without instructions, with everything asked for that a listing can do,
fails with the exit status 1.  An open bracket that is to be interpreted on a tape larger than any
memory makes the program break down with another status. -/
theorem no_trace_of_bad_programs :
    (∃ ending w,
      carryOut {} none ["ops", "--raw", "--stats", "--emit", "a.ir", "a.bf"]
        ⟨[(["a.bf"], .file [120])]⟩ = .ok (ending, w) ∧ ending.exitCode = 1 ∧
      w.files = ⟨[(["a.bf"], .file [120])]⟩ ∧ w.stdout = [] ∧ w.calls = []) ∧
    ∃ ending w,
      carryOut {} none ["interpret", "bad.bf", "--tape-size", "18446744073709551615"]
        ⟨[(["bad.bf"], .file [91])]⟩ = .ok (ending, w) ∧ ending.exitCode = 101 ∧
      w.files = ⟨[(["bad.bf"], .file [91])]⟩ ∧ w.stdout = [] ∧ w.calls = [] := by
  constructor
  · have hargs : Usage.parse ["ops", "--raw", "--stats", "--emit", "a.ir", "a.bf"] =
        .ok ⟨0, .list "a.bf" { raw := true, stats := true, saveTo := some "a.ir" } {}⟩ := by rfl
    have hreads : Files.ReadsAs ⟨[(["a.bf"], .file [120])]⟩ [] "a.bf" "x" :=
      ⟨[120], by rfl, by decide +kernel⟩
    have hempty : ¬ Compile.HasInstruction "x" := by decide
    obtain ⟨failure, w, hcarry, hfiles, hstdout, hcalls, -, hstatus⟩ :=
      no_trace_of_refused (s := {}) hargs (.empty rfl hreads hempty) none
    exact ⟨_, w, hcarry, hstatus.2 nofun, hfiles, hstdout, hcalls⟩
  · have hargs : Usage.parse ["interpret", "bad.bf", "--tape-size", "18446744073709551615"] =
        .ok ⟨0, .interpret (.source "bad.bf") none
          { go := { tapeSize := 18446744073709551615 } }⟩ := by rfl
    have hreads : Files.ReadsAs ⟨[(["bad.bf"], .file [91])]⟩ [] "bad.bf" "[" :=
      ⟨[91], by rfl, by decide +kernel⟩
    have hinstruction : Compile.HasInstruction "[" := by decide
    have hunbalanced : ¬ Direct.Balanced "[" := by decide
    obtain ⟨failure, w, hcarry, hfiles, hstdout, hcalls, hbreaks, -⟩ :=
      no_trace_of_refused (s := {}) hargs (.unbalanced rfl hreads hunbalanced rfl) none
    cases (hbreaks .tooLarge).2 (.intro hreads hinstruction rfl)
    exact ⟨_, w, hcarry, rfl, hfiles, hstdout, hcalls⟩

end Session

end Brainfuck
