import Brainfuck.Proofs.Files.Writing
import Brainfuck.Proofs.Session.Effects

/-!
# The stages of a build

A build reads its source file, compiles the text, looks for the Go tool, saves the Go text,
runs the Go tool on it and, if this is asked for, looks for the packer and runs it on the
executable.  The first stage that fails ends the build.

* `Build` — what is asked of a build.
* `Build.Compiles`, `Build.Saves`, `Build.Builds`, `Build.Succeeds` — how far a build comes.
* `Build.FailsWith` — the failure of the first stage that fails.
* `Build.Proper` — what holds of the tools that are started, in their order.
* `Session.build_stages` — a build starts tools as it should, and ends with the failure of
  the first stage that fails, if there is one.
-/

namespace Brainfuck

open Session

/-- The status a tool ended with when it was started, if it could be. -/
def ToolCall.status? (call : ToolCall) (cwd : Location) (tools : String → Option Tool) :
    Option ExitStatus :=
  match tools call.name with
  | some (.program behave) => some (behave call.args cwd call.found).status
  | _ => none

/-- The name of a tool that is started, and its arguments. -/
def ToolCall.line (call : ToolCall) : String × List String := (call.name, call.args)

/-- What is asked of a build. -/
structure Build where
  source : String
  output : String
  /-- Is the executable to be packed? -/
  packed : Bool
  options : Compile.Options

namespace Build

/-- The command that asks for the build. -/
def command (b : Build) : Command := .build b.source b.output b.packed b.options

/-- The path of the Go text. -/
def goFile (b : Build) : String := Path.goFile b.output

/-- The path of the executable. -/
def exe (b : Build) : String := Path.executable b.output

/-- The arguments of the Go tool. -/
def goArgs (b : Build) : List String := ["build", "-ldflags", "-s -w", "-o", b.exe, b.goFile]

/-- The arguments of the packer. -/
def packArgs (b : Build) : List String := ["--brute", b.exe]

/-- The tools of a build that succeeds, with their arguments and in their order. -/
def tools (b : Build) : List (String × List String) :=
  ("go", b.goArgs) :: if b.packed then [("upx", b.packArgs)] else []

/-! ## How far a build comes -/

section Stages

variable (b : Build) (cwd : Location) (found : String → Option Tool) (fs : Files)

/-- The source file holds a text that is compiled to `go`. -/
def Compiles (go : String) : Prop :=
  ∃ text, fs.ReadsAs cwd b.source text ∧ Compile.goText b.options text = .ok go

/-- There is a Go tool, and the Go text is saved for it. -/
def Saves (tool : Tool) (saved : Files) : Prop :=
  ∃ go, b.Compiles cwd fs go ∧ found "go" = some tool ∧
    fs.write cwd b.goFile (Wire.utf8 go) = .ok saved

/-- The Go tool ends with the status 0 and leaves the files `built`. -/
def Builds (built : Files) : Prop :=
  ∃ behave saved, b.Saves cwd found fs (.program behave) saved ∧
    (behave b.goArgs cwd saved).status = .code 0 ∧ (behave b.goArgs cwd saved).files = built

/-- The packer ends with the status 0 as well, if it is asked for. -/
def Succeeds : Prop :=
  ∃ built, b.Builds cwd found fs built ∧
    (b.packed = true → ∃ behave, found "upx" = some (.program behave) ∧
      (behave b.packArgs cwd built).status = .code 0)

/-- The failure of the first stage that fails: all stages before it succeed. -/
inductive FailsWith : Failure → Prop
  /-- The source file cannot be read. -/
  | reading {cause : FileError} : fs.read cwd b.source = .error cause →
      FailsWith (.unreadable b.source cause)
  /-- The source file is not a text. -/
  | decoding {bytes : List UInt8} : fs.read cwd b.source = .ok bytes →
      Wire.ofUtf8? bytes = none → FailsWith (.unreadable b.source .notUtf8)
  /-- The source text is rejected. -/
  | compiling {text : String} {cause : Compile.Rejection} : fs.ReadsAs cwd b.source text →
      Compile.goText b.options text = .error cause → FailsWith (.rejected cause)
  /-- There is no Go tool. -/
  | findingGo {go : String} : b.Compiles cwd fs go → found "go" = none →
      FailsWith (.toolNotFound "go")
  /-- The Go text cannot be saved. -/
  | saving {go : String} {tool : Tool} {cause : FileError} : b.Compiles cwd fs go →
      found "go" = some tool → fs.write cwd b.goFile (Wire.utf8 go) = .error cause →
      FailsWith (.unwritable b.goFile cause)
  /-- The Go tool cannot be started or ends with another status than 0. -/
  | runningGo {tool : Tool} {saved : Files} {failure : Failure} :
      b.Saves cwd found fs tool saved → tool.trouble? "go" b.goArgs cwd saved = some failure →
      FailsWith failure
  /-- There is no packer. -/
  | findingPacker {built : Files} : b.Builds cwd found fs built → b.packed = true →
      found "upx" = none → FailsWith (.toolNotFound "upx")
  /-- The packer cannot be started or ends with another status than 0. -/
  | packing {built : Files} {tool : Tool} {failure : Failure} :
      b.Builds cwd found fs built → b.packed = true → found "upx" = some tool →
      tool.trouble? "upx" b.packArgs cwd built = some failure → FailsWith failure

/-- What holds of the tools that are started, in their order. -/
structure Proper (calls : List ToolCall) : Prop where
  /-- They are the first of the tools of a build, or all of them. -/
  order : calls.map ToolCall.line <+: b.tools
  /-- The Go tool finds the Go text for the source file, and the executable it is asked for
  belongs somewhere else. -/
  finds : ∀ call ∈ calls, call.name = "go" →
    (∃ go, b.Compiles cwd fs go ∧ call.found.read cwd b.goFile = .ok (Wire.utf8 go)) ∧
      b.exe ≠ b.goFile ∧ call.found.follow cwd b.exe ≠ call.found.follow cwd b.goFile
  /-- The packer is started behind a Go tool that has ended with the status 0. -/
  follows : ∀ before call rest, calls = before ++ call :: rest → call.name = "upx" →
    ∃ earlier ∈ before, earlier.name = "go" ∧ earlier.status? cwd found = some (.code 0)

end Stages

variable {b : Build} {cwd : Location} {found : String → Option Tool} {fs saved : Files}
  {tool : Tool} {behave : List String → Location → Files → ToolRun}

/-- No stage of a build breaks down. -/
theorem FailsWith.ne_noTape {failure : Failure} (h : b.FailsWith cwd found fs failure)
    (cause : Machine.NoTape) : failure ≠ .noTape cause := by
  cases h with
  | runningGo _ htrouble => exact Tool.ne_noTape_of_trouble htrouble cause
  | packing _ _ _ htrouble => exact Tool.ne_noTape_of_trouble htrouble cause
  | _ => nofun

/-- Every build succeeds or has a first stage that fails. -/
theorem succeeds_or_failsWith (b : Build) (cwd : Location) (found : String → Option Tool)
    (fs : Files) : b.Succeeds cwd found fs ∨ ∃ failure, b.FailsWith cwd found fs failure := by
  rcases hread : fs.read cwd b.source with cause | bytes
  · exact .inr ⟨_, .reading hread⟩
  rcases htext : Wire.ofUtf8? bytes with _ | text
  · exact .inr ⟨_, .decoding hread htext⟩
  have hreads : fs.ReadsAs cwd b.source text := ⟨bytes, hread, htext⟩
  rcases hgo : Compile.goText b.options text with cause | go
  · exact .inr ⟨_, .compiling hreads hgo⟩
  have hcompiles : b.Compiles cwd fs go := ⟨text, hreads, hgo⟩
  rcases htool : found "go" with _ | tool
  · exact .inr ⟨_, .findingGo hcompiles htool⟩
  rcases hwrite : fs.write cwd b.goFile (Wire.utf8 go) with cause | saved
  · exact .inr ⟨_, .saving hcompiles htool hwrite⟩
  have hsaves : b.Saves cwd found fs tool saved := ⟨go, hcompiles, htool, hwrite⟩
  rcases hrun : tool.trouble? "go" b.goArgs cwd saved with _ | failure
  swap
  · exact .inr ⟨_, .runningGo hsaves hrun⟩
  obtain ⟨behave, rfl, hstatus⟩ := Tool.exists_program hrun
  have hbuilds : b.Builds cwd found fs _ := ⟨behave, saved, hsaves, hstatus, rfl⟩
  cases hpacked : b.packed with
  | false => exact .inl ⟨_, hbuilds, by simp [hpacked]⟩
  | true =>
      rcases hpacker : found "upx" with _ | packer
      · exact .inr ⟨_, .findingPacker hbuilds hpacked hpacker⟩
      rcases hpack : packer.trouble? "upx" b.packArgs cwd (behave b.goArgs cwd saved).files
        with _ | failure
      · obtain ⟨behave', rfl, hstatus'⟩ := Tool.exists_program hpack
        exact .inl ⟨_, hbuilds, fun _ => ⟨behave', hpacker, hstatus'⟩⟩
      · exact .inr ⟨_, .packing hbuilds hpacked hpacker hpack⟩

/-! ## Tools in their order -/

theorem proper_nil : b.Proper cwd found fs [] where
  order := List.nil_prefix
  finds := by simp
  follows := by simp

/-- What the Go tool finds when the Go text has been saved. -/
theorem Saves.finds (h : b.Saves cwd found fs tool saved) :
    (∃ go, b.Compiles cwd fs go ∧ saved.read cwd b.goFile = .ok (Wire.utf8 go)) ∧
      b.exe ≠ b.goFile ∧ saved.follow cwd b.exe ≠ saved.follow cwd b.goFile := by
  obtain ⟨go, hcompiles, -, hwrite⟩ := h
  exact ⟨⟨go, hcompiles, Files.read_of_write hwrite⟩, Path.executable_ne_goFile b.output,
    Files.follow_executable_ne b.output hwrite⟩

theorem Saves.proper_go (h : b.Saves cwd found fs tool saved) :
    b.Proper cwd found fs [⟨"go", b.goArgs, saved⟩] where
  order := by simp [tools, ToolCall.line]
  finds := by simpa using h.finds
  follows := by
    intro before call rest hcalls hname
    rcases before with _ | ⟨first, before⟩
    · cases hcalls
      simp at hname
    · simp at hcalls

theorem Saves.proper_pack (h : b.Saves cwd found fs (.program behave) saved)
    (hstatus : (behave b.goArgs cwd saved).status = .code 0) (hpacked : b.packed = true)
    (built : Files) :
    b.Proper cwd found fs [⟨"go", b.goArgs, saved⟩, ⟨"upx", b.packArgs, built⟩] where
  order := by simp [tools, ToolCall.line, hpacked]
  finds := by simpa using h.finds
  follows := by
    intro before call rest hcalls hname
    rcases before with _ | ⟨first, before⟩
    · cases hcalls
      simp at hname
    · obtain ⟨-, -, htool, -⟩ := h
      obtain ⟨rfl, -⟩ := List.cons.inj hcalls
      exact ⟨_, List.mem_cons_self, rfl, by simp only [ToolCall.status?, htool, hstatus]⟩

end Build

namespace Session

variable {s : Setting} {b : Build} {v v' : World} {go : String} {tool : Tool} {saved : Files}
  {result : Except Halt Unit} {failure : Failure}

/-! ## From stage to stage -/

theorem goTextAt_of_compiles (h : b.Compiles s.cwd v.files go) :
    goTextAt s v.files b.source b.options = .ok go := by
  obtain ⟨text, hreads, hgo⟩ := h
  rw [goTextAt_of_reads b.options hreads, hgo]
  rfl

theorem ends_of_compiles {next : String → Session Unit} (h : b.Compiles s.cwd v.files go)
    (hnext : (next go).Ends v result v') :
    (goTextOfFile s b.source b.options >>= next).Ends v result v' := by
  have hgo := ends_goTextOfFile s b.source b.options v
  rw [goTextAt_of_compiles h] at hgo
  exact hgo.bind hnext

theorem ends_saveGo {output : String}
    (h : v.files.write s.cwd (Path.goFile output) (Wire.utf8 go) = .ok saved) :
    (saveGo s go output).Ends v (.ok (Path.goFile output)) { v with files := saved } :=
  (ends_writeBytes h).bind ((ends_log s _ _).bind (ends_pure _ _))

theorem ends_saveGo_error {output : String} {cause : FileError}
    (h : v.files.write s.cwd (Path.goFile output) (Wire.utf8 go) = .error cause) :
    (saveGo s go output).Ends v (.error (.failed (.unwritable (Path.goFile output) cause))) v :=
  (ends_writeBytes_error h).bind_error

/-- What is left of a build when the Go tool has ended. -/
def finishBuilt (s : Setting) (b : Build) : Session Unit := do
  if b.packed then pack s b.exe
  report ("Built " ++ b.exe)

/-- What is left of a build when the Go text is saved. -/
def finish (s : Setting) (b : Build) (tool : Tool) : Session Unit := do
  buildExecutable s tool b.goFile b.exe
  finishBuilt s b

theorem ends_of_not_saved {cause : FileError} (hcompiles : b.Compiles s.cwd v.files go)
    (htool : s.tool? "go" = some tool)
    (hwrite : v.files.write s.cwd b.goFile (Wire.utf8 go) = .error cause) :
    (execute s b.command).Ends v (.error (.failed (.unwritable b.goFile cause))) v := by
  refine ends_of_compiles hcompiles ((ends_findTool_of_some htool v).bind ?_)
  exact (ends_saveGo_error hwrite).bind_error

theorem ends_of_saves (h : b.Saves s.cwd s.tool? v.files tool saved)
    (hfinish : (finish s b tool).Ends { v with files := saved } result v') :
    (execute s b.command).Ends v result v' := by
  obtain ⟨go, hcompiles, htool, hwrite⟩ := h
  refine ends_of_compiles hcompiles ((ends_findTool_of_some htool v).bind ?_)
  exact (ends_saveGo hwrite).bind hfinish

theorem ends_buildExecutable (goFile exe : String)
    (h : (start s "go" tool ["build", "-ldflags", "-s -w", "-o", exe, goFile]).Ends v result v') :
    (buildExecutable s tool goFile exe).Ends v result v' :=
  (ends_log s _ v).bind h

theorem ends_finish_of_trouble
    (h : tool.trouble? "go" b.goArgs s.cwd v.files = some failure) :
    (finish s b tool).Ends v (.error (.failed failure)) (afterStart s "go" tool b.goArgs v) :=
  (ends_buildExecutable b.goFile b.exe (ends_start_of_some h)).bind_error

theorem ends_finish (h : tool.trouble? "go" b.goArgs s.cwd v.files = none)
    (hrest : (finishBuilt s b).Ends (afterStart s "go" tool b.goArgs v) result v') :
    (finish s b tool).Ends v result v' :=
  (ends_buildExecutable b.goFile b.exe (ends_start_of_none h)).bind hrest

theorem ends_finishBuilt_of_not_packed (hpacked : b.packed = false) :
    (finishBuilt s b).Ends v (.ok ()) v := by
  unfold finishBuilt
  rw [hpacked]
  exact ends_report _ v

theorem ends_finishBuilt_of_packed (hpacked : b.packed = true)
    (h : (pack s b.exe).Ends v result v') : (finishBuilt s b).Ends v result v' := by
  unfold finishBuilt
  rw [hpacked]
  rcases result with halt | ⟨⟩
  · exact h.bind_error
  · exact h.bind (ends_report _ v')

theorem ends_pack (h : s.tool? "upx" = some tool)
    (hstart : (start s "upx" tool b.packArgs).Ends v result v') :
    (pack s b.exe).Ends v result v' :=
  (ends_findTool_of_some h v).bind ((ends_log s _ v).bind hstart)

theorem ends_pack_of_none (h : s.tool? "upx" = none) :
    (pack s b.exe).Ends v (.error (.failed (.toolNotFound "upx"))) v :=
  (ends_findTool_of_none h v).bind_error

/-! ## The whole build -/

theorem ends_of_goTextAt_error (h : goTextAt s v.files b.source b.options = .error failure) :
    (execute s b.command).Ends v (.error (.failed failure)) v := by
  have hgo := ends_goTextOfFile s b.source b.options v
  rw [h] at hgo
  exact hgo.bind_error

theorem exists_ends_of_failsWith {files : Files}
    (h : b.FailsWith s.cwd s.tool? files failure) :
    ∃ v, (execute s b.command).Ends { files } (.error (.failed failure)) v ∧
      b.Proper s.cwd s.tool? files v.calls := by
  cases h with
  | reading hread =>
      refine ⟨_, ends_of_goTextAt_error ?_, Build.proper_nil⟩
      rw [goTextAt, textAt, hread]
      rfl
  | decoding hread htext =>
      have hunreadable : textAt s files b.source = .error (.unreadable b.source .notUtf8) := by
        rw [textAt_of_read hread, textOf, htext]
      refine ⟨_, ends_of_goTextAt_error ?_, Build.proper_nil⟩
      rw [goTextAt, hunreadable]
      rfl
  | compiling hreads hgo =>
      refine ⟨_, ends_of_goTextAt_error ?_, Build.proper_nil⟩
      rw [goTextAt_of_reads b.options hreads, hgo]
      rfl
  | findingGo hcompiles htool =>
      refine ⟨{ files }, ends_of_compiles hcompiles ?_, Build.proper_nil⟩
      exact (ends_findTool_of_none htool _).bind_error
  | saving hcompiles htool hwrite =>
      exact ⟨{ files }, ends_of_not_saved hcompiles htool hwrite, Build.proper_nil⟩
  | @runningGo tool saved _ hsaves htrouble =>
      refine ⟨_, ends_of_saves hsaves (ends_finish_of_trouble htrouble), ?_⟩
      cases tool with
      | broken _ => exact Build.proper_nil
      | program behave => exact hsaves.proper_go
  | findingPacker hbuilds hpacked htool =>
      obtain ⟨behave, saved, hsaves, hstatus, rfl⟩ := hbuilds
      refine ⟨_, ends_of_saves hsaves (ends_finish (Tool.trouble?_program _ hstatus)
        (ends_finishBuilt_of_packed hpacked (ends_pack_of_none htool))), ?_⟩
      exact hsaves.proper_go
  | @packing _ packer _ hbuilds hpacked htool htrouble =>
      obtain ⟨behave, saved, hsaves, hstatus, rfl⟩ := hbuilds
      refine ⟨_, ends_of_saves hsaves (ends_finish (Tool.trouble?_program _ hstatus)
        (ends_finishBuilt_of_packed hpacked (ends_pack htool (ends_start_of_some htrouble)))), ?_⟩
      cases packer with
      | broken _ => exact hsaves.proper_go
      | program behave' => exact hsaves.proper_pack hstatus hpacked _

theorem exists_ends_of_succeeds {files : Files} (h : b.Succeeds s.cwd s.tool? files) :
    ∃ v, (execute s b.command).Ends { files } (.ok ()) v ∧
      b.Proper s.cwd s.tool? files v.calls ∧
      v.calls.map ToolCall.line = b.tools := by
  obtain ⟨_, ⟨behave, saved, hsaves, hstatus, rfl⟩, hpack⟩ := h
  have hdone := Tool.trouble?_program "go" hstatus
  cases hpacked : b.packed with
  | false =>
      refine ⟨_, ends_of_saves hsaves (ends_finish hdone
        (ends_finishBuilt_of_not_packed hpacked)), hsaves.proper_go, ?_⟩
      simp [afterStart, Build.tools, ToolCall.line, hpacked]
  | true =>
      obtain ⟨behave', htool, hstatus'⟩ := hpack hpacked
      have hdone' := Tool.trouble?_program "upx" hstatus'
      refine ⟨_, ends_of_saves hsaves (ends_finish hdone
        (ends_finishBuilt_of_packed hpacked (ends_pack htool (ends_start_of_none hdone')))),
        hsaves.proper_pack hstatus hpacked _, ?_⟩
      simp [afterStart, Build.tools, ToolCall.line, hpacked]

theorem exists_ends_build (s : Setting) (b : Build) (files : Files) :
    ∃ result v, (execute s b.command).Ends { files } result v ∧
      b.Proper s.cwd s.tool? files v.calls ∧
      (result = .ok () → v.calls.map ToolCall.line = b.tools) := by
  rcases b.succeeds_or_failsWith s.cwd s.tool? files with hsucceeds | ⟨failure, hfails⟩
  · obtain ⟨v, hends, hproper, htools⟩ := exists_ends_of_succeeds hsucceeds
    exact ⟨_, v, hends, hproper, fun _ => htools⟩
  · obtain ⟨v, hends, hproper⟩ := exists_ends_of_failsWith hfails
    exact ⟨_, v, hends, hproper, by simp⟩

theorem eq_ok_iff_succeeds {files : Files}
    (hends : (execute s b.command).Ends { files } result v) :
    result = .ok () ↔ b.Succeeds s.cwd s.tool? files := by
  constructor
  · rintro rfl
    rcases b.succeeds_or_failsWith s.cwd s.tool? files with hsucceeds | ⟨failure, hfails⟩
    · exact hsucceeds
    · obtain ⟨_, hends', -⟩ := exists_ends_of_failsWith hfails
      cases hends.result_unique hends'
  · intro hsucceeds
    obtain ⟨_, hends', -⟩ := exists_ends_of_succeeds hsucceeds
    exact hends.result_unique hends'

theorem eq_error_iff_failsWith {files : Files}
    (hends : (execute s b.command).Ends { files } result v) (failure : Failure) :
    result = .error (.failed failure) ↔ b.FailsWith s.cwd s.tool? files failure := by
  constructor
  · rintro rfl
    rcases b.succeeds_or_failsWith s.cwd s.tool? files with hsucceeds | ⟨failure', hfails⟩
    · cases (eq_ok_iff_succeeds hends).2 hsucceeds
    · obtain ⟨_, hends', -⟩ := exists_ends_of_failsWith hfails
      cases hends.result_unique hends'
      exact hfails
  · intro hfails
    obtain ⟨_, hends', -⟩ := exists_ends_of_failsWith hfails
    exact hends.result_unique hends'

/-- **The stages of a build.**  Whatever the files and the tools are, a command line that asks
for a build starts the Go tool and then the packer, or the first of them, or none, each as
described by `Build.Proper`.  It ends with the exit status 0 exactly if all stages succeed,
and all tools have then been started.  Otherwise it ends with the exit status 1 and with the
failure of the first stage that fails. -/
theorem build_stages {args : List String} {verbosity : Nat}
    (hargs : Usage.parse args = .ok ⟨verbosity, b.command⟩) (s : Setting)
    (directives : Option String) (files : Files) :
    ∃ ending w, carryOut s directives args files = .ok (ending, w) ∧
      b.Proper s.cwd s.tool? files w.calls ∧
      (ending.exitCode = 0 ↔ b.Succeeds s.cwd s.tool? files) ∧
      (ending.exitCode = 0 → w.calls.map ToolCall.line = b.tools) ∧
      (ending.exitCode ≠ 0 → ending.exitCode = 1 ∧ ∃ failure, ending = .failure failure) ∧
      ∀ failure, ending = .failure failure ↔ b.FailsWith s.cwd s.tool? files failure := by
  obtain ⟨result, v, hends, hproper, htools⟩ :=
    exists_ends_build { s with filter := Log.chosenFilter directives verbosity } b files
  obtain ⟨w, hcarry, -, -, hcalls⟩ := carryOut_of_ends hargs hends
  have hok := eq_ok_iff_succeeds hends
  have herror := eq_error_iff_failsWith hends
  rw [← hcalls] at hproper htools
  refine ⟨endingOf result, w, hcarry, hproper, exitCode_endingOf.trans hok, ?_, ?_,
    fun failure => endingOf_eq_failure_iff.trans (herror failure)⟩
  · intro hcode
    exact htools (exitCode_endingOf.1 hcode)
  · intro hcode
    rcases b.succeeds_or_failsWith s.cwd s.tool? files with hsucceeds | ⟨failure, hfails⟩
    · exact absurd (exitCode_endingOf.2 (hok.2 hsucceeds)) hcode
    · rw [(herror failure).2 hfails]
      exact ⟨(failure.exitCode_eq_one_iff).2 hfails.ne_noTape, failure, rfl⟩

/-- A Go tool that does its work, and a packer that is killed. -/
theorem build_stages_packer_killed :
    let s : Setting := { tool? := fun name =>
      if name = "go" then some (.standIn (.code 0)) else some (.standIn (.signal 9)) }
    let files : Files := ⟨[(["a.bf"], .file [43])]⟩
    ∃ ending w, carryOut s none ["build", "a.bf", "a", "--compress"] files = .ok (ending, w) ∧
      (Build.mk "a.bf" "a" true {}).Proper s.cwd s.tool? files w.calls ∧
      ending.exitCode = 1 ∧ ending = .failure (.toolFailed "upx" (.signal 9)) := by
  intro s files
  have hargs : Usage.parse ["build", "a.bf", "a", "--compress"] =
      .ok ⟨0, (Build.mk "a.bf" "a" true {}).command⟩ := by rfl
  obtain ⟨ending, w, hcarry, hproper, -, -, -, hfails⟩ := build_stages hargs s none files
  have hreads : files.ReadsAs s.cwd "a.bf" "+" := ⟨[43], by rfl, by decide +kernel⟩
  obtain ⟨go, hgo⟩ : ∃ go, Compile.goText {} "+" = .ok go := by
    have hsome : (Compile.goText {} "+").toOption.isSome = true := by decide +kernel
    rcases hgo : Compile.goText {} "+" with cause | go
    · rw [hgo] at hsome
      cases hsome
    · exact ⟨go, rfl⟩
  have hsaves : (Build.mk "a.bf" "a" true {}).Saves s.cwd s.tool? files (.standIn (.code 0))
      ⟨[(["a.bf"], .file [43]), (["a.go"], .file (Wire.utf8 go))]⟩ :=
    ⟨go, ⟨"+", hreads, hgo⟩, rfl, by rfl⟩
  have hfailure := (hfails _).2 (.packing ⟨_, _, hsaves, rfl, rfl⟩ rfl rfl rfl)
  refine ⟨ending, w, hcarry, hproper, ?_, hfailure⟩
  rw [hfailure]
  rfl

end Session

end Brainfuck
