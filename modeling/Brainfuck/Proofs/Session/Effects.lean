import Brainfuck.Command.Usage
import Brainfuck.Proofs.Compile.Verdict
import Brainfuck.Session.Execute

/-!
# What the actions of a session do

Each action of a session is described by the result it ends with and by the world it
leaves.  Messages are left out: no action ever looks at them, so that worlds which differ
in nothing else are as good as one.

* `World.Alike` — worlds that differ at most in their messages.
* `Session.Ends` — how an action ends, from any world like the given one.
* `Session.ends_goTextOfFile` — the Go text of a file is the one its text is compiled to,
  and nothing is touched to find it.
* `Session.ends_start` — a tool is entered among the calls with the files it finds.
* `Session.carryOut`, `Session.carryOut_of_ends` — a command line, and how it ends.
-/

namespace Brainfuck

/-- The worlds differ at most in the messages on the standard error. -/
structure World.Alike (w v : World) : Prop where
  files : w.files = v.files
  stdout : w.stdout = v.stdout
  calls : w.calls = v.calls

theorem World.Alike.refl (w : World) : w.Alike w := ⟨rfl, rfl, rfl⟩

/-- A file is read as a text. -/
def Files.ReadsAs (fs : Files) (cwd : Location) (path text : String) : Prop :=
  ∃ bytes, fs.read cwd path = .ok bytes ∧ Wire.ofUtf8? bytes = some text

theorem Files.ReadsAs.unique {fs : Files} {cwd : Location} {path text text' : String}
    (h : fs.ReadsAs cwd path text) (h' : fs.ReadsAs cwd path text') : text = text' := by
  obtain ⟨bytes, hbytes, htext⟩ := h
  obtain ⟨bytes', hbytes', htext'⟩ := h'
  cases hbytes.symm.trans hbytes'
  exact Option.some.inj (htext.symm.trans htext')

/-- The trouble with a tool that is started where it finds the given files: it cannot be
started, or it does not end with the status 0. -/
def Tool.trouble? (tool : Tool) (name : String) (args : List String) (cwd : Location)
    (fs : Files) : Option Failure :=
  match tool with
  | .broken cause => some (.toolNotStarted name cause)
  | .program behave =>
      let status := (behave args cwd fs).status
      if status = .code 0 then none else some (.toolFailed name status)

theorem Tool.trouble?_program {behave : List String → Location → Files → ToolRun}
    {args : List String} {cwd : Location} {fs : Files} (name : String)
    (h : (behave args cwd fs).status = .code 0) :
    (Tool.program behave).trouble? name args cwd fs = none := by
  rw [Tool.trouble?, if_pos h]

theorem Tool.exists_program {tool : Tool} {name : String} {args : List String} {cwd : Location}
    {fs : Files} (h : tool.trouble? name args cwd fs = none) :
    ∃ behave, tool = .program behave ∧ (behave args cwd fs).status = .code 0 := by
  cases tool with
  | broken cause => simp [Tool.trouble?] at h
  | program behave => exact ⟨behave, rfl, by simpa [Tool.trouble?] using h⟩

theorem Tool.ne_noTape_of_trouble {tool : Tool} {name : String} {args : List String}
    {cwd : Location} {fs : Files} {failure : Failure}
    (h : tool.trouble? name args cwd fs = some failure) (cause : Machine.NoTape) :
    failure ≠ .noTape cause := by
  rintro rfl
  cases tool with
  | broken cause => simp [Tool.trouble?] at h
  | program behave => simp [Tool.trouble?] at h

/-- Only a breakdown has another status than 1. -/
theorem Failure.exitCode_eq_one_iff (failure : Failure) :
    failure.exitCode = 1 ↔ ∀ cause, failure ≠ .noTape cause := by
  cases failure with
  | noTape cause => cases cause <;> simp [Failure.exitCode]
  | _ => simp [Failure.exitCode]

theorem Failure.exitCode_ne_zero (failure : Failure) : failure.exitCode ≠ 0 := by
  rcases failure with _ | _ | _ | (_ | _) | _ | _ | _ | _ | _ | _ <;> simp [Failure.exitCode]

namespace Session

variable {α β : Type} {x : Session α} {f : α → Session β} {a : α} {v v' v'' : World}
  {halt : Halt} {s : Setting}

/-- From any world like `v` the action ends with `result` in a world like `v'`. -/
def Ends (x : Session α) (v : World) (result : Except Halt α) (v' : World) : Prop :=
  ∀ w, w.Alike v → (x.run w).1 = result ∧ (x.run w).2.Alike v'

/-- The result of an action that fails as a computation does. -/
def answer (r : Except Failure α) : Except Halt α := r.mapError .failed

/-! ## Sequences -/

theorem run_bind (x : Session α) (f : α → Session β) (w : World) :
    (x >>= f).run w =
      match x.run w with
      | (.ok a, w') => (f a).run w'
      | (.error halt, w') => (.error halt, w') := by
  change (match x.run w with | (r, w') => ExceptT.bindCont f r w') = _
  obtain ⟨r, w'⟩ := x.run w
  cases r <;> rfl

theorem ends_pure (a : α) (v : World) : (pure a : Session α).Ends v (.ok a) v :=
  fun _ hw => ⟨rfl, hw⟩

theorem ends_throw (halt : Halt) (v : World) :
    (throw halt : Session α).Ends v (.error halt) v :=
  fun _ hw => ⟨rfl, hw⟩

theorem ends_fail (failure : Failure) (v : World) :
    (fail failure : Session α).Ends v (.error (.failed failure)) v :=
  ends_throw _ v

theorem Ends.bind {result : Except Halt β} (hx : x.Ends v (.ok a) v')
    (hf : (f a).Ends v' result v'') : (x >>= f).Ends v result v'' := by
  intro w hw
  obtain ⟨hresult, halike⟩ := hx w hw
  rw [run_bind]
  generalize x.run w = r at hresult halike
  obtain ⟨r, w'⟩ := r
  cases hresult
  exact hf w' halike

theorem Ends.bind_error (hx : x.Ends v (.error halt) v') :
    (x >>= f).Ends v (.error halt) v' := by
  intro w hw
  obtain ⟨hresult, halike⟩ := hx w hw
  rw [run_bind]
  generalize x.run w = r at hresult halike
  obtain ⟨r, w'⟩ := r
  cases hresult
  exact ⟨rfl, halike⟩

theorem Ends.result_unique {result result' : Except Halt α} (h : x.Ends v result v')
    (h' : x.Ends v result' v'') : result = result' :=
  (h v (.refl v)).1.symm.trans (h' v (.refl v)).1

/-- Two computations that touch nothing, one after the other. -/
theorem Ends.bind_answer {r : Except Failure α} {g : α → Except Failure β}
    (hx : x.Ends v (answer r) v) (hf : ∀ a, (f a).Ends v (answer (g a)) v) :
    (x >>= f).Ends v (answer (r >>= g)) v := by
  cases r with
  | error failure => exact hx.bind_error
  | ok a => exact hx.bind (hf a)

/-- An action that looks at the world first. -/
theorem ends_get {f : World → Session α} {result : Except Halt α}
    (h : ∀ w, w.Alike v → ((f w).run w).1 = result ∧ ((f w).run w).2.Alike v') :
    (get >>= f).Ends v result v' := by
  intro w hw
  rw [run_bind]
  exact h w hw

/-! ## Messages and output -/

theorem ends_report (message : String) (v : World) : (report message).Ends v (.ok ()) v :=
  fun _ hw => ⟨rfl, hw.files, hw.stdout, hw.calls⟩

theorem ends_log (s : Setting) (e : Log.Event) (v : World) : (log s e).Ends v (.ok ()) v := by
  unfold log
  split
  · exact ends_report _ v
  · exact ends_pure () v

theorem ends_logAll (s : Setting) (events : List Log.Event) (v : World) :
    (logAll s events).Ends v (.ok ()) v := by
  induction events with
  | nil => exact ends_pure () v
  | cons e rest ih => exact (ends_log s e v).bind ih

theorem ends_print (bytes : List UInt8) (v : World) :
    (print bytes).Ends v (.ok ()) { v with stdout := v.stdout ++ bytes } := by
  intro w hw
  refine ⟨rfl, hw.files, ?_, hw.calls⟩
  rw [← hw.stdout]
  rfl

/-! ## Files -/

/-- The text of the bytes in a file. -/
def textOf (path : String) (bytes : List UInt8) : Except Failure String :=
  match Wire.ofUtf8? bytes with
  | some text => .ok text
  | none => .error (.unreadable path .notUtf8)

/-- The text of a file. -/
def textAt (s : Setting) (fs : Files) (path : String) : Except Failure String :=
  (fs.read s.cwd path).mapError (.unreadable path) >>= textOf path

theorem textAt_of_read {fs : Files} {path : String} {bytes : List UInt8}
    (h : fs.read s.cwd path = .ok bytes) : textAt s fs path = textOf path bytes := by
  rw [textAt, h]
  rfl

theorem textAt_eq_ok_iff {fs : Files} {path text : String} :
    textAt s fs path = .ok text ↔ fs.ReadsAs s.cwd path text := by
  unfold Files.ReadsAs
  cases hread : fs.read s.cwd path with
  | error cause =>
      rw [textAt, hread]
      constructor
      · intro h
        cases h
      · rintro ⟨_, hbytes, -⟩
        cases hbytes
  | ok bytes =>
      rw [textAt_of_read hread, textOf]
      cases htext : Wire.ofUtf8? bytes <;> simp [htext]

theorem eq_unreadable_of_textAt {fs : Files} {path : String} {failure : Failure}
    (h : textAt s fs path = .error failure) : ∃ cause, failure = .unreadable path cause := by
  cases hread : fs.read s.cwd path with
  | error cause =>
      rw [textAt, hread] at h
      cases h
      exact ⟨cause, rfl⟩
  | ok bytes =>
      rw [textAt_of_read hread, textOf] at h
      cases htext : Wire.ofUtf8? bytes with
      | none =>
          rw [htext] at h
          cases h
          exact ⟨_, rfl⟩
      | some text =>
          rw [htext] at h
          cases h

theorem ends_readBytes (s : Setting) (path : String) (v : World) :
    (readBytes s path).Ends v
      (answer ((v.files.read s.cwd path).mapError (.unreadable path))) v := by
  refine ends_get fun w hw => ?_
  rw [hw.files]
  cases v.files.read s.cwd path with
  | error cause => exact ends_fail _ v w hw
  | ok content => exact ends_pure content v w hw

theorem ends_readText (s : Setting) (path : String) (v : World) :
    (readText s path).Ends v (answer (textAt s v.files path)) v := by
  refine (ends_readBytes s path v).bind_answer fun bytes => ?_
  unfold textOf
  cases Wire.ofUtf8? bytes with
  | none => exact ends_fail _ v
  | some text => exact ends_pure text v

theorem ends_readText_of_reads {path text : String} (h : v.files.ReadsAs s.cwd path text) :
    (readText s path).Ends v (.ok text) v := by
  have hread := ends_readText s path v
  rw [textAt_eq_ok_iff.2 h] at hread
  exact hread

theorem ends_writeBytes {path : String} {content : List UInt8} {fs : Files}
    (h : v.files.write s.cwd path content = .ok fs) :
    (writeBytes s path content).Ends v (.ok ()) { v with files := fs } := by
  refine ends_get fun w hw => ?_
  rw [hw.files, h]
  exact ⟨rfl, rfl, hw.stdout, hw.calls⟩

theorem ends_writeBytes_error {path : String} {content : List UInt8} {cause : FileError}
    (h : v.files.write s.cwd path content = .error cause) :
    (writeBytes s path content).Ends v (.error (.failed (.unwritable path cause))) v := by
  refine ends_get fun w hw => ?_
  rw [hw.files, h]
  exact ends_fail _ v w hw

/-! ## Compiling -/

theorem ends_programOf (s : Setting) (options : Compile.Options) (text : String) (v : World) :
    (programOf s options text).Ends v
      (answer ((Compile.program options text).mapError .rejected)) v := by
  refine (ends_logAll s _ v).bind ?_
  cases Compile.program options text with
  | error cause => exact ends_fail _ v
  | ok ops => exact ends_pure ops v

theorem ends_programOf_of_ok {options : Compile.Options} {text : String} {ops : List Op}
    (h : Compile.program options text = .ok ops) (v : World) :
    (programOf s options text).Ends v (.ok ops) v := by
  have hprogram := ends_programOf s options text v
  rw [h] at hprogram
  exact hprogram

/-- The Go text of the source text in a file. -/
def goTextAt (s : Setting) (fs : Files) (source : String) (options : Compile.Options) :
    Except Failure String := do
  let text ← textAt s fs source
  (Compile.goText options text).mapError .rejected

theorem goTextAt_of_reads {fs : Files} {source text : String} (options : Compile.Options)
    (h : fs.ReadsAs s.cwd source text) :
    goTextAt s fs source options = (Compile.goText options text).mapError .rejected := by
  rw [goTextAt, textAt_eq_ok_iff.2 h]
  rfl

theorem ne_noTape_of_goTextAt {fs : Files} {source : String} {options : Compile.Options}
    {failure : Failure} (h : goTextAt s fs source options = .error failure)
    (cause : Machine.NoTape) : failure ≠ .noTape cause := by
  rintro rfl
  cases htext : textAt s fs source with
  | error failure =>
      obtain ⟨_, rfl⟩ := eq_unreadable_of_textAt htext
      rw [goTextAt, htext] at h
      cases h
  | ok text =>
      rw [goTextAt_of_reads options (textAt_eq_ok_iff.1 htext)] at h
      cases hgo : Compile.goText options text with
      | error _ =>
          rw [hgo] at h
          cases h
      | ok _ =>
          rw [hgo] at h
          cases h

theorem ends_goTextOfFile (s : Setting) (source : String) (options : Compile.Options)
    (v : World) :
    (goTextOfFile s source options).Ends v (answer (goTextAt s v.files source options)) v := by
  refine (ends_readText s source v).bind_answer fun text => ?_
  unfold Compile.goText
  have hprogram := ends_programOf s options text v
  cases h : Compile.program options text with
  | error cause =>
      rw [h] at hprogram
      exact hprogram.bind_error
  | ok ops =>
      rw [h] at hprogram
      refine hprogram.bind ((ends_log s _ v).bind ?_)
      rw [Except.ok_bind]
      cases Go.write options.go ops with
      | error cause => exact ends_fail _ v
      | ok go => exact (ends_log s _ v).bind (ends_pure go v)

/-! ## Tools -/

/-- A tool on the search path. -/
def toolAt (s : Setting) (name : String) : Except Failure Tool :=
  match s.tool? name with
  | some tool => .ok tool
  | none => .error (.toolNotFound name)

theorem ends_findTool (s : Setting) (name : String) (v : World) :
    (findTool s name).Ends v (answer (toolAt s name)) v := by
  unfold findTool toolAt
  cases s.tool? name with
  | none => exact ends_fail _ v
  | some tool => exact ends_pure tool v

theorem ends_findTool_of_some {name : String} {tool : Tool} (h : s.tool? name = some tool)
    (v : World) : (findTool s name).Ends v (.ok tool) v := by
  have hfind := ends_findTool s name v
  rw [toolAt, h] at hfind
  exact hfind

theorem ends_findTool_of_none {name : String} (h : s.tool? name = none) (v : World) :
    (findTool s name).Ends v (.error (.failed (.toolNotFound name))) v := by
  have hfind := ends_findTool s name v
  rw [toolAt, h] at hfind
  exact hfind

/-- The world after a tool has been started. -/
def afterStart (s : Setting) (name : String) (tool : Tool) (args : List String) (v : World) :
    World :=
  match tool with
  | .broken _ => v
  | .program behave =>
      let done := behave args s.cwd v.files
      { v with
        files := done.files
        stdout := v.stdout ++ done.stdout
        calls := v.calls ++ [⟨name, args, v.files⟩] }

theorem ends_start (s : Setting) (name : String) (tool : Tool) (args : List String) (v : World) :
    (start s name tool args).Ends v
      (match tool.trouble? name args s.cwd v.files with
        | none => .ok ()
        | some failure => .error (.failed failure))
      (afterStart s name tool args v) := by
  refine (ends_log s _ v).bind ?_
  cases tool with
  | broken cause => exact ends_fail _ v
  | program behave =>
      refine ends_get fun w hw => ?_
      have hafter : (⟨(behave args s.cwd v.files).files,
          w.stdout ++ (behave args s.cwd v.files).stdout, w.stderr,
          w.calls ++ [⟨name, args, v.files⟩]⟩ : World).Alike
            (afterStart s name (.program behave) args v) :=
        ⟨rfl, by rw [hw.stdout]; rfl, by rw [hw.calls]; rfl⟩
      rw [run_bind, hw.files]
      by_cases hstatus : (behave args s.cwd v.files).status = .code 0
      · simp only [Tool.trouble?, ExitStatus.success, hstatus, decide_true, if_true]
        exact ends_pure () _ _ hafter
      · simp only [Tool.trouble?, ExitStatus.success, hstatus, decide_false, if_false]
        exact ends_fail _ _ _ hafter

theorem ends_start_of_none {name : String} {args : List String} {tool : Tool}
    (h : tool.trouble? name args s.cwd v.files = none) :
    (start s name tool args).Ends v (.ok ()) (afterStart s name tool args v) := by
  have hstart := ends_start s name tool args v
  rw [h] at hstart
  exact hstart

theorem ends_start_of_some {name : String} {args : List String} {tool : Tool}
    {failure : Failure} (h : tool.trouble? name args s.cwd v.files = some failure) :
    (start s name tool args).Ends v (.error (.failed failure))
      (afterStart s name tool args v) := by
  have hstart := ends_start s name tool args v
  rw [h] at hstart
  exact hstart

/-! ## The machine -/

variable {ops : List Op} {settings : Machine.Settings} {machine : Machine}

theorem interpret_of_build (h : Machine.build s.memory settings = .ok machine) :
    interpret s ops settings = interpretOn s ops machine := by
  rw [interpret, h]

/-- Nothing has happened where there is no memory for the tape. -/
theorem ends_interpret_of_noTape {cause : Machine.NoTape}
    (h : Machine.build s.memory settings = .error cause) (v : World) :
    (interpret s ops settings).Ends v (.error (.failed (.noTape cause))) v := by
  rw [interpret, h]
  exact ends_fail _ v

/-- What the machine has written is printed, also when it stops at a fault. -/
theorem ends_interpretOn {report : Machine.Report}
    (hrun : machine.run s.fuel ops { input := s.stdin.toArray } = some report) (v : World) :
    (interpretOn s ops machine).Ends v
      (match report.fault? with
        | none => .ok ()
        | some fault => .error (.failed (.fault fault)))
      { v with stdout := v.stdout ++ report.console.output.toList } := by
  simp only [interpretOn, hrun]
  refine (ends_print _ v).bind ?_
  cases report.fault? with
  | none => exact ends_pure () _
  | some fault => exact ends_fail _ _

/-! ## Commands -/

/-- How a session ends with a result. -/
def endingOf : Except Halt Unit → Ending
  | .ok () => .success
  | .error (.failed f) => .failure f
  | .error .outOfFuel => .outOfFuel

theorem exitCode_endingOf {result : Except Halt Unit} :
    (endingOf result).exitCode = 0 ↔ result = .ok () := by
  rcases result with (failure | _) | ⟨⟩
  · simp [endingOf, Ending.exitCode, failure.exitCode_ne_zero]
  · simp [endingOf, Ending.exitCode]
  · simp [endingOf, Ending.exitCode]

theorem endingOf_eq_failure_iff {result : Except Halt Unit} {failure : Failure} :
    endingOf result = .failure failure ↔ result = .error (.failed failure) := by
  rcases result with (_ | _) | ⟨⟩ <;> simp [endingOf]

theorem perform_of_ends {command : Command} {files : Files} {result : Except Halt Unit}
    (h : (execute s command).Ends { files } result v') :
    ∃ w, perform s command files = (endingOf result, w) ∧ w.Alike v' := by
  obtain ⟨hresult, halike⟩ := h { files } (.refl _)
  unfold perform
  generalize (execute s command).run { files } = r at hresult halike
  obtain ⟨r, w⟩ := r
  cases hresult
  refine ⟨w, ?_, halike⟩
  rcases r with (_ | _) | ⟨⟩ <;> rfl

/-- A command line is understood and the command performed.  What is logged is for the
directives and the command line to say. -/
def carryOut (s : Setting) (directives : Option String) (args : List String) (files : Files) :
    Except Usage.UsageError (Ending × World) :=
  (Usage.parse args).map fun invocation =>
    perform { s with filter := Log.chosenFilter directives invocation.verbosity }
      invocation.command files

theorem carryOut_of_ends {directives : Option String} {args : List String} {files : Files}
    {invocation : Invocation} {result : Except Halt Unit}
    (hargs : Usage.parse args = .ok invocation)
    (h : (execute { s with filter := Log.chosenFilter directives invocation.verbosity }
      invocation.command).Ends { files } result v') :
    ∃ w, carryOut s directives args files = .ok (endingOf result, w) ∧ w.Alike v' := by
  obtain ⟨w, hperform, halike⟩ := perform_of_ends h
  refine ⟨w, ?_, halike⟩
  rw [carryOut, hargs, Except.map, hperform]

end Session

end Brainfuck
