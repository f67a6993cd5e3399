import Brainfuck.Proofs.Command.Lines
import Brainfuck.Proofs.Files.Writing
import Brainfuck.Proofs.Peephole.NormalForm
import Brainfuck.Proofs.SavedProgram.RoundTrip
import Brainfuck.Proofs.Session.Effects

/-!
# A saved program runs as its source text does

A program can be run from its source text, or it can be saved first and loaded back later.
The two ways meet in one list of operations, which is all that the machine is given: what is
saved is read back from its file, loads as what it was, and has not been cut short by the
number of operations a file can tell.

* `Compile.length_apply_le`, `Wire.length_le_of_ofUtf8?` — a program has no more operations
  than its file has bytes.
* `Session.Runs` — how a command ends that runs a program, and what it prints.
* `Session.ends_list_saving` — a listing that succeeds has saved the program of its text.
* `Session.saved_runs_as_source` — running the saved program and running the source text end
  alike.
-/

namespace Brainfuck

/-! ## How many operations a file can hold -/

theorem Op.length_le_length_expand {ops : List Op} (h : ∀ op ∈ ops, op.Counted) :
    ops.length ≤ (ops.flatMap Op.expand).length := by
  induction ops with
  | nil => exact Nat.le_refl 0
  | cons op ops ih =>
      obtain ⟨hop, hops⟩ := List.forall_mem_cons.1 h
      have hpos : 0 < op.expand.length := (Op.sound_expand hop).length_pos
      have hle := ih hops
      rw [List.flatMap_cons, List.length_append, List.length_cons]
      omega

theorem Compile.length_apply_le (options : Compile.Options) (text : String) :
    (options.apply (Source.read text)).length ≤ text.toList.length := by
  have hcounted := Compile.counted_of_mem_apply options (@Source.counted_of_mem_read text)
  calc (options.apply (Source.read text)).length
      ≤ ((options.apply (Source.read text)).flatMap Op.expand).length :=
        Op.length_le_length_expand hcounted
    _ = (Source.units text).length := by rw [Compile.expand_apply, Source.expand_read]
    _ ≤ text.toList.length := List.length_filterMap_le _ _

namespace Wire

theorem length_le_utf8ByteSize (cs : List Char) :
    cs.length ≤ (String.ofList cs).utf8ByteSize := by
  induction cs with
  | nil => exact Nat.zero_le _
  | cons c cs ih =>
      have hsize := c.utf8Size_pos
      rw [String.ofList_cons, String.utf8ByteSize_append, String.utf8ByteSize_singleton,
        List.length_cons]
      omega

theorem length_le_of_ofUtf8? {bytes : List UInt8} {text : String}
    (h : ofUtf8? bytes = some text) : text.toList.length ≤ bytes.length := by
  have hsize : text.utf8ByteSize = bytes.length := by
    unfold ofUtf8? String.fromUTF8? at h
    split at h
    · cases h
      rfl
    · cases h
  have hlength := length_le_utf8ByteSize text.toList
  rw [String.ofList_toList, hsize] at hlength
  exact hlength

end Wire

namespace SavedProgram

theorem decode_encode {p : SavedProgram} (h : p.ops.length < 2 ^ 64) :
    decode p.encode = .ok p := by
  have hread := recovers_envelope p h []
  rw [List.append_nil] at hread
  rw [decode_of_ok hread]
  rfl

end SavedProgram

namespace Session

variable {s : Setting} {v v' : World} {source saved text : String} {ops : List Op}
  {options : Compile.Options} {result : Except Halt Unit}

/-! ## Running a program -/

/-- How a command ends that runs a program on the machine, and what it prints: all that the
machine has written, also when it stops at a fault. -/
inductive Runs (memory fuel : Nat) (stdin : List UInt8) (settings : Machine.Settings)
    (ops : List Op) : Ending → List UInt8 → Prop
  /-- There is no memory for the tape. -/
  | withoutTape {cause : Machine.NoTape} :
      Machine.build memory settings = .error cause →
      Runs memory fuel stdin settings ops (.failure (.noTape cause)) []
  /-- The program comes to its end. -/
  | completed {machine : Machine} {report : Machine.Report} :
      Machine.build memory settings = .ok machine →
      machine.run fuel ops { input := stdin.toArray } = some report →
      report.fault? = none →
      Runs memory fuel stdin settings ops .success report.console.output.toList
  /-- The machine stops at a fault, or does not start a program with unmatched brackets. -/
  | faulted {machine : Machine} {report : Machine.Report} {fault : Machine.Fault} :
      Machine.build memory settings = .ok machine →
      machine.run fuel ops { input := stdin.toArray } = some report →
      report.fault? = some fault →
      Runs memory fuel stdin settings ops (.failure (.fault fault)) report.console.output.toList
  /-- The machine is given up. -/
  | unfinished {machine : Machine} :
      Machine.build memory settings = .ok machine →
      machine.run fuel ops { input := stdin.toArray } = none →
      Runs memory fuel stdin settings ops .outOfFuel []

theorem exists_ends_interpret (s : Setting) (ops : List Op) (settings : Machine.Settings) :
    ∃ result printed, Runs s.memory s.fuel s.stdin settings ops (endingOf result) printed ∧
      ∀ v, (interpret s ops settings).Ends v result { v with stdout := v.stdout ++ printed } := by
  cases hbuild : Machine.build s.memory settings with
  | error cause =>
      refine ⟨.error (.failed (.noTape cause)), [], .withoutTape hbuild, fun v => ?_⟩
      rw [List.append_nil]
      exact ends_interpret_of_noTape hbuild v
  | ok machine =>
      rw [interpret_of_build hbuild]
      cases hrun : machine.run s.fuel ops { input := s.stdin.toArray } with
      | none =>
          refine ⟨.error .outOfFuel, [], .unfinished hbuild hrun, fun v => ?_⟩
          simp only [interpretOn, hrun, List.append_nil]
          exact ends_throw _ v
      | some report =>
          have hends := ends_interpretOn hrun
          cases hfault : report.fault? with
          | none =>
              rw [hfault] at hends
              exact ⟨.ok (), _, .completed hbuild hrun hfault, hends⟩
          | some fault =>
              rw [hfault] at hends
              exact ⟨.error (.failed (.fault fault)), _, .faulted hbuild hrun hfault, hends⟩

theorem ends_loadProgram_saved {bytes : List UInt8} {p : SavedProgram}
    (hread : v.files.read s.cwd saved = .ok bytes) (hdecode : SavedProgram.decode bytes = .ok p)
    (options : Compile.Options) : (loadProgram s (.saved saved) options).Ends v (.ok p.ops) v := by
  have hbytes := ends_readBytes s saved v
  rw [hread] at hbytes
  refine hbytes.bind ?_
  rw [hdecode]
  exact ends_pure p.ops v

theorem ends_loadProgram_source (hread : v.files.ReadsAs s.cwd source text)
    (hprogram : Compile.program options text = .ok ops) :
    (loadProgram s (.source source) options).Ends v (.ok ops) v :=
  (ends_readText_of_reads hread).bind (ends_programOf_of_ok hprogram v)

/-! ## Saving a program -/

theorem ends_list_of_write {fs : Files} (hread : v.files.ReadsAs s.cwd source text)
    (hprogram : Compile.program options text = .ok ops)
    (hwrite : v.files.write s.cwd saved (SavedProgram.encode ⟨options.shorten, ops⟩) = .ok fs) :
    (list s source { saveTo := some saved } options).Ends v (.ok ())
      { v with files := fs, stdout := v.stdout ++ Wire.utf8 (Listing.titled ops) } := by
  have hops := ends_programOf_of_ok (s := s) hprogram v
  have hprint := ends_print (Wire.utf8 (Listing.titled ops)) v
  refine (ends_readText_of_reads hread).bind (hops.bind (hprint.bind ?_))
  have hsave := ends_writeBytes
    (v := { v with stdout := v.stdout ++ Wire.utf8 (Listing.titled ops) }) hwrite
  refine hsave.bind ?_
  exact ends_log s _ _

theorem ends_list_of_write_error {cause : FileError} (hread : v.files.ReadsAs s.cwd source text)
    (hprogram : Compile.program options text = .ok ops)
    (hwrite : v.files.write s.cwd saved (SavedProgram.encode ⟨options.shorten, ops⟩) =
      .error cause) :
    (list s source { saveTo := some saved } options).Ends v
      (.error (.failed (.unwritable saved cause)))
      { v with stdout := v.stdout ++ Wire.utf8 (Listing.titled ops) } := by
  have hops := ends_programOf_of_ok (s := s) hprogram v
  have hprint := ends_print (Wire.utf8 (Listing.titled ops)) v
  refine (ends_readText_of_reads hread).bind (hops.bind (hprint.bind ?_))
  have hsave := ends_writeBytes_error
    (v := { v with stdout := v.stdout ++ Wire.utf8 (Listing.titled ops) }) hwrite
  exact hsave.bind_error

/-- A listing that is to save the program of its text does so, or fails. -/
theorem ends_list_saving (s : Setting) (source saved : String) (options : Compile.Options)
    (v : World) :
    (∃ failure v', (list s source { saveTo := some saved } options).Ends v
      (.error (.failed failure)) v') ∨
    ∃ text ops fs v', v.files.ReadsAs s.cwd source text ∧
      Compile.program options text = .ok ops ∧
      v.files.write s.cwd saved (SavedProgram.encode ⟨options.shorten, ops⟩) = .ok fs ∧
      v'.files = fs ∧ (list s source { saveTo := some saved } options).Ends v (.ok ()) v' := by
  have hread := ends_readText s source v
  cases htext : textAt s v.files source with
  | error failure =>
      rw [htext] at hread
      exact .inl ⟨failure, v, hread.bind_error⟩
  | ok text =>
      rw [htext] at hread
      have hprogram := ends_programOf s options text v
      cases hops : Compile.program options text with
      | error cause =>
          rw [hops] at hprogram
          exact .inl ⟨.rejected cause, v, hread.bind hprogram.bind_error⟩
      | ok ops =>
          have hreads := textAt_eq_ok_iff.1 htext
          cases hwrite : v.files.write s.cwd saved
              (SavedProgram.encode ⟨options.shorten, ops⟩) with
          | error cause => exact .inl ⟨_, _, ends_list_of_write_error hreads hops hwrite⟩
          | ok fs => exact .inr ⟨text, ops, fs, _, hreads, hops, hwrite, rfl,
              ends_list_of_write hreads hops hwrite⟩

/-- A listing that succeeds has saved the program of its text. -/
theorem saved_of_success {files : Files} {directives : Option String} {noOptimize : Bool}
    {ending : Ending} {w : World} (hsource : Usage.IsWord source) (hsaved : Usage.IsWord saved)
    (h : carryOut s directives
      (["ops", source] ++ Usage.optimizeArgs noOptimize ++ ["--emit", saved]) files =
        .ok (ending, w))
    (hcode : ending.exitCode = 0) :
    ∃ text ops, files.ReadsAs s.cwd source text ∧
      Compile.program { shorten := !noOptimize } text = .ok ops ∧
      files.write s.cwd saved (SavedProgram.encode ⟨!noOptimize, ops⟩) = .ok w.files := by
  have hparse := Usage.parse_ops hsource hsaved noOptimize
  rcases ends_list_saving { s with filter := Log.chosenFilter directives 0 } source saved
    { shorten := !noOptimize } { files } with
    ⟨failure, v', hends⟩ | ⟨text, ops, fs, v', hreads, hprogram, hwrite, hfiles, hends⟩
  · obtain ⟨w', hcarry, -⟩ := carryOut_of_ends hparse hends
    rw [h] at hcarry
    cases hcarry
    exact absurd hcode failure.exitCode_ne_zero
  · obtain ⟨w', hcarry, halike⟩ := carryOut_of_ends hparse hends
    rw [h] at hcarry
    cases hcarry
    rw [halike.files, hfiles]
    exact ⟨text, ops, hreads, hprogram, hwrite⟩

/-! ## Running what has been saved -/

theorem eq_apply_of_program (h : Compile.program options text = .ok ops) :
    ops = options.apply (Source.read text) := by
  unfold Compile.program at h
  split at h
  · cases h
  · exact (Except.ok.inj h).symm

/-- The program of a text that has been read from bytes can be saved. -/
theorem length_ops_lt {bytes : List UInt8} (hbytes : bytes.length < 2 ^ 64)
    (htext : Wire.ofUtf8? bytes = some text)
    (hprogram : Compile.program options text = .ok ops) : ops.length < 2 ^ 64 := by
  rw [eq_apply_of_program hprogram]
  exact ((Compile.length_apply_le options text).trans
    (Wire.length_le_of_ofUtf8? htext)).trans_lt hbytes

/-- **A saved program runs as its source text does.**  If the program of a source file is
saved to another file, then that file loads as the program, marked as shortened unless this
was switched off, and a shortened program has nothing left to shorten.  A command line that
runs the saved program and one that runs the source text with the same switch both end alike,
for every size of the tape, every limit and every input, and have printed what the machine
has written up to its end or up to a fault. -/
theorem saved_runs_as_source {source saved tapeText : String} {tape : Nat}
    {limit? : Option String} {noOptimize : Bool} {s₀ s : Setting} {files : Files}
    {directives₀ : Option String} {ending₀ : Ending} {w₀ : World}
    (hsource : Usage.IsWord source) (hsaved : Usage.IsWord saved)
    (htape : Usage.number? tapeText = some tape)
    (hlimit : ∀ text ∈ limit?, (Usage.number? text).isSome)
    (hplaces : files.follow s₀.cwd source ≠ files.follow s₀.cwd saved)
    (hsize : ∀ content, files.read s₀.cwd source = .ok content → content.length < 2 ^ 64)
    (hops : carryOut s₀ directives₀
      (["ops", source] ++ Usage.optimizeArgs noOptimize ++ ["--emit", saved]) files =
        .ok (ending₀, w₀))
    (hcode : ending₀.exitCode = 0) (hcwd : s.cwd = s₀.cwd) (directives : Option String) :
    ∃ bytes ops ending w₁ w₂,
      w₀.files.read s.cwd saved = .ok bytes ∧
      SavedProgram.decode bytes = .ok ⟨!noOptimize, ops⟩ ∧
      (noOptimize = false → Peephole.shorten ops = ops) ∧
      carryOut s directives
        (["interpret", "--ir", saved, "--tape-size", tapeText] ++ Usage.limitArgs limit?)
        w₀.files = .ok (ending, w₁) ∧
      carryOut s directives
        (["interpret", source] ++ Usage.optimizeArgs noOptimize ++ ["--tape-size", tapeText] ++
          Usage.limitArgs limit?) w₀.files = .ok (ending, w₂) ∧
      w₁.stdout = w₂.stdout ∧
      Runs s.memory s.fuel s.stdin ⟨tape, Usage.maxSteps limit?⟩ ops ending w₁.stdout := by
  obtain ⟨text, ops, ⟨content, hcontent, htext⟩, hprogram, hwrite⟩ :=
    saved_of_success hsource hsaved hops hcode
  have hlength := length_ops_lt (hsize content hcontent) htext hprogram
  have hbytes := Files.read_of_write hwrite
  have hkept := Files.read_of_write_elsewhere hwrite hplaces hcontent
  rw [← hcwd] at hbytes hkept
  have hdecode := SavedProgram.decode_encode (p := ⟨!noOptimize, ops⟩) hlength
  -- both lines are carried out in one setting, since neither asks for more log output
  let s' : Setting := { s with filter := Log.chosenFilter directives 0 }
  let v : World := { files := w₀.files }
  obtain ⟨result, printed, hruns, hinterpret⟩ :=
    exists_ends_interpret s' ops ⟨tape, Usage.maxSteps limit?⟩
  have hends₁ : (execute s' (.interpret (.saved saved) (Usage.maxSteps limit?)
      { go := { tapeSize := tape } })).Ends v result _ :=
    (ends_loadProgram_saved (s := s') (v := v) hbytes hdecode _).bind (hinterpret v)
  have hends₂ : (execute s' (.interpret (.source source) (Usage.maxSteps limit?)
      { shorten := !noOptimize, go := { tapeSize := tape } })).Ends v result _ :=
    (ends_loadProgram_source (s := s') (v := v) ⟨content, hkept, htext⟩ hprogram).bind
      (hinterpret v)
  obtain ⟨w₁, hcarry₁, halike₁⟩ :=
    carryOut_of_ends (Usage.parse_interpret_saved hsaved htape hlimit) hends₁
  obtain ⟨w₂, hcarry₂, halike₂⟩ :=
    carryOut_of_ends (Usage.parse_interpret_source hsource noOptimize htape hlimit) hends₂
  refine ⟨_, ops, endingOf result, w₁, w₂, hbytes, hdecode, ?_, hcarry₁, hcarry₂,
    halike₁.stdout.trans halike₂.stdout.symm, ?_⟩
  · rintro rfl
    rw [eq_apply_of_program hprogram]
    exact Peephole.shorten_shorten (Source.read text)
  · rw [halike₁.stdout]
    exact hruns

/-- A program that writes a byte and then leaves the tape. -/
theorem saved_runs_as_source_off_tape :
    ∃ w₀ ending w₁ w₂,
      carryOut {} none ["ops", "a.bf", "--emit", "a.ir"] ⟨[(["a.bf"], .file [46, 60])]⟩ =
        .ok (.success, w₀) ∧
      carryOut { fuel := 9 } none
        ["interpret", "--ir", "a.ir", "--tape-size", "1", "--max-steps", "7"] w₀.files =
          .ok (ending, w₁) ∧
      carryOut { fuel := 9 } none
        ["interpret", "a.bf", "--tape-size", "1", "--max-steps", "7"] w₀.files =
          .ok (ending, w₂) ∧
      w₁.stdout = w₂.stdout := by
  have hsource : Usage.IsWord "a.bf" := ⟨by decide, by simp⟩
  have hsaved : Usage.IsWord "a.ir" := ⟨by decide, by simp⟩
  have htape : Usage.number? "1" = some 1 := by decide
  have hlimit : ∀ text ∈ some "7", (Usage.number? text).isSome := by
    rintro _ ⟨⟩
    decide
  have hcontent : Files.read ⟨[(["a.bf"], .file [46, 60])]⟩ [] "a.bf" = .ok [46, 60] := by rfl
  have hsize : ∀ content, Files.read ⟨[(["a.bf"], .file [46, 60])]⟩ [] "a.bf" = .ok content →
      content.length < 2 ^ 64 := by
    intro content h
    cases hcontent.symm.trans h
    decide
  have hprogram : Compile.program {} ".<" = .ok [.output, .run .left 1] := by rfl
  have hwrite : Files.write ⟨[(["a.bf"], .file [46, 60])]⟩ [] "a.ir"
      (SavedProgram.encode ⟨true, [.output, .run .left 1]⟩) =
        .ok ⟨[(["a.bf"], .file [46, 60]),
          (["a.ir"], .file (SavedProgram.encode ⟨true, [.output, .run .left 1]⟩))]⟩ := by rfl
  obtain ⟨w₀, hops, -⟩ := carryOut_of_ends (s := {}) (Usage.parse_ops hsource hsaved false)
    (ends_list_of_write ⟨[46, 60], hcontent, by decide +kernel⟩ hprogram hwrite)
  obtain ⟨-, -, ending, w₁, w₂, -, -, -, hinterpret, hinterpret', hstdout, -⟩ :=
    saved_runs_as_source (s := { fuel := 9 }) hsource hsaved htape hlimit (by decide +kernel)
      hsize hops rfl rfl none
  exact ⟨w₀, ending, w₁, w₂, hops, hinterpret, hinterpret', hstdout⟩

end Session

end Brainfuck
