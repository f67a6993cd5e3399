import Brainfuck.Proofs.Loops.Matching
import Brainfuck.Proofs.Machine.Course

/-!
# Machines that are used again

A machine can be run and reset any number of times.  Whatever has been done with it, it
fits its settings, and it does so at every moment of a run; a run that follows cannot tell
it from a new machine.

* `Used` — a machine with some settings that has been run and reset any number of times.
* `Fits` — the tape has the size that was set, and the pointer is at a cell of it.
* `Outcome.InRange` — a run stands within its program on a machine that fits, and what has
  stopped it names an operation of the program.
* `inRange_step`, `inRange_standing` — every step keeps to this, and so does every run.
* `Used.inRange_throughout` — the invariant over whole histories.
* `Used.run_eq_fresh` — a used machine runs like a new one.
-/

namespace Brainfuck.Machine

open Loops

/-! ## Machines that fit their settings -/

/-- The machine has the settings, a tape of their size, and its pointer at a cell, or at zero
when there is none. -/
structure Fits (settings : Settings) (m : Machine) : Prop where
  settings_eq : m.settings = settings
  size_tape : m.tape.size = settings.tapeSize
  ptr_lt : m.ptr < settings.tapeSize ∨ (settings.tapeSize = 0 ∧ m.ptr = 0)

/-- A machine with the settings that has been run and reset any number of times.  What the
runs were of, what was around them and how they ended does not matter. -/
inductive Used (settings : Settings) : Machine → Prop
  | fresh : Used settings (ofSettings settings)
  | afterReset {m : Machine} : Used settings m → Used settings m.reset
  | afterRun {m : Machine} {fuel : Nat} {ops : List Op} {around : Surroundings}
      {report : Report} : Used settings m → run fuel m ops around = some report →
      Used settings report.machine

variable {settings : Settings} {m : Machine} {ops : List Op} {jumps : Jumps}
  {around : Surroundings} {s : Snapshot}

theorem fits_ofSettings (settings : Settings) : Fits settings (ofSettings settings) :=
  ⟨rfl, Array.size_replicate, (Nat.eq_zero_or_pos _).symm.imp_right fun h => ⟨h, rfl⟩⟩

/-- A machine that fits is reset to a new one. -/
theorem Fits.reset_eq (h : Fits settings m) : m.reset = ofSettings settings := by
  unfold Machine.reset ofSettings
  rw [Array.map_const', h.size_tape, h.settings_eq]

theorem Fits.of_effect (h : Fits settings m) {c c' : Console} {op : Op} {tape : Array UInt8}
    {ptr : Nat} (he : effect around m.tape m.ptr c op = .ok (tape, ptr, c')) (steps : Nat) :
    Fits settings { m with tape, ptr, steps } := by
  obtain ⟨hsize, hptr⟩ := effect_bounds he
  have hold := h.ptr_lt
  rw [h.size_tape] at hsize hptr
  exact ⟨h.settings_eq, hsize, by simp only; omega⟩

/-! ## One step -/

/-- What has stopped a run of `ops` names an operation of the program and the size of the
tape, and on a tape with cells only a move leaves it. -/
def Fault.InRange (settings : Settings) (ops : List Op) : Fault → Prop
  | .unmatchedLoop i => i < ops.length
  | .outOfTape i size =>
      i < ops.length ∧ size = settings.tapeSize ∧
        (1 ≤ settings.tapeSize →
          ∃ count, ops[i]? = some (.run .right count) ∨ ops[i]? = some (.run .left count))
  | .stepLimit _ | .refused _ => True

/-- A run of `ops` stands within its program, on a machine that fits the settings. -/
structure Snapshot.InRange (settings : Settings) (ops : List Op) (s : Snapshot) : Prop where
  fits : Fits settings s.machine
  ip_le : s.ip ≤ ops.length

/-- A run of `ops` stands within its program, and so does what has stopped it. -/
def Outcome.InRange (settings : Settings) (ops : List Op) : Outcome → Prop
  | .next s => s.InRange settings ops
  | .stop fault? s =>
      s.InRange settings ops ∧ ∀ fault, fault? = some fault → fault.InRange settings ops

theorem Outcome.InRange.snapshot {o : Outcome} (h : o.InRange settings ops) :
    o.snapshot.InRange settings ops := by
  cases o with
  | next s => exact h
  | stop fault? s => exact h.1

/-- No operation leads out of its program. -/
theorem target_le (hjumps : Jumps.ofProgram ops = .ok jumps) {ip : Nat} {op : Op}
    (hop : ops[ip]? = some op) (tape : Array UInt8) (ptr : Nat) :
    target jumps ip tape ptr op ≤ ops.length := by
  have hlt : ip < ops.length := (List.getElem?_eq_some_iff.1 hop).1
  by_cases hbracket : op.isBracket = true
  · obtain ⟨j, hj, hpair⟩ := exists_jumps_getElem? hjumps hop hbracket
    have hj' : j < ops.length := by
      rcases hpair with hpair | hpair
      · exact (List.getElem?_eq_some_iff.1 hpair.getElem?_right).1
      · exact (List.getElem?_eq_some_iff.1 hpair.getElem?_left).1
    have hentry : jumps.getD ip 0 = j := by simp [hj]
    rcases Op.eq_of_isBracket hbracket with rfl | rfl
    · simp only [target, hentry]
      split <;> omega
    · simp only [target, hentry]
      split <;> omega
  · rw [target_plain (by simpa using hbracket)]
    exact hlt

/-- On a tape with a cell at the pointer only a move is short of one. -/
theorem eq_move_of_noCell {tape : Array UInt8} {ptr : Nat} {c c' : Console} {op : Op}
    (hptr : ptr < tape.size) (h : effect around tape ptr c op = .error (.noCell, c')) :
    ∃ count, op = .run .right count ∨ op = .run .left count := by
  have hcell : tape[ptr]? = some tape[ptr] := Array.getElem?_eq_getElem hptr
  cases op with
  | run kind count =>
      cases kind with
      | right => exact ⟨count, .inl rfl⟩
      | left => exact ⟨count, .inr rfl⟩
      | inc => simp [effect, hcell] at h
      | dec => simp [effect, hcell] at h
  | clear => simp [effect, hcell] at h
  | openLoop => simp [effect, hcell] at h
  | closeLoop => simp [effect, hcell] at h
  | output =>
      simp only [effect, hcell] at h
      split at h <;> cases h
  | input =>
      simp only [effect, hcell] at h
      split at h
      · cases h
      · split at h <;> cases h

theorem inRange_trouble (hs : s.InRange settings ops) {c : Console} {op : Op} {trouble : Trouble}
    (hop : ops[s.ip]? = some op)
    (he : effect around s.machine.tape s.machine.ptr s.console op = .error (trouble, c)) :
    (trouble.fault s.ip s.machine.tape.size).InRange settings ops := by
  cases trouble with
  | refused call => trivial
  | noCell =>
      refine ⟨(List.getElem?_eq_some_iff.1 hop).1, hs.fits.size_tape, ?_⟩
      intro hsize
      have hptr : s.machine.ptr < s.machine.tape.size := by
        have := hs.fits.ptr_lt
        rw [hs.fits.size_tape]
        omega
      obtain ⟨count, rfl | rfl⟩ := eq_move_of_noCell hptr he
      · exact ⟨count, .inl hop⟩
      · exact ⟨count, .inr hop⟩

/-- A step keeps a run within its program, on a machine that fits. -/
theorem inRange_step (hjumps : Jumps.ofProgram ops = .ok jumps) (hs : s.InRange settings ops) :
    (step ops.toArray jumps around s).InRange settings ops := by
  have hleads := leads_step ops.toArray jumps around s
  generalize step ops.toArray jumps around s = o at hleads
  cases hleads with
  | ended _ =>
      refine ⟨⟨hs.fits, hs.ip_le⟩, ?_⟩
      intro fault hfault
      split at hfault <;> cases hfault
      trivial
  | limited _ _ =>
      refine ⟨hs, ?_⟩
      rintro _ ⟨⟩
      trivial
  | executed hop _ he =>
      rw [List.getElem?_toArray] at hop
      exact ⟨hs.fits.of_effect he _, target_le hjumps hop _ _⟩
  | failed hop _ he =>
      rw [List.getElem?_toArray] at hop
      refine ⟨⟨⟨hs.fits.settings_eq, hs.fits.size_tape, hs.fits.ptr_lt⟩, hs.ip_le⟩, ?_⟩
      rintro _ ⟨⟩
      exact inRange_trouble hs hop he

/-- An operation that is no bracket does not look into the jump table. -/
theorem step_of_plain {code : Array Op} {table : Jumps} {op : Op} (hop : code[s.ip]? = some op)
    (hplain : op.isBracket = false) : step code table around s = step code jumps around s := by
  cases hlimit : s.machine.limitReached? with
  | some limit => rw [step_of_limit hop hlimit, step_of_limit hop hlimit]
  | none =>
      cases he : effect around s.machine.tape s.machine.ptr s.console op with
      | ok r =>
          rw [step_of_ok hop hlimit he, step_of_ok hop hlimit he, target_plain hplain,
            target_plain hplain]
      | error r => rw [step_of_error hop hlimit he, step_of_error hop hlimit he]

/-! ## Whole histories -/

theorem unmatchedLoop_lt {i : Nat} (h : Jumps.ofProgram ops = .error i) : i < ops.length := by
  obtain ⟨u, hu, rfl⟩ := ofProgram_eq_error_iff.1 h
  rcases unmatchedFrom_index hu with hmem | ⟨k, op, hk, hop, -⟩
  · cases hmem
  · rw [hk, Nat.zero_add]
    exact (List.getElem?_eq_some_iff.1 hop).1

/-- Wherever a run stands, it is within its program and on a machine that fits. -/
theorem inRange_standing (hm : Fits settings m) (ops : List Op) (around : Surroundings) (n : Nat) :
    (standing m ops around n).InRange settings ops := by
  have hstart : Snapshot.InRange settings ops ⟨0, m.reset, {}⟩ := by
    rw [hm.reset_eq]
    exact ⟨fits_ofSettings settings, Nat.zero_le _⟩
  refine standing_induction ?_ hstart (fun jumps s hjumps hs => inRange_step hjumps hs) n
  intro i hi
  refine ⟨hstart, ?_⟩
  rintro _ ⟨⟩
  exact unmatchedLoop_lt hi

theorem inRange_run (hm : Fits settings m) {fuel : Nat} {report : Report}
    (h : run fuel m ops around = some report) :
    Fits settings report.machine ∧
      ∀ fault, report.fault? = some fault → fault.InRange settings ops := by
  have hrange := inRange_standing hm ops around fuel
  obtain ⟨ip, hstop⟩ := standing_of_run h
  rw [hstop] at hrange
  exact ⟨hrange.1.fits, hrange.2⟩

/-- Whatever has been done with a machine, it fits its settings. -/
theorem Used.fits (h : Used settings m) : Fits settings m := by
  induction h with
  | fresh => exact fits_ofSettings settings
  | afterReset _ ih =>
      rw [ih.reset_eq]
      exact fits_ofSettings settings
  | afterRun _ hrun ih => exact (inRange_run ih hrun).1

/-- **The invariant of a machine over whole histories.**  Whatever has been done with a
machine, at every moment of every run that follows its tape has the size that was set, its
pointer is at a cell, and the operation to execute next is one of the program or behind its
last.  A bracket finds its partner in the jump table; no other operation looks there.  So a
fault names an operation of the program and the size that was set, and on a tape with cells
only a move leaves it. -/
theorem Used.inRange_throughout (hm : Used settings m) (ops : List Op) (around : Surroundings) :
    Fits settings m ∧
    (∀ n, (standing m ops around n).snapshot.InRange settings ops) ∧
    (∀ n s jumps op, standing m ops around n = .next s → Jumps.ofProgram ops = .ok jumps →
      ops[s.ip]? = some op →
      (op.isBracket = true →
        ∃ j, jumps[s.ip]? = some j ∧ (Encloses ops s.ip j ∨ Encloses ops j s.ip)) ∧
      (op.isBracket = false →
        ∀ table, step ops.toArray table around s = step ops.toArray jumps around s)) ∧
    ∀ fuel report, run fuel m ops around = some report →
      (∀ i, report.fault? = some (.unmatchedLoop i) → i < ops.length) ∧
      ∀ i size, report.fault? = some (.outOfTape i size) →
        i < ops.length ∧ size = settings.tapeSize ∧
          (1 ≤ settings.tapeSize →
            ∃ count, ops[i]? = some (.run .right count) ∨ ops[i]? = some (.run .left count)) := by
  have hfits := hm.fits
  refine ⟨hfits, fun n => (inRange_standing hfits ops around n).snapshot, ?_, ?_⟩
  · intro n s jumps op _ hjumps hop
    refine ⟨exists_jumps_getElem? hjumps hop, ?_⟩
    intro hplain table
    exact step_of_plain (by rwa [List.getElem?_toArray]) hplain
  · intro fuel report hrun
    have hfault := (inRange_run hfits hrun).2
    exact ⟨fun i hi => hfault _ hi, fun i size hi => hfault _ hi⟩

/-- A machine whose last run has left the tape, and another run that does so. -/
theorem Used.inRange_throughout_after_fault :
    Used ⟨2, none⟩ ⟨⟨2, none⟩, #[0, 5], 1, 3⟩ ∧
      (standing ⟨⟨2, none⟩, #[0, 5], 1, 3⟩ [.run .inc 1, .run .left 1] {} 1).snapshot.InRange
        ⟨2, none⟩ [.run .inc 1, .run .left 1] := by
  have hrun : run 4 (ofSettings ⟨2, none⟩) [.run .right 1, .run .inc 5, .run .right 1] {} =
      some ⟨some (.outOfTape 2 2), ⟨⟨2, none⟩, #[0, 5], 1, 3⟩, {}⟩ := by cbv
  have hused : Used ⟨2, none⟩ ⟨⟨2, none⟩, #[0, 5], 1, 3⟩ := Used.fresh.afterRun hrun
  obtain ⟨-, hrange, -⟩ := Used.inRange_throughout hused [.run .inc 1, .run .left 1] {}
  exact ⟨hused, hrange 1⟩

/-! ## Used and new machines -/

/-- Only a program that is not started has an unmatched bracket. -/
theorem standing_ne_unmatchedLoop (hjumps : Jumps.ofProgram ops = .ok jumps) (m : Machine)
    (around : Surroundings) (n i : Nat) (s : Snapshot) :
    standing m ops around n ≠ .stop (some (.unmatchedLoop i)) s := by
  refine standing_induction (motive := fun o => o ≠ .stop (some (.unmatchedLoop i)) s)
    (fun _ hrefused => by cases hjumps.symm.trans hrefused) (by simp) ?_ n
  intro table t _ _
  have hleads := leads_step ops.toArray table around t
  generalize step ops.toArray table around t = o at hleads ⊢
  rintro rfl
  generalize hfault : some (Fault.unmatchedLoop i) = fault? at hleads
  cases hleads with
  | ended _ => split at hfault <;> cases hfault
  | limited _ _ => cases hfault
  | @failed _ trouble _ _ _ _ => cases trouble <;> cases hfault

theorem run_of_unmatchedLoop {fuel i : Nat} {report : Report}
    (h : run fuel m ops around = some report) (hfault : report.fault? = some (.unmatchedLoop i)) :
    report = ⟨some (.unmatchedLoop i), m.reset, {}⟩ := by
  cases hjumps : Jumps.ofProgram ops with
  | error index =>
      rw [run_eq, standing_of_error hjumps] at h
      cases h
      cases hfault
      rfl
  | ok jumps =>
      obtain ⟨ip, hstop⟩ := standing_of_run h
      rw [hfault] at hstop
      exact absurd hstop (standing_ne_unmatchedLoop hjumps m around fuel i _)

/-- **A used machine runs like a new one.**  Whatever has been done with a machine, the next
run is reported as that of a new machine with its settings, if it is over at all.  A run that
is refused for its brackets calls nobody and leaves the machine as new. -/
theorem Used.run_eq_fresh (hm : Used settings m) (ops : List Op) (around : Surroundings) :
    (∀ fuel, run fuel m ops around = run fuel (ofSettings settings) ops around) ∧
    ∀ fuel report i, run fuel m ops around = some report →
      report.fault? = some (.unmatchedLoop i) →
      report.console = {} ∧ report.machine.tape = Array.replicate settings.tapeSize 0 ∧
        report.machine.ptr = 0 := by
  have hreset := hm.fits.reset_eq
  constructor
  · intro fuel
    unfold run
    rw [hreset, (fits_ofSettings settings).reset_eq]
  · intro fuel report i hrun hfault
    rw [run_of_unmatchedLoop hrun hfault, hreset]
    exact ⟨rfl, rfl, rfl⟩

/-- A machine whose last run has used up its steps inside a loop, and a run that is refused. -/
theorem Used.run_eq_fresh_after_limit :
    Used ⟨1, some 2⟩ ⟨⟨1, some 2⟩, #[1], 0, 2⟩ ∧
      run 3 ⟨⟨1, some 2⟩, #[1], 0, 2⟩ [.output] {} =
        run 3 (ofSettings ⟨1, some 2⟩) [.output] {} ∧
      ∃ report, run 3 ⟨⟨1, some 2⟩, #[1], 0, 2⟩ [.output, .closeLoop] {} = some report ∧
        report.fault? = some (.unmatchedLoop 1) ∧ report.console = {} ∧
        report.machine.tape = #[0] := by
  have hrun : run 3 (ofSettings ⟨1, some 2⟩) [.run .inc 1, .openLoop, .closeLoop] {} =
      some ⟨some (.stepLimit 2), ⟨⟨1, some 2⟩, #[1], 0, 2⟩, {}⟩ := by cbv
  have hused : Used ⟨1, some 2⟩ ⟨⟨1, some 2⟩, #[1], 0, 2⟩ := Used.fresh.afterRun hrun
  have hrefused : run 3 ⟨⟨1, some 2⟩, #[1], 0, 2⟩ [.output, .closeLoop] {} =
      some ⟨some (.unmatchedLoop 1), ofSettings ⟨1, some 2⟩, {}⟩ := by cbv
  obtain ⟨hconsole, htape, -⟩ :=
    (Used.run_eq_fresh hused [.output, .closeLoop] {}).2 3 _ 1 hrefused rfl
  exact ⟨hused, (Used.run_eq_fresh hused [.output] {}).1 3, _, hrefused, rfl, hconsole, htape⟩

end Brainfuck.Machine
