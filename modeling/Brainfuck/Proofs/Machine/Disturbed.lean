import Brainfuck.Proofs.Machine.Calls
import Brainfuck.Proofs.Machine.StepLimit

/-!
# Refused calls only cut a run short

The surroundings of a run may refuse some of its calls.  The run is then the undisturbed one as
far as its first refused call, and over with it: the operation that made the call has changed
neither the tape nor the pointer.  The same holds of an operation that fails for another reason.

* `standing_eq_quiet` — a run of which no call is refused is the undisturbed run.
* `CutShort`, `exists_cutShort` — a run is over with its first refused call, and what it leaves
  behind is a beginning of the undisturbed run.
* `StoppedAt`, `exists_stoppedAt` — a run that an operation stops stands as it stood before.
* `standing_until_refused` — all of it together.
-/

namespace Brainfuck.Machine

variable {code : Array Op} {jumps : Jumps} {around plan : Surroundings} {m : Machine}
  {ops : List Op} {s t : Snapshot} {fault : Fault} {fault? : Option Fault} {n : Nat}
  {report : Report}

/-! ## Runs that are spared -/

/-- A run stands where the undisturbed run stands, as long as that has made no call that is
refused. -/
theorem standing_eq_quiet
    (h : plan.Spares (standing m ops plan.quiet n).snapshot.console.calls.toList) :
    standing m ops plan n = standing m ops plan.quiet n := by
  cases hjumps : Jumps.ofProgram ops with
  | error i => rw [standing_of_error hjumps, standing_of_error hjumps]
  | ok jumps =>
      induction n with
      | zero => rw [standing_zero hjumps, standing_zero hjumps]
      | succ n ih =>
          have hbefore := (standing_extends m ops plan.quiet (Nat.le_succ n)).calls
          rw [standing_succ hjumps, ih (h.of_prefix hbefore), standing_succ hjumps]
          rw [standing_succ hjumps] at h
          cases ho : standing m ops plan.quiet n with
          | stop fault? s => rfl
          | next s =>
              obtain ⟨htallied, -⟩ := tallied_of_next ho
              rw [ho] at h
              change plan.Spares (step ops.toArray jumps plan.quiet s).snapshot.console.calls.toList
                at h
              rw [(console_step_quiet htallied ops.toArray jumps plan).1] at h
              exact step_of_spares htallied h

/-! ## Runs that are cut short -/

/-- A run is over with its first refused call, the one that it makes behind the calls `earlier`
in the step that follows the first `k`, and leaves `report` behind. -/
structure CutShort (m : Machine) (ops : List Op) (plan : Surroundings) (k : Nat) (s : Snapshot)
    (earlier : List Call) (call : Call) (report : Report) : Prop where
  /-- As far as this step the run is the undisturbed one. -/
  agrees : ∀ j ≤ k, standing m ops plan j = standing m ops plan.quiet j
  /-- It comes to `s`, from where the operation to execute next makes the call. -/
  arrives : standing m ops plan k = .next s
  later : s.console.calls.toList <+: earlier
  made : earlier ++ [call] <+: (standing m ops plan.quiet (k + 1)).snapshot.console.calls.toList
  /-- The call is refused, and none before it. -/
  spared : plan.Spares earlier
  refused : plan.Refuses earlier call
  /-- The run ends with the fault of the call, which is the last one it makes. -/
  ends : run (k + 1) m ops plan = some report
  fault : report.fault? = some (.refused (plan.refusal call))
  message : report.fault?.map Fault.message =
    some ("runtime error: i/o failed: " ++ plan.reason call)
  calls : report.console.calls.toList = earlier ++ [call]
  /-- Tape and pointer are those at `s`. -/
  tape : report.machine.tape = s.machine.tape
  ptr : report.machine.ptr = s.machine.ptr
  /-- Behind the last operation they are those that the undisturbed run ends with. -/
  final : ops.length ≤ s.ip → ∃ final, run (k + 1) m ops plan.quiet = some final ∧
    final.fault? = none ∧ final.machine.tape = report.machine.tape ∧
    final.machine.ptr = report.machine.ptr
  /-- What is written and read is a beginning of what the undisturbed run writes and reads. -/
  output : ∀ j, k ≤ j → report.console.output.toList <+:
    (standing m ops plan.quiet j).snapshot.console.output.toList
  bytes : ∀ j, k ≤ j → plan.input.toList.take report.console.consumed <+:
    plan.input.toList.take (standing m ops plan.quiet j).snapshot.console.consumed

/-- Where the undisturbed run makes a call that is refused, it has made all the calls before the
first of them in steps that are spared. -/
theorem exists_last_spared
    (h : ¬ plan.Spares (standing m ops plan.quiet n).snapshot.console.calls.toList) :
    ∃ k jumps s, Jumps.ofProgram ops = .ok jumps ∧ standing m ops plan.quiet k = .next s ∧
      plan.Spares s.console.calls.toList ∧
      ¬ plan.Spares (step ops.toArray jumps plan.quiet s).snapshot.console.calls.toList := by
  cases hjumps : Jumps.ofProgram ops with
  | error i =>
      rw [standing_of_error hjumps] at h
      exact absurd (Surroundings.spares_nil plan) h
  | ok jumps =>
      induction n with
      | zero =>
          rw [standing_zero hjumps] at h
          exact absurd (Surroundings.spares_nil plan) h
      | succ n ih =>
          by_cases hbefore : plan.Spares (standing m ops plan.quiet n).snapshot.console.calls.toList
          · rw [standing_succ hjumps] at h
            cases ho : standing m ops plan.quiet n with
            | stop fault? s =>
                rw [ho] at h hbefore
                exact absurd hbefore h
            | next s =>
                rw [ho] at h hbefore
                exact ⟨n, jumps, s, rfl, ho, hbefore, h⟩
          · exact ih hbefore

/-- A run is over with its first refused call. -/
theorem exists_cutShort
    (h : ¬ plan.Spares (standing m ops plan.quiet n).snapshot.console.calls.toList) :
    ∃ k s earlier call report, CutShort m ops plan k s earlier call report := by
  obtain ⟨k, jumps, s, hjumps, hs, hspared, hnot⟩ := exists_last_spared h
  obtain ⟨htallied, -⟩ := tallied_of_next hs
  obtain ⟨hcalls, -⟩ := console_step_quiet htallied ops.toArray jumps plan
  rcases step_spared_or_cut htallied hspared ops.toArray jumps with
    ⟨hspares, -⟩ | ⟨earlier, call, later, t, hwants, hbefore, hcall, hstop, hcut⟩
  · rw [hcalls] at hnot
    exact absurd hspares hnot
  · have hagrees : ∀ j ≤ k, standing m ops plan j = standing m ops plan.quiet j := by
      intro j hj
      have hcalls := (standing_extends m ops plan.quiet hj).calls
      rw [hs] at hcalls
      exact standing_eq_quiet (hspared.of_prefix hcalls)
    have hk := (hagrees k (Nat.le_refl k)).trans hs
    have hlast : standing m ops plan (k + 1) = .stop (some (.refused (plan.refusal call))) t := by
      rw [standing_succ hjumps, hk]
      exact hstop
    have hextends : ∀ j, k ≤ j →
        s.console.Extends (standing m ops plan.quiet j).snapshot.console := by
      intro j hj
      have hextends := standing_extends m ops plan.quiet hj
      rwa [hs] at hextends
    refine ⟨k, s, s.console.calls.toList ++ earlier, call,
      ⟨some (.refused (plan.refusal call)), t.machine, t.console⟩, ?_⟩
    constructor
    case agrees => exact hagrees
    case arrives => exact hk
    case later => exact List.prefix_append ..
    case made =>
      rw [standing_succ hjumps, hs]
      change _ <+: (step ops.toArray jumps plan.quiet s).snapshot.console.calls.toList
      rw [hcalls, hwants]
      simp
    case spared => exact hbefore
    case refused => exact hcall
    case ends =>
      rw [run_eq, hlast]
      rfl
    case fault => rfl
    case message => rfl
    case calls => simpa using hcut.calls
    case tape => exact hcut.tape
    case ptr => exact hcut.ptr
    case final =>
      intro hip
      have hop : ops.toArray[s.ip]? = none := by simpa using hip
      refine ⟨⟨none, s.machine, (s.console.flush plan.quiet).2⟩, ?_, rfl, hcut.tape.symm,
        hcut.ptr.symm⟩
      rw [run_eq, standing_succ hjumps, hs]
      change (step ops.toArray jumps plan.quiet s).report? = _
      rw [step_of_end hop]
      rfl
    case output =>
      intro j hj
      rw [hcut.output]
      exact (hextends j hj).output
    case bytes =>
      intro j hj
      rw [hcut.consumed]
      exact List.take_prefix_take_left (hextends j hj).consumed

/-! ## Runs that an operation stops -/

/-- A run is over at the operation at `i`, and tape and pointer are as they were just before
it. -/
def StoppedAt (m : Machine) (ops : List Op) (around : Surroundings) (i : Nat) (report : Report) :
    Prop :=
  ∃ k s op, standing m ops around k = .next s ∧ s.ip = i ∧ ops[i]? = some op ∧
    run (k + 1) m ops around = some report ∧ report.machine.tape = s.machine.tape ∧
    report.machine.ptr = s.machine.ptr

/-- A step that ends a run stays at its operation, and changes neither the tape nor the pointer. -/
theorem kept_of_step_stop (h : step code jumps around s = .stop fault? t) :
    t.ip = s.ip ∧ t.machine.tape = s.machine.tape ∧ t.machine.ptr = s.machine.ptr := by
  have hleads := leads_step code jumps around s
  rw [h] at hleads
  cases hleads <;> exact ⟨rfl, rfl, rfl⟩

/-- A run that leaves the tape or uses up its steps is stopped at an operation, and the tape is
left by the one that is named. -/
theorem op_of_step_stop (h : step code jumps around s = .stop (some fault) t)
    (hkind : (∃ i size, fault = .outOfTape i size) ∨ ∃ limit, fault = .stepLimit limit) :
    (∃ op, code[s.ip]? = some op) ∧ ∀ i size, fault = .outOfTape i size → i = s.ip := by
  have hleads := leads_step code jumps around s
  rw [h] at hleads
  generalize hfault : some fault = fault? at hleads
  cases hleads with
  | ended _ =>
      split at hfault
      · cases hfault
      · cases hfault
        rcases hkind with ⟨_, _, hfault⟩ | ⟨_, hfault⟩ <;> cases hfault
  | limited hop _ =>
      cases hfault
      exact ⟨⟨_, hop⟩, fun i size hleft => by cases hleft⟩
  | @failed _ trouble _ hop _ _ =>
      cases hfault
      refine ⟨⟨_, hop⟩, ?_⟩
      intro i size hleft
      cases trouble with
      | noCell =>
          cases hleft
          rfl
      | refused call => cases hleft

/-- A run that leaves the tape or uses up its steps has changed nothing in its last step. -/
theorem exists_stoppedAt {fuel : Nat} (h : run fuel m ops around = some report)
    (hfault : report.fault? = some fault)
    (hkind : (∃ i size, fault = .outOfTape i size) ∨ ∃ limit, fault = .stepLimit limit) :
    ∃ i, StoppedAt m ops around i report ∧ ∀ j size, fault = .outOfTape j size → j = i := by
  obtain ⟨ip, hstop⟩ := standing_of_run h
  rw [hfault] at hstop
  cases hjumps : Jumps.ofProgram ops with
  | error i =>
      rw [standing_of_error hjumps, Outcome.stop.injEq] at hstop
      rcases hkind with ⟨_, _, rfl⟩ | ⟨_, rfl⟩ <;> cases hstop.1
  | ok jumps =>
      obtain ⟨k, s, hs, hstep, hlast⟩ := exists_last_step hjumps hstop
      obtain ⟨-, htape, hptr⟩ := kept_of_step_stop hstep
      obtain ⟨⟨op, hop⟩, hindex⟩ := op_of_step_stop hstep hkind
      refine ⟨s.ip, ⟨k, s, op, hs, rfl, by simpa using hop, ?_, htape, hptr⟩, hindex⟩
      rw [run_eq, hlast, ← hfault]
      rfl

/-- **Refused calls only cut a run short.**  Let `plan` refuse any calls.  If the undisturbed run
makes none of them, both runs are the same.  Otherwise the run is the undisturbed one up to the
first of them; it ends with the fault of that call, tape and pointer are those just before the
operation that made it, or the final ones behind the last operation, and what has been written and
read is a beginning of what the undisturbed run writes and reads.  A run that leaves the tape or
uses up its steps ends with tape and pointer as they were just before the operation it stopped
at. -/
theorem standing_until_refused (m : Machine) (ops : List Op) (plan : Surroundings) :
    ((∀ n, plan.Spares (standing m ops plan.quiet n).snapshot.console.calls.toList) →
      (∀ n, standing m ops plan n = standing m ops plan.quiet n) ∧
        ∀ fuel, run fuel m ops plan = run fuel m ops plan.quiet) ∧
    ((¬ ∀ n, plan.Spares (standing m ops plan.quiet n).snapshot.console.calls.toList) →
      ∃ k s earlier call report, CutShort m ops plan k s earlier call report) ∧
    (∀ fuel report i size, run fuel m ops plan = some report →
      report.fault? = some (.outOfTape i size) → StoppedAt m ops plan i report) ∧
    ∀ fuel report limit, run fuel m ops plan = some report →
      report.fault? = some (.stepLimit limit) → ∃ i, StoppedAt m ops plan i report := by
  refine ⟨?_, ?_, ?_, ?_⟩
  · intro hspares
    refine ⟨fun n => standing_eq_quiet (hspares n), ?_⟩
    intro fuel
    rw [run_eq, run_eq, standing_eq_quiet (hspares fuel)]
  · intro hnot
    obtain ⟨n, hn⟩ := Classical.not_forall.1 hnot
    exact exists_cutShort hn
  · intro fuel report i size hrun hfault
    obtain ⟨j, hstopped, hindex⟩ := exists_stoppedAt hrun hfault (.inl ⟨i, size, rfl⟩)
    rwa [hindex i size rfl]
  · intro fuel report limit hrun hfault
    obtain ⟨j, hstopped, -⟩ := exists_stoppedAt hrun hfault (.inr ⟨limit, rfl⟩)
    exact ⟨j, hstopped⟩

/-- A program that copies its input is refused its second read: the byte before has been written,
and the cell still holds it. -/
theorem standing_until_refused_second_read :
    ∃ k s earlier report,
      CutShort (ofSettings ⟨1, none⟩) [.input, .openLoop, .output, .input, .closeLoop]
          { input := #[65, 66], refusedRead := some 2 } k s earlier .read report ∧
        report.console.output = #[65] ∧ report.machine.tape = #[65] := by
  have hrun : run 4 (ofSettings ⟨1, none⟩) [.input, .openLoop, .output, .input, .closeLoop]
      { input := #[65, 66], refusedRead := some 2 } =
        some ⟨some (.refused ⟨.read, "read refused"⟩), ⟨⟨1, none⟩, #[65], 0, 4⟩,
          { consumed := 1, reads := 2, output := #[65], flushes := #[0, 1],
            calls := #[.flush, .read, .write, .flush, .read] }⟩ := by cbv
  have hnot : ¬ ∀ n, Surroundings.Spares { input := #[65, 66], refusedRead := some 2 }
      (standing (ofSettings ⟨1, none⟩) [.input, .openLoop, .output, .input, .closeLoop]
        (Surroundings.quiet { input := #[65, 66], refusedRead := some 2 })
        n).snapshot.console.calls.toList := by
    intro hspares
    exact hspares 4 [.flush, .read, .write, .flush] .read ⟨[], by cbv⟩ rfl
  obtain ⟨-, hcutShort, -⟩ := standing_until_refused (ofSettings ⟨1, none⟩)
    [.input, .openLoop, .output, .input, .closeLoop]
    { input := #[65, 66], refusedRead := some 2 }
  obtain ⟨k, s, earlier, call, report, hcut⟩ := hcutShort hnot
  have hsame := run_add hcut.ends 4
  rw [Nat.add_comm, run_add hrun (k + 1)] at hsame
  cases hsame
  cases hcut.fault
  exact ⟨k, s, earlier, _, hcut, rfl, rfl⟩

end Brainfuck.Machine
