import Brainfuck.Proofs.Machine.Observation

/-!
# The course of a run

After every number of steps a run stands somewhere: at a snapshot from which it goes on, or
where it has stopped.  What is claimed of every moment of a run is claimed of these.

* `Leads`, `leads_step` — all that a step can lead to.
* `standing` — where a run stands after `n` steps.
* `run_eq`, `standing_of_run` — a run is reported as it stands when its fuel is used up, if
  it is over then.
* `standing_induction` — what holds at the start of a run and is kept by its steps holds
  wherever it stands.
* `standing_extends` — what a run has done at the console stays done.
-/

namespace Brainfuck.Machine

variable {code : Array Op} {jumps : Jumps} {around : Surroundings} {s : Snapshot}

/-! ## All that a step can lead to -/

/-- All that a step from `s` can lead to. -/
inductive Leads (code : Array Op) (jumps : Jumps) (around : Surroundings) (s : Snapshot) :
    Outcome → Prop
  /-- The program has come to its end. -/
  | ended : code[s.ip]? = none →
      Leads code jumps around s
        (.stop
          (if (s.console.flush around).1 then none else some (.refused (around.refusal .flush)))
          { s with console := (s.console.flush around).2 })
  /-- The steps are used up. -/
  | limited {op : Op} {limit : Nat} : code[s.ip]? = some op →
      s.machine.limitReached? = some limit →
      Leads code jumps around s (.stop (some (.stepLimit limit)) s)
  /-- An operation has its effect. -/
  | executed {op : Op} {tape : Array UInt8} {ptr : Nat} {c : Console} : code[s.ip]? = some op →
      s.machine.limitReached? = none →
      effect around s.machine.tape s.machine.ptr s.console op = .ok (tape, ptr, c) →
      Leads code jumps around s
        (.next ⟨target jumps s.ip s.machine.tape s.machine.ptr op,
          { s.machine with tape, ptr, steps := s.machine.steps + 1 }, c⟩)
  /-- An operation cannot be executed. -/
  | failed {op : Op} {trouble : Trouble} {c : Console} : code[s.ip]? = some op →
      s.machine.limitReached? = none →
      effect around s.machine.tape s.machine.ptr s.console op = .error (trouble, c) →
      Leads code jumps around s
        (.stop (some (trouble.fault s.ip s.machine.tape.size))
          ⟨s.ip, { s.machine with steps := s.machine.steps + 1 }, c⟩)

theorem leads_step (code : Array Op) (jumps : Jumps) (around : Surroundings) (s : Snapshot) :
    Leads code jumps around s (step code jumps around s) := by
  cases hop : code[s.ip]? with
  | none =>
      rw [step_of_end hop]
      exact .ended hop
  | some op =>
      cases hlimit : s.machine.limitReached? with
      | some limit =>
          rw [step_of_limit hop hlimit]
          exact .limited hop hlimit
      | none =>
          cases he : effect around s.machine.tape s.machine.ptr s.console op with
          | ok r =>
              rw [step_of_ok hop hlimit he]
              exact .executed hop hlimit he
          | error r =>
              rw [step_of_error hop hlimit he]
              exact .failed hop hlimit he

/-! ## Where a run stands -/

/-- The snapshot at which a step arrives, or at which it stops the run. -/
def Outcome.snapshot : Outcome → Snapshot
  | .next s | .stop _ s => s

/-- What is reported of a run, if it is over. -/
def Outcome.report? : Outcome → Option Report
  | .next _ => none
  | .stop fault? s => some ⟨fault?, s.machine, s.console⟩

/-- A run that is not over takes one more step. -/
def Outcome.resume (code : Array Op) (jumps : Jumps) (around : Surroundings) : Outcome → Outcome
  | .next s => step code jumps around s
  | .stop fault? s => .stop fault? s

/-- Where a run that starts at `s` stands after `n` steps. -/
def standingFrom (code : Array Op) (jumps : Jumps) (around : Surroundings) (s : Snapshot) :
    Nat → Outcome
  | 0 => .next s
  | n + 1 => (standingFrom code jumps around s n).resume code jumps around

/-- Where a run of `ops` stands after `n` steps.  A program whose brackets do not match is
not started. -/
def standing (m : Machine) (ops : List Op) (around : Surroundings) (n : Nat) : Outcome :=
  match Jumps.ofProgram ops with
  | .error index => .stop (some (.unmatchedLoop index)) ⟨0, m.reset, {}⟩
  | .ok jumps => standingFrom ops.toArray jumps around ⟨0, m.reset, {}⟩ n

theorem standingFrom_succ_of_next {t : Snapshot} (h : step code jumps around s = .next t)
    (n : Nat) : standingFrom code jumps around s (n + 1) = standingFrom code jumps around t n := by
  induction n with
  | zero => exact h
  | succ n ih => rw [standingFrom, ih, standingFrom]

theorem standingFrom_succ_of_stop {fault? : Option Fault} {t : Snapshot}
    (h : step code jumps around s = .stop fault? t) (n : Nat) :
    standingFrom code jumps around s (n + 1) = .stop fault? t := by
  induction n with
  | zero => exact h
  | succ n ih =>
      rw [standingFrom, ih]
      rfl

theorem runFor_eq (code : Array Op) (jumps : Jumps) (around : Surroundings) (fuel : Nat)
    (s : Snapshot) :
    (runFor code jumps around fuel s).map (fun r => ⟨r.1, r.2.machine, r.2.console⟩) =
      (standingFrom code jumps around s fuel).report? := by
  induction fuel generalizing s with
  | zero => rfl
  | succ fuel ih =>
      rw [runFor]
      cases h : step code jumps around s with
      | next t => rw [standingFrom_succ_of_next h, ← ih]
      | stop fault? t =>
          rw [standingFrom_succ_of_stop h]
          rfl

/-- A run is reported as it stands when its fuel is used up, if it is over then. -/
theorem run_eq (fuel : Nat) (m : Machine) (ops : List Op) (around : Surroundings) :
    run fuel m ops around = (standing m ops around fuel).report? := by
  unfold run standing
  cases Jumps.ofProgram ops with
  | error index => rfl
  | ok jumps => exact runFor_eq ops.toArray jumps around fuel _

/-- A run that is over is reported as it stands. -/
theorem standing_of_run {fuel : Nat} {m : Machine} {ops : List Op} {report : Report}
    (h : run fuel m ops around = some report) :
    ∃ ip, standing m ops around fuel =
      .stop report.fault? ⟨ip, report.machine, report.console⟩ := by
  rw [run_eq] at h
  cases ho : standing m ops around fuel with
  | next s =>
      rw [ho] at h
      cases h
  | stop fault? s =>
      rw [ho] at h
      cases h
      exact ⟨s.ip, rfl⟩

/-! ## All along a run -/

section Along

variable {m : Machine} {ops : List Op} {n k : Nat}

theorem standing_of_error {i : Nat} (h : Jumps.ofProgram ops = .error i) (m : Machine)
    (around : Surroundings) (n : Nat) :
    standing m ops around n = .stop (some (.unmatchedLoop i)) ⟨0, m.reset, {}⟩ := by
  rw [standing, h]

theorem standing_zero (h : Jumps.ofProgram ops = .ok jumps) (m : Machine)
    (around : Surroundings) : standing m ops around 0 = .next ⟨0, m.reset, {}⟩ := by
  rw [standing, h]
  rfl

theorem standing_succ (h : Jumps.ofProgram ops = .ok jumps) (m : Machine)
    (around : Surroundings) (n : Nat) :
    standing m ops around (n + 1) =
      (standing m ops around n).resume ops.toArray jumps around := by
  simp only [standing, h]
  rfl

/-- What holds of a program that is refused, holds at the start of a run and is kept by its
steps holds wherever a run stands. -/
theorem standing_induction {motive : Outcome → Prop}
    (refused : ∀ i, Jumps.ofProgram ops = .error i →
      motive (.stop (some (.unmatchedLoop i)) ⟨0, m.reset, {}⟩))
    (start : motive (.next ⟨0, m.reset, {}⟩))
    (step : ∀ jumps s, Jumps.ofProgram ops = .ok jumps → motive (.next s) →
      motive (step ops.toArray jumps around s)) (n : Nat) :
    motive (standing m ops around n) := by
  cases hjumps : Jumps.ofProgram ops with
  | error i =>
      rw [standing_of_error hjumps]
      exact refused i hjumps
  | ok jumps =>
      induction n with
      | zero =>
          rw [standing_zero hjumps]
          exact start
      | succ n ih =>
          rw [standing_succ hjumps]
          cases h : standing m ops around n with
          | next s =>
              rw [h] at ih
              exact step jumps s hjumps ih
          | stop fault? s =>
              rw [h] at ih
              exact ih

theorem step_extends (code : Array Op) (jumps : Jumps) (around : Surroundings) (s : Snapshot) :
    s.console.Extends (step code jumps around s).snapshot.console := by
  have hleads := leads_step code jumps around s
  generalize step code jumps around s = o at hleads
  cases hleads with
  | ended _ => exact s.console.extends_flush around
  | limited _ _ => exact .refl _
  | @executed op _ _ _ _ _ he =>
      have hextends := effect_extends around s.machine.tape s.machine.ptr s.console op
      rwa [he] at hextends
  | @failed op _ _ _ _ he =>
      have hextends := effect_extends around s.machine.tape s.machine.ptr s.console op
      rwa [he] at hextends

/-- What a run has done at the console stays done. -/
theorem standing_extends (m : Machine) (ops : List Op) (around : Surroundings) (hnk : n ≤ k) :
    (standing m ops around n).snapshot.console.Extends
      (standing m ops around k).snapshot.console := by
  cases hjumps : Jumps.ofProgram ops with
  | error i =>
      rw [standing_of_error hjumps, standing_of_error hjumps]
      exact .refl _
  | ok jumps =>
      induction hnk with
      | refl => exact .refl _
      | @step k _ ih =>
          rw [standing_succ hjumps]
          cases h : standing m ops around k with
          | next s =>
              rw [h] at ih
              exact ih.trans (step_extends ops.toArray jumps around s)
          | stop fault? s =>
              rw [h] at ih
              exact ih

end Along

end Brainfuck.Machine
