import Brainfuck.Machine.Basic
import Brainfuck.Proofs.Loops.Nesting

/-!
# Runs without a step counter

The step limit and the counter of executed operations decide only how far a run
is followed, never what an operation does.  This file takes them away: a `State`
holds what decides how a run goes on, and `advance` is a step between states.

* `effect` — what an operation does to tape, pointer and console, wherever it
  stands; `target` — where the run goes on behind it.
* `execute_eq` — the machine executes an operation by its effect and its target.
* `advance`, `after`, `Ends` — one step, the state after `n` steps, the end of a
  run after `n` steps.
* `Ends.unique` — a run ends in one way only.
-/

namespace Brainfuck.Machine

/-! ## What an operation does -/

/-- Why an operation cannot be executed, wherever it stands. -/
inductive Trouble where
  /-- It needs a cell outside the tape. -/
  | noCell
  /-- A call to the surroundings was refused. -/
  | refused (refusal : RefusedCall)
  deriving DecidableEq, Repr

/-- The fault of the operation at `ip` on a tape of `size` cells. -/
def Trouble.fault (ip size : Nat) : Trouble → Fault
  | .noCell => .outOfTape ip size
  | .refused refusal => .refused refusal

/-- What an operation does to tape, pointer and console.  In trouble only the
console can have changed. -/
def effect (around : Surroundings) (tape : Array UInt8) (ptr : Nat) (c : Console) :
    Op → Except (Trouble × Console) (Array UInt8 × Nat × Console)
  | .run .right n =>
      if ptr + n.toNat < tape.size then .ok (tape, ptr + n.toNat, c) else .error (.noCell, c)
  | .run .left n =>
      if n.toNat ≤ ptr then .ok (tape, ptr - n.toNat, c) else .error (.noCell, c)
  | .run .inc n =>
      match tape[ptr]? with
      | some v => .ok (tape.setIfInBounds ptr (v + n.toUInt8), ptr, c)
      | none => .error (.noCell, c)
  | .run .dec n =>
      match tape[ptr]? with
      | some v => .ok (tape.setIfInBounds ptr (v - n.toUInt8), ptr, c)
      | none => .error (.noCell, c)
  | .clear =>
      match tape[ptr]? with
      | some _ => .ok (tape.setIfInBounds ptr 0, ptr, c)
      | none => .error (.noCell, c)
  | .output =>
      match tape[ptr]? with
      | some v =>
          match c.write around v with
          | (true, c) => .ok (tape, ptr, c)
          | (false, c) => .error (.refused (around.refusal .write), c)
      | none => .error (.noCell, c)
  | .input =>
      match c.flush around with
      | (false, c) => .error (.refused (around.refusal .flush), c)
      | (true, c) =>
          match c.read around with
          | (.refused, c) => .error (.refused (around.refusal .read), c)
          | (.atEnd, c) => .ok (tape, ptr, c)
          | (.byte b, c) =>
              match tape[ptr]? with
              | some _ => .ok (tape.setIfInBounds ptr b, ptr, c)
              | none => .error (.noCell, c)
  | .openLoop | .closeLoop =>
      match tape[ptr]? with
      | some _ => .ok (tape, ptr, c)
      | none => .error (.noCell, c)

/-- The index of the operation behind the one at `ip`, which a bracket chooses by
the current cell. -/
def target (jumps : Jumps) (ip : Nat) (tape : Array UInt8) (ptr : Nat) : Op → Nat
  | .openLoop => (if tape[ptr]? = some 0 then jumps.getD ip 0 else ip) + 1
  | .closeLoop => (if tape[ptr]? = some 0 then ip else jumps.getD ip 0) + 1
  | _ => ip + 1

theorem target_plain {op : Op} (h : op.isBracket = false) (jumps : Jumps) (ip : Nat)
    (tape : Array UInt8) (ptr : Nat) : target jumps ip tape ptr op = ip + 1 := by
  cases op with
  | openLoop => cases h
  | closeLoop => cases h
  | _ => rfl

/-- The machine executes an operation by its effect and its target. -/
theorem execute_eq (jumps : Jumps) (around : Surroundings) (ip : Nat) (m : Machine) (c : Console)
    (op : Op) :
    execute jumps around ip m c op =
      match effect around m.tape m.ptr c op with
      | .ok (tape, ptr, c') =>
          .next ⟨target jumps ip m.tape m.ptr op, { m with tape, ptr }, c'⟩
      | .error (trouble, c') => fail (trouble.fault ip m.tape.size) ip m c' := by
  cases op with
  | run kind n =>
      cases kind with
      | right =>
          by_cases h : m.ptr + n.toNat < m.tape.size
          · simp [execute, effect, target, h]
          · simp [execute, effect, h, offTape, Trouble.fault]
      | left =>
          by_cases h : n.toNat ≤ m.ptr
          · simp [execute, effect, target, h]
          · simp [execute, effect, h, offTape, Trouble.fault]
      | inc => simp only [execute, effect, cell?]; cases m.tape[m.ptr]? <;> rfl
      | dec => simp only [execute, effect, cell?]; cases m.tape[m.ptr]? <;> rfl
  | clear => simp only [execute, effect, cell?]; cases m.tape[m.ptr]? <;> rfl
  | output =>
      simp only [execute, effect, cell?]
      cases m.tape[m.ptr]? with
      | none => rfl
      | some v =>
          simp only
          rcases c.write around v with ⟨_ | _, c'⟩ <;> rfl
  | input =>
      simp only [execute, effect, cell?]
      rcases c.flush around with ⟨_ | _, c'⟩
      · rfl
      · simp only
        rcases c'.read around with ⟨b | _ | _, c''⟩
        · simp only
          cases m.tape[m.ptr]? <;> rfl
        · rfl
        · rfl
  | openLoop =>
      simp only [execute, effect, target, cell?]
      cases m.tape[m.ptr]? with
      | none => rfl
      | some v => simp
  | closeLoop =>
      simp only [execute, effect, target, cell?]
      cases m.tape[m.ptr]? with
      | none => rfl
      | some v => simp

/-- An operation keeps the size of the tape, and moves the pointer to a cell or not to the
right. -/
theorem effect_bounds {around : Surroundings} {tape tape' : Array UInt8} {ptr ptr' : Nat}
    {c c' : Console} {op : Op} (h : effect around tape ptr c op = .ok (tape', ptr', c')) :
    tape'.size = tape.size ∧ (ptr' < tape.size ∨ ptr' ≤ ptr) := by
  cases op with
  | run kind n =>
      cases kind with
      | right =>
          simp only [effect] at h
          split at h
          · rename_i hlt
            cases h
            exact ⟨rfl, .inl hlt⟩
          · cases h
      | left =>
          simp only [effect] at h
          split at h
          · cases h
            exact ⟨rfl, .inr (Nat.sub_le _ _)⟩
          · cases h
      | inc => simp only [effect] at h; split at h <;> cases h; simp
      | dec => simp only [effect] at h; split at h <;> cases h; simp
  | clear => simp only [effect] at h; split at h <;> cases h; simp
  | openLoop => simp only [effect] at h; split at h <;> cases h; simp
  | closeLoop => simp only [effect] at h; split at h <;> cases h; simp
  | output =>
      simp only [effect] at h
      split at h
      · split at h <;> cases h
        simp
      · cases h
  | input =>
      simp only [effect] at h
      split at h
      · cases h
      · split at h
        · cases h
        · cases h
          simp
        · split at h <;> cases h
          simp

/-! ## Steps between states -/

/-- What decides how a run goes on: the operation to execute next, tape, pointer
and console. -/
structure State where
  ip : Nat
  tape : Array UInt8
  ptr : Nat
  console : Console

/-- What a step between states leads to. -/
inductive Turn where
  /-- The run goes on. -/
  | next (s : State)
  /-- The run is over. -/
  | stop (fault? : Option Fault) (s : State)

/-- One step of a run of `code`, whose brackets `jumps` matches. -/
def advance (code : Array Op) (jumps : Jumps) (around : Surroundings) (s : State) : Turn :=
  match code[s.ip]? with
  | none =>
      match s.console.flush around with
      | (true, c) => .stop none { s with console := c }
      | (false, c) => .stop (some (.refused (around.refusal .flush))) { s with console := c }
  | some op =>
      match effect around s.tape s.ptr s.console op with
      | .ok (tape, ptr, c) => .next ⟨target jumps s.ip s.tape s.ptr op, tape, ptr, c⟩
      | .error (trouble, c) =>
          .stop (some (trouble.fault s.ip s.tape.size)) { s with console := c }

/-- The state after `n` steps; `none` when the run is over before. -/
def after (code : Array Op) (jumps : Jumps) (around : Surroundings) :
    Nat → State → Option State
  | 0, s => some s
  | n + 1, s =>
      match advance code jumps around s with
      | .next t => after code jumps around n t
      | .stop _ _ => none

/-- The run from `s` is over after `n` steps: the next one stops at `u`. -/
def Ends (code : Array Op) (jumps : Jumps) (around : Surroundings) (n : Nat) (s : State)
    (fault? : Option Fault) (u : State) : Prop :=
  ∃ t, after code jumps around n s = some t ∧ advance code jumps around t = .stop fault? u

variable {code : Array Op} {jumps : Jumps} {around : Surroundings} {s t u : State}
  {fault? : Option Fault} {m n : Nat}

theorem advance_ok {op : Op} {tape : Array UInt8} {ptr : Nat} {c : Console}
    (hop : code[s.ip]? = some op)
    (h : effect around s.tape s.ptr s.console op = .ok (tape, ptr, c)) :
    advance code jumps around s = .next ⟨target jumps s.ip s.tape s.ptr op, tape, ptr, c⟩ := by
  simp only [advance, hop, h]

theorem advance_error {op : Op} {trouble : Trouble} {c : Console} (hop : code[s.ip]? = some op)
    (h : effect around s.tape s.ptr s.console op = .error (trouble, c)) :
    advance code jumps around s =
      .stop (some (trouble.fault s.ip s.tape.size)) { s with console := c } := by
  simp only [advance, hop, h]

theorem advance_open (hop : code[s.ip]? = some .openLoop) {v : UInt8}
    (h : s.tape[s.ptr]? = some v) :
    advance code jumps around s =
      .next { s with ip := (if v = 0 then jumps.getD s.ip 0 else s.ip) + 1 } := by
  simp [advance, hop, effect, target, h]

theorem advance_close (hop : code[s.ip]? = some .closeLoop) {v : UInt8}
    (h : s.tape[s.ptr]? = some v) :
    advance code jumps around s =
      .next { s with ip := (if v = 0 then s.ip else jumps.getD s.ip 0) + 1 } := by
  simp [advance, hop, effect, target, h]

/-- Behind the last operation the run is over, with a last flush. -/
theorem advance_end (hop : code[s.ip]? = none) :
    advance code jumps around s =
      .stop (if (s.console.flush around).1 then none else some (.refused (around.refusal .flush)))
        { s with console := (s.console.flush around).2 } := by
  simp only [advance, hop]
  rcases s.console.flush around with ⟨_ | _, c⟩ <;> rfl

/-- A step that stops the run changes nothing but the console. -/
theorem advance_stop (h : advance code jumps around s = .stop fault? u) :
    u = { s with console := u.console } := by
  cases hop : code[s.ip]? with
  | none =>
      cases (advance_end hop).symm.trans h
      rfl
  | some op =>
      cases he : effect around s.tape s.ptr s.console op with
      | ok r => cases (advance_ok hop he).symm.trans h
      | error r => cases (advance_error hop he).symm.trans h; rfl

/-- Only a counter stops a run for want of steps. -/
theorem advance_ne_stepLimit (h : advance code jumps around s = .stop fault? u) (limit : Nat) :
    fault? ≠ some (.stepLimit limit) := by
  rintro rfl
  cases hop : code[s.ip]? with
  | none =>
      rw [advance_end hop, Turn.stop.injEq] at h
      have hfault := h.1
      split at hfault <;> cases hfault
  | some op =>
      cases he : effect around s.tape s.ptr s.console op with
      | ok r => cases (advance_ok hop he).symm.trans h
      | error r =>
          obtain ⟨trouble, c⟩ := r
          cases trouble <;> cases (advance_error hop he).symm.trans h

theorem after_succ (h : advance code jumps around s = .next t) (n : Nat) :
    after code jumps around (n + 1) s = after code jumps around n t := by
  rw [after, h]

theorem after_succ_of_stop (h : advance code jumps around s = .stop fault? u) (n : Nat) :
    after code jumps around (n + 1) s = none := by
  rw [after, h]

theorem after_add (h : after code jumps around m s = some t) (n : Nat) :
    after code jumps around (m + n) s = after code jumps around n t := by
  induction m generalizing s with
  | zero => cases h; rw [Nat.zero_add]
  | succ m ih =>
      cases ha : advance code jumps around s with
      | stop f u => rw [after_succ_of_stop ha] at h; cases h
      | next t' =>
          rw [after_succ ha] at h
          rw [Nat.succ_add, after_succ ha, ih h]

theorem after_one (h : advance code jumps around s = .next t) :
    after code jumps around 1 s = some t :=
  after_succ h 0

/-- A run that gets `n` steps far has passed every smaller number of steps. -/
theorem exists_after_of_le (h : after code jumps around n s = some t) (hmn : m ≤ n) :
    ∃ r, after code jumps around m s = some r ∧ after code jumps around (n - m) r = some t := by
  induction m generalizing s n with
  | zero => exact ⟨s, rfl, h⟩
  | succ m ih =>
      obtain ⟨n, rfl⟩ : ∃ k, n = k + 1 := ⟨n - 1, by omega⟩
      cases ha : advance code jumps around s with
      | stop f u => rw [after_succ_of_stop ha] at h; cases h
      | next t' =>
          rw [after_succ ha] at h
          rw [after_succ ha, Nat.add_sub_add_right]
          exact ih h (by omega)

/-- A run that does not get `n` steps far has ended before. -/
theorem exists_ends_of_after_eq_none (h : after code jumps around n s = none) :
    ∃ k fault? u, k < n ∧ Ends code jumps around k s fault? u := by
  induction n generalizing s with
  | zero => cases h
  | succ n ih =>
      cases ha : advance code jumps around s with
      | stop f u => exact ⟨0, f, u, Nat.succ_pos n, s, rfl, ha⟩
      | next t =>
          rw [after_succ ha] at h
          obtain ⟨k, f, u, hk, r, hr, hstop⟩ := ih h
          exact ⟨k + 1, f, u, Nat.succ_lt_succ hk, r, (after_succ ha k).trans hr, hstop⟩

/-- The end of the run from a state that is passed is the end of the run. -/
theorem Ends.of_after (ht : after code jumps around m s = some t)
    (h : Ends code jumps around n t fault? u) : Ends code jumps around (m + n) s fault? u := by
  obtain ⟨r, hr, hstop⟩ := h
  exact ⟨r, (after_add ht n).trans hr, hstop⟩

/-- A run whose first step goes on ends as the run from there. -/
theorem Ends.next (hadv : advance code jumps around s = .next t)
    (h : Ends code jumps around n s fault? u) :
    ∃ k, n = k + 1 ∧ Ends code jumps around k t fault? u := by
  obtain ⟨r, hr, hstop⟩ := h
  cases n with
  | zero =>
      cases hr
      cases hadv.symm.trans hstop
  | succ n =>
      rw [after_succ hadv] at hr
      exact ⟨n, rfl, r, hr, hstop⟩

/-- A run does not get further than its end. -/
theorem Ends.le_of_after (h : Ends code jumps around n s fault? u)
    (ht : after code jumps around m s = some t) : m ≤ n := by
  refine Nat.le_of_not_lt fun hlt => ?_
  obtain ⟨r, hr, hstop⟩ := h
  obtain ⟨r', hr', ht'⟩ := exists_after_of_le ht (show n ≤ m by omega)
  cases hr.symm.trans hr'
  obtain ⟨k, hk⟩ : ∃ k, m - n = k + 1 := ⟨m - n - 1, by omega⟩
  rw [hk, after_succ_of_stop hstop] at ht'
  cases ht'

/-- The run from a state that is passed ends as the whole run. -/
theorem Ends.after (h : Ends code jumps around n s fault? u)
    (ht : after code jumps around m s = some t) : Ends code jumps around (n - m) t fault? u := by
  have hle := h.le_of_after ht
  obtain ⟨r, hr, hstop⟩ := h
  refine ⟨r, ?_, hstop⟩
  rw [← after_add ht, Nat.add_sub_cancel' hle]
  exact hr

/-- A run ends in one way only. -/
theorem Ends.unique {fault?' : Option Fault} {u' : State}
    (h : Ends code jumps around n s fault? u) (h' : Ends code jumps around m s fault?' u') :
    n = m ∧ fault? = fault?' ∧ u = u' := by
  obtain ⟨t, ht, hstop⟩ := h
  obtain ⟨t', ht', hstop'⟩ := h'
  have hnm : n = m := by
    refine Nat.le_antisymm ?_ ?_
    · exact Ends.le_of_after ⟨t', ht', hstop'⟩ ht
    · exact Ends.le_of_after ⟨t, ht, hstop⟩ ht'
  subst hnm
  cases ht.symm.trans ht'
  cases hstop.symm.trans hstop'
  exact ⟨rfl, rfl, rfl⟩

end Brainfuck.Machine
