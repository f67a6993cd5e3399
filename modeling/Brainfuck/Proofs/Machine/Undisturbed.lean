import Brainfuck.Proofs.Machine.Observation

/-!
# Runs that nothing disturbs

When the surroundings refuse no call, a run can only come to its end or leave the tape,
and of the console only the output and the number of bytes read matter.  This file takes
the rest away, so that other interpreters can be compared with the machine step by step.

* `Memory`, `perform` — what such a run works on, and what an operation does to it.
* `follow` — such a run with a budget of operations.
* `follow_halted_iff`, `exists_follow_halted_iff`, `exists_follow_offTape_iff` — how it
  ends is how the machine is seen to end, under a limit and without one.
-/

namespace Brainfuck.Machine

/-- What operations work on when no call is refused. -/
structure Memory where
  tape : Array UInt8
  ptr : Nat
  output : Array UInt8
  /-- How many bytes of the input have been read. -/
  consumed : Nat
  deriving DecidableEq, Repr

/-- Zeroed cells, the pointer at the first of them. -/
def Memory.blank (size : Nat) : Memory := ⟨Array.replicate size 0, 0, #[], 0⟩

/-- What an operation works on in a state of a run. -/
def State.memory (s : State) : Memory := ⟨s.tape, s.ptr, s.console.output, s.console.consumed⟩

/-- What is left in memory by a run of which `o` is seen. -/
def Observation.memory (o : Observation) : Memory :=
  ⟨o.tape, o.ptr, o.console.output, o.console.consumed⟩

/-- What an operation does; `none` when it needs a cell outside the tape. -/
def perform (input : Array UInt8) (m : Memory) : Op → Option Memory
  | .run .right n =>
      if m.ptr + n.toNat < m.tape.size then some { m with ptr := m.ptr + n.toNat } else none
  | .run .left n => if n.toNat ≤ m.ptr then some { m with ptr := m.ptr - n.toNat } else none
  | .run .inc n => m.tape[m.ptr]?.map fun v =>
      { m with tape := m.tape.setIfInBounds m.ptr (v + n.toUInt8) }
  | .run .dec n => m.tape[m.ptr]?.map fun v =>
      { m with tape := m.tape.setIfInBounds m.ptr (v - n.toUInt8) }
  | .clear => m.tape[m.ptr]?.map fun _ => { m with tape := m.tape.setIfInBounds m.ptr 0 }
  | .output => m.tape[m.ptr]?.map fun v => { m with output := m.output.push v }
  | .input =>
      match input[m.consumed]? with
      | none => some m
      | some b => m.tape[m.ptr]?.map fun _ =>
          { m with tape := m.tape.setIfInBounds m.ptr b, consumed := m.consumed + 1 }
  | .openLoop | .closeLoop => m.tape[m.ptr]?.map fun _ => m

/-- What an operation leaves in memory when it finds no cell.  A byte that it has read
is gone. -/
def Memory.abandon (m : Memory) : Op → Memory
  | .input => { m with consumed := m.consumed + 1 }
  | _ => m

/-- How a run is over when no call is refused. -/
inductive Ending where
  /-- It has come to the end of the program. -/
  | halted (m : Memory)
  /-- An operation needs a cell outside the tape. -/
  | offTape (m : Memory)
  deriving DecidableEq, Repr

/-- Executes the operations from `ip` on, at most `budget` of them; `none` when that is
not the end. -/
def follow (code : Array Op) (jumps : Jumps) (input : Array UInt8) :
    Nat → Nat → Memory → Option Ending
  | 0, ip, m => if ip < code.size then none else some (.halted m)
  | budget + 1, ip, m =>
      match code[ip]? with
      | none => some (.halted m)
      | some op =>
          match perform input m op with
          | some m' => follow code jumps input budget (target jumps ip m.tape m.ptr op) m'
          | none => some (.offTape m)

variable {code : Array Op} {jumps : Jumps} {input : Array UInt8} {s t u : State} {op : Op}
  {m : Memory} {budget : Nat}

/-! ## One step -/

theorem tape_abandon (m : Memory) (op : Op) : (m.abandon op).tape = m.tape := by
  cases op <;> rfl

theorem output_abandon (m : Memory) (op : Op) : (m.abandon op).output = m.output := by
  cases op <;> rfl

/-- A flush that is not refused leaves what operations work on. -/
theorem flush_undisturbed (input : Array UInt8) (c : Console) :
    ∃ c', c.flush { input } = (true, c') ∧ c'.output = c.output ∧ c'.consumed = c.consumed :=
  ⟨_, rfl, rfl, rfl⟩

/-- What an operation does to memory is its effect. -/
theorem effect_of_perform (input : Array UInt8) (s : State) (op : Op) :
    match perform input s.memory op with
    | some m => ∃ c, effect { input } s.tape s.ptr s.console op = .ok (m.tape, m.ptr, c) ∧
        c.output = m.output ∧ c.consumed = m.consumed
    | none => ∃ c, effect { input } s.tape s.ptr s.console op = .error (.noCell, c) ∧
        c.output = s.console.output ∧ c.consumed = (s.memory.abandon op).consumed := by
  cases op with
  | run kind n =>
      cases kind with
      | right =>
          by_cases hlt : s.ptr + n.toNat < s.tape.size
          · simp [perform, State.memory, effect, hlt]
          · simp [perform, State.memory, effect, hlt, Memory.abandon]
      | left =>
          by_cases hle : n.toNat ≤ s.ptr
          · simp [perform, State.memory, effect, hle]
          · simp [perform, State.memory, effect, hle, Memory.abandon]
      | inc =>
          cases hv : s.tape[s.ptr]? <;> simp [perform, State.memory, effect, hv, Memory.abandon]
      | dec =>
          cases hv : s.tape[s.ptr]? <;> simp [perform, State.memory, effect, hv, Memory.abandon]
  | output =>
      cases hv : s.tape[s.ptr]? <;>
        simp [perform, State.memory, effect, hv, Console.write, Console.full, Memory.abandon]
  | input =>
      obtain ⟨c, hflush, hout, hconsumed⟩ := flush_undisturbed input s.console
      cases hb : input[s.console.consumed]? with
      | none => simp [perform, State.memory, effect, hflush, Console.read, hconsumed, hout, hb]
      | some b =>
          cases hv : s.tape[s.ptr]? <;>
            simp [perform, State.memory, effect, hflush, Console.read, hconsumed, hout, hb, hv,
              Memory.abandon]
  | openLoop =>
      cases hv : s.tape[s.ptr]? <;> simp [perform, State.memory, effect, hv, Memory.abandon]
  | closeLoop =>
      cases hv : s.tape[s.ptr]? <;> simp [perform, State.memory, effect, hv, Memory.abandon]
  | clear =>
      cases hv : s.tape[s.ptr]? <;> simp [perform, State.memory, effect, hv, Memory.abandon]

/-- An operation keeps the size of the tape, and moves the pointer to a cell or not to the
right. -/
theorem perform_bounds {m' : Memory} (h : perform input m op = some m') :
    m'.tape.size = m.tape.size ∧ (m'.ptr < m.tape.size ∨ m'.ptr ≤ m.ptr) := by
  have heffect := effect_of_perform input
    ⟨0, m.tape, m.ptr, { output := m.output, consumed := m.consumed }⟩ op
  rw [show State.memory _ = m from rfl, h] at heffect
  obtain ⟨c, he, -⟩ := heffect
  exact effect_bounds he

theorem advance_of_perform (jumps : Jumps) (hop : code[s.ip]? = some op)
    (h : perform input s.memory op = some m) :
    ∃ t, advance code jumps { input } s = .next t ∧
      t.ip = target jumps s.ip s.tape s.ptr op ∧ t.memory = m := by
  have heffect := effect_of_perform input s op
  rw [h] at heffect
  obtain ⟨c, he, hout, hconsumed⟩ := heffect
  refine ⟨_, advance_ok hop he, rfl, ?_⟩
  simp [State.memory, hout, hconsumed]

theorem advance_of_perform_eq_none (jumps : Jumps) (hop : code[s.ip]? = some op)
    (h : perform input s.memory op = none) :
    ∃ u, advance code jumps { input } s = .stop (some (.outOfTape s.ip s.tape.size)) u ∧
      u.memory = s.memory.abandon op := by
  have heffect := effect_of_perform input s op
  rw [h] at heffect
  obtain ⟨c, he, hout, hconsumed⟩ := heffect
  refine ⟨_, advance_error hop he, ?_⟩
  rw [State.memory, hout, hconsumed]
  cases op <;> rfl

theorem advance_end_undisturbed (input : Array UInt8) (jumps : Jumps)
    (hop : code[s.ip]? = none) :
    ∃ u, advance code jumps { input } s = .stop none u ∧ u.memory = s.memory := by
  obtain ⟨c, hflush, hout, hconsumed⟩ := flush_undisturbed input s.console
  refine ⟨{ s with console := c }, ?_, ?_⟩
  · rw [advance_end hop, hflush]
    rfl
  · rw [State.memory, hout, hconsumed]
    rfl

/-! ## A whole run -/

/-- What the end of the machine's run has to be for an ending. -/
def Ending.Matches (fault? : Option Fault) (u : State) : Ending → Prop
  | .halted m => fault? = none ∧ u.memory = m
  | .offTape m =>
      (∃ i size, fault? = some (.outOfTape i size)) ∧ u.tape = m.tape ∧ u.console.output = m.output

/-- When the budget is used up, the machine has got as far. -/
theorem after_of_follow_eq_none (h : follow code jumps input budget s.ip s.memory = none) :
    ∃ t, after code jumps { input } budget s = some t ∧ t.ip < code.size := by
  induction budget generalizing s with
  | zero =>
      rw [follow] at h
      split at h
      · rename_i hlt
        exact ⟨s, rfl, hlt⟩
      · cases h
  | succ budget ih =>
      rw [follow] at h
      cases hop : code[s.ip]? with
      | none => simp [hop] at h
      | some op =>
          cases hperform : perform input s.memory op with
          | none => simp [hop, hperform] at h
          | some m =>
              obtain ⟨t, hadv, hip, rfl⟩ := advance_of_perform jumps hop hperform
              simp only [hop, hperform] at h
              rw [after_succ hadv]
              exact ih (by rwa [hip])

/-- Behind the last operation the run is over, whatever the budget. -/
theorem ends_behind (jumps : Jumps) (input : Array UInt8) (budget : Nat)
    (hop : code[s.ip]? = none) :
    ∃ n fault? u, Ends code jumps { input } n s fault? u ∧ n + charge code u ≤ budget ∧
      (Ending.halted s.memory).Matches fault? u := by
  obtain ⟨u, hadv, hmemory⟩ := advance_end_undisturbed input jumps hop
  refine ⟨0, _, u, ⟨s, rfl, hadv⟩, ?_, rfl, hmemory⟩
  rw [charge_stop hadv, charge_of_none hop]
  exact Nat.zero_le _

/-- When the run is over within the budget, the machine's run is. -/
theorem ends_of_follow_eq_some {e : Ending}
    (h : follow code jumps input budget s.ip s.memory = some e) :
    ∃ n fault? u, Ends code jumps { input } n s fault? u ∧ n + charge code u ≤ budget ∧
      e.Matches fault? u := by
  induction budget generalizing s with
  | zero =>
      rw [follow] at h
      split at h
      · cases h
      · rename_i hlt
        cases h
        exact ends_behind jumps input 0 (Array.getElem?_eq_none_iff.2 (Nat.not_lt.1 hlt))
  | succ budget ih =>
      rw [follow] at h
      cases hop : code[s.ip]? with
      | none =>
          simp only [hop, Option.some.injEq] at h
          subst h
          exact ends_behind jumps input _ hop
      | some op =>
          cases hperform : perform input s.memory op with
          | none =>
              simp only [hop, hperform, Option.some.injEq] at h
              subst h
              obtain ⟨u, hadv, hmemory⟩ := advance_of_perform_eq_none jumps hop hperform
              refine ⟨0, _, u, ⟨s, rfl, hadv⟩, ?_, ⟨_, _, rfl⟩, ?_, ?_⟩
              · rw [charge_stop hadv, charge_of_some hop]
                omega
              · exact (congrArg Memory.tape hmemory).trans (tape_abandon _ op)
              · exact (congrArg Memory.output hmemory).trans (output_abandon _ op)
          | some m =>
              obtain ⟨t, hadv, hip, rfl⟩ := advance_of_perform jumps hop hperform
              simp only [hop, hperform] at h
              obtain ⟨n, f, u, hends, hn, hmatches⟩ := ih (s := t) (by rwa [hip])
              refine ⟨n + 1, f, u, ?_, by omega, hmatches⟩
              rw [Nat.add_comm]
              exact hends.of_after (after_one hadv)

/-- A run of the machine that ends within the budget is followed to its end. -/
theorem follow_of_ends {n : Nat} {fault? : Option Fault}
    (h : Ends code jumps { input } n s fault? u) (hn : n + charge code u ≤ budget) :
    ∃ e, follow code jumps input budget s.ip s.memory = some e ∧ e.Matches fault? u := by
  cases hfollow : follow code jumps input budget s.ip s.memory with
  | none =>
      -- the machine would have got past its end
      obtain ⟨t, ht, hip⟩ := after_of_follow_eq_none hfollow
      have hle := h.le_of_after ht
      obtain rfl : budget = n := by omega
      obtain ⟨t', ht', hstop⟩ := h
      cases ht.symm.trans ht'
      rw [charge_stop hstop, charge, if_pos hip] at hn
      omega
  | some e =>
      obtain ⟨n', f, w, hends, -, hmatches⟩ := ends_of_follow_eq_some hfollow
      obtain ⟨-, rfl, rfl⟩ := hends.unique h
      exact ⟨e, rfl, hmatches⟩

theorem follow_of_ends_none {n : Nat} (h : Ends code jumps { input } n s none u)
    (hn : n + charge code u ≤ budget) :
    follow code jumps input budget s.ip s.memory = some (.halted u.memory) := by
  obtain ⟨e, he, hmatches⟩ := follow_of_ends h hn
  cases e with
  | halted m =>
      obtain ⟨-, rfl⟩ := hmatches
      exact he
  | offTape m =>
      obtain ⟨⟨i, k, hfault⟩, -⟩ := hmatches
      cases hfault

/-! ## What is seen of it -/

section Seen

variable {ops : List Op} {size : Nat} {limit : Nat}

/-- Under a limit, the machine is seen to come to the end of the program exactly when
the run does so with the limit as its budget. -/
theorem follow_halted_iff (hjumps : Jumps.ofProgram ops = .ok jumps) :
    follow ops.toArray jumps input limit 0 (.blank size) = some (.halted m) ↔
      ∃ o, Observed ⟨size, some limit⟩ ops { input } o ∧ o.fault? = none ∧ o.memory = m := by
  constructor
  · intro h
    obtain ⟨n, f, u, hends, hn, rfl, rfl⟩ := ends_of_follow_eq_some (s := .initial size) h
    refine ⟨u.observe none, (observed_iff hjumps).2 (.inl ⟨n, none, u, hends, ?_, rfl⟩), rfl, rfl⟩
    rintro _ ⟨⟩
    exact hn
  · rintro ⟨o, ho, hfault, rfl⟩
    rcases (observed_iff hjumps).1 ho with ⟨n, f, u, hends, hn, rfl⟩ | ⟨l, u, -, -, -, rfl⟩
    · cases hfault
      exact follow_of_ends_none hends (hn limit rfl)
    · cases hfault

/-- Without a limit, the machine is seen to come to the end of the program exactly when
the run does so with some budget. -/
theorem exists_follow_halted_iff (hjumps : Jumps.ofProgram ops = .ok jumps) :
    (∃ budget, follow ops.toArray jumps input budget 0 (.blank size) = some (.halted m)) ↔
      ∃ o, Observed ⟨size, none⟩ ops { input } o ∧ o.fault? = none ∧ o.memory = m := by
  constructor
  · rintro ⟨budget, h⟩
    obtain ⟨n, f, u, hends, -, rfl, rfl⟩ := ends_of_follow_eq_some (s := .initial size) h
    exact ⟨_, (observed_unlimited_iff hjumps).2 ⟨n, none, u, hends, rfl⟩, rfl, rfl⟩
  · rintro ⟨o, ho, hfault, rfl⟩
    obtain ⟨n, f, u, hends, rfl⟩ := (observed_unlimited_iff hjumps).1 ho
    cases hfault
    exact ⟨_, follow_of_ends_none hends (Nat.le_refl _)⟩

/-- Without a limit, the machine is seen to leave the tape exactly when the run does so
with some budget. -/
theorem exists_follow_offTape_iff (hjumps : Jumps.ofProgram ops = .ok jumps)
    {tape output : Array UInt8} :
    (∃ budget m, follow ops.toArray jumps input budget 0 (.blank size) = some (.offTape m) ∧
        m.tape = tape ∧ m.output = output) ↔
      ∃ o i k, Observed ⟨size, none⟩ ops { input } o ∧ o.fault? = some (.outOfTape i k) ∧
        o.tape = tape ∧ o.console.output = output := by
  constructor
  · rintro ⟨budget, m, h, rfl, rfl⟩
    obtain ⟨n, f, u, hends, -, ⟨i, k, rfl⟩, htape, hout⟩ :=
      ends_of_follow_eq_some (s := .initial size) h
    exact ⟨_, i, k, (observed_unlimited_iff hjumps).2 ⟨n, _, u, hends, rfl⟩, rfl, htape, hout⟩
  · rintro ⟨o, i, k, ho, hfault, rfl, rfl⟩
    obtain ⟨n, f, u, hends, rfl⟩ := (observed_unlimited_iff hjumps).1 ho
    cases hfault
    obtain ⟨e, he, hmatches⟩ := follow_of_ends hends (Nat.le_refl _)
    cases e with
    | halted m => cases hmatches.1
    | offTape m => exact ⟨_, m, he, hmatches.2.1.symm, hmatches.2.2.symm⟩

end Seen

end Brainfuck.Machine
