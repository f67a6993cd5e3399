import Brainfuck.Proofs.Machine.Course

/-!
# A run does not look ahead

What a run does depends only on the input that it has asked for.  Two runs whose inputs
begin alike are the same until one of them calls for a byte behind that beginning.

* `Snapshot.Asks` — the step from a snapshot calls for a byte; this does not depend on the
  input.
* `Snapshot.Asks.console`, `reads_of_not_asks` — such a step flushes and reads, and any
  other leaves what has been read alone.
* `step_append_eq` — a step that does not call for a byte behind the common beginning is the
  same on both inputs.
* `standing_append_eq` — and so is the way to every point where no such call has been made.
* `standing_until_read` — two runs part at the first such call or not at all.
-/

namespace Brainfuck

/-- The surroundings with another input. -/
def Surroundings.withInput (plan : Surroundings) (input : Array UInt8) : Surroundings :=
  { plan with input }

theorem Surroundings.refusal_withInput (plan : Surroundings) (input : Array UInt8) (call : Call) :
    (plan.withInput input).refusal call = plan.refusal call := rfl

namespace Console

variable {plan around : Surroundings} {c : Console}

theorem flush_withInput (plan : Surroundings) (input : Array UInt8) (c : Console) :
    c.flush (plan.withInput input) = c.flush plan := rfl

/-- Reads of inputs that begin alike bring the same, up to the end of that beginning. -/
theorem read_append_eq {p : Array UInt8} (h : c.consumed < p.size) (x y : Array UInt8) :
    c.read (plan.withInput (p ++ y)) = c.read (plan.withInput (p ++ x)) := by
  have hbyte (z : Array UInt8) : (p ++ z)[c.consumed]? = p[c.consumed]? :=
    Array.getElem?_append_left h
  simp only [read, Surroundings.withInput, hbyte]

/-- A read is a call of its own, and leaves what has been written and flushed. -/
theorem read_console (around : Surroundings) (c : Console) :
    (c.read around).2.reads = c.reads + 1 ∧ (c.read around).2.output = c.output ∧
      (c.read around).2.flushes = c.flushes ∧ (c.read around).2.calls = c.calls.push .read ∧
      (c.read around).2.consumed ≤ c.consumed + 1 := by
  unfold read
  dsimp only
  split
  · simp
  · split <;> simp

theorem write_reads (around : Surroundings) (c : Console) (b : UInt8) :
    (c.write around b).2.reads = c.reads ∧ (c.write around b).2.consumed = c.consumed := by
  unfold write
  dsimp only
  split <;> exact ⟨rfl, rfl⟩

end Console

namespace Machine

variable {code : Array Op} {jumps : Jumps} {plan around : Surroundings} {s : Snapshot} {op : Op}
  {c : Console}

/-! ## The steps that call for a byte -/

/-- The step from `s` calls for a byte: it is at an input, there are steps left, and the
flush before the call is not refused. -/
structure Snapshot.Asks (code : Array Op) (around : Surroundings) (s : Snapshot) : Prop where
  op : code[s.ip]? = some .input
  below : s.machine.limitReached? = none
  flushed : (s.console.flush around).1 = true

theorem Snapshot.Asks.withInput (h : s.Asks code plan) (input : Array UInt8) :
    s.Asks code (plan.withInput input) :=
  ⟨h.op, h.below, h.flushed⟩

theorem console_step (hop : code[s.ip]? = some op) (hlimit : s.machine.limitReached? = none) :
    (step code jumps around s).snapshot.console =
      effectConsole (effect around s.machine.tape s.machine.ptr s.console op) := by
  cases he : effect around s.machine.tape s.machine.ptr s.console op with
  | ok r =>
      rw [step_of_ok hop hlimit he]
      rfl
  | error r =>
      rw [step_of_error hop hlimit he]
      rfl

theorem effectConsole_input (tape : Array UInt8) (ptr : Nat) (c : Console) :
    effectConsole (effect around tape ptr c .input) =
      if (c.flush around).1 then ((c.flush around).2.read around).2 else (c.flush around).2 := by
  simp only [effect]
  rcases c.flush around with ⟨_ | _, c'⟩
  · rfl
  · simp only
    rcases c'.read around with ⟨b | _ | _, c''⟩
    · cases tape[ptr]? <;> rfl
    · rfl
    · rfl

/-- Only an input changes what has been read. -/
theorem reads_of_ne_input (hop : op ≠ .input) (tape : Array UInt8) (ptr : Nat) (c : Console) :
    (effectConsole (effect around tape ptr c op)).reads = c.reads ∧
      (effectConsole (effect around tape ptr c op)).consumed = c.consumed := by
  cases op with
  | run kind n => cases kind <;> simp only [effect] <;> split <;> exact ⟨rfl, rfl⟩
  | clear => simp only [effect]; split <;> exact ⟨rfl, rfl⟩
  | openLoop => simp only [effect]; split <;> exact ⟨rfl, rfl⟩
  | closeLoop => simp only [effect]; split <;> exact ⟨rfl, rfl⟩
  | input => exact absurd rfl hop
  | output =>
      simp only [effect]
      cases tape[ptr]? with
      | none => exact ⟨rfl, rfl⟩
      | some v =>
          have hwrite := c.write_reads around v
          revert hwrite
          simp only
          rcases c.write around v with ⟨_ | _, c'⟩ <;> exact id

/-- A step that calls for a byte flushes and then reads, and does nothing else at the
console. -/
theorem Snapshot.Asks.console (h : s.Asks code around) (jumps : Jumps) :
    (step code jumps around s).snapshot.console.reads = s.console.reads + 1 ∧
      (step code jumps around s).snapshot.console.output = s.console.output ∧
      (step code jumps around s).snapshot.console.flushes =
        s.console.flushes.push s.console.output.size ∧
      (step code jumps around s).snapshot.console.calls =
        (s.console.calls.push .flush).push .read ∧
      (step code jumps around s).snapshot.console.consumed ≤ s.console.consumed + 1 := by
  rw [console_step h.op h.below, effectConsole_input, if_pos h.flushed]
  exact Console.read_console around (s.console.flush around).2

/-- A step that does not call for a byte leaves what has been read alone. -/
theorem reads_of_not_asks (h : ¬ s.Asks code around) (jumps : Jumps) :
    (step code jumps around s).snapshot.console.reads = s.console.reads ∧
      (step code jumps around s).snapshot.console.consumed = s.console.consumed := by
  cases hop : code[s.ip]? with
  | none =>
      rw [step_of_end hop]
      exact ⟨rfl, rfl⟩
  | some op =>
      cases hlimit : s.machine.limitReached? with
      | some limit =>
          rw [step_of_limit hop hlimit]
          exact ⟨rfl, rfl⟩
      | none =>
          rw [console_step hop hlimit]
          by_cases hinput : op = .input
          · subst hinput
            rw [effectConsole_input, if_neg fun hflushed => h ⟨hop, hlimit, hflushed⟩]
            exact ⟨rfl, rfl⟩
          · exact reads_of_ne_input hinput ..

theorem consumed_le_reads (m : Machine) (ops : List Op) (around : Surroundings) (n : Nat) :
    (standing m ops around n).snapshot.console.consumed ≤
      (standing m ops around n).snapshot.console.reads := by
  refine standing_induction
    (motive := fun o => o.snapshot.console.consumed ≤ o.snapshot.console.reads)
    (fun _ _ => Nat.le_refl 0) (Nat.le_refl 0) ?_ n
  intro jumps s _ hs
  by_cases hasks : s.Asks ops.toArray around
  · obtain ⟨hreads, -, -, -, hconsumed⟩ := hasks.console jumps
    rw [hreads]
    exact Nat.le_trans hconsumed (Nat.succ_le_succ hs)
  · obtain ⟨hreads, hconsumed⟩ := reads_of_not_asks hasks jumps
    rw [hreads, hconsumed]
    exact hs

/-- A run makes its read calls one by one, each in a step that calls for a byte. -/
theorem exists_asks (m : Machine) {ops : List Op} {n k : Nat}
    (hbefore : (standing m ops around n).snapshot.console.reads ≤ k)
    (hafter : k < (standing m ops around (n + 1)).snapshot.console.reads) :
    ∃ jumps s, Jumps.ofProgram ops = .ok jumps ∧ standing m ops around n = .next s ∧
      s.Asks ops.toArray around ∧ s.console.reads = k := by
  cases hjumps : Jumps.ofProgram ops with
  | error i =>
      rw [standing_of_error hjumps] at hbefore hafter
      exact absurd hafter (Nat.not_lt.2 hbefore)
  | ok jumps =>
      rw [standing_succ hjumps] at hafter
      cases ho : standing m ops around n with
      | stop fault? s =>
          rw [ho] at hbefore hafter
          exact absurd hafter (Nat.not_lt.2 hbefore)
      | next s =>
          rw [ho] at hbefore hafter
          change s.console.reads ≤ k at hbefore
          change k < (step ops.toArray jumps around s).snapshot.console.reads at hafter
          by_cases hasks : s.Asks ops.toArray around
          · have hreads := (hasks.console jumps).1
            exact ⟨jumps, s, rfl, rfl, hasks, by omega⟩
          · have hreads := (reads_of_not_asks hasks jumps).1
            omega

/-! ## Two inputs that begin alike -/

section Append

variable {p : Array UInt8}

theorem effect_append_eq (h : op = .input → (c.flush plan).1 = true → c.consumed < p.size)
    (tape : Array UInt8) (ptr : Nat) (x y : Array UInt8) :
    effect (plan.withInput (p ++ y)) tape ptr c op =
      effect (plan.withInput (p ++ x)) tape ptr c op := by
  cases op with
  | run kind n => cases kind <;> rfl
  | input =>
      have hread : (c.flush plan).1 = true →
          (c.flush plan).2.read (plan.withInput (p ++ y)) =
            (c.flush plan).2.read (plan.withInput (p ++ x)) :=
        fun hflushed => Console.read_append_eq (c := (c.flush plan).2) (h rfl hflushed) x y
      revert hread
      simp only [effect, Console.flush_withInput]
      rcases c.flush plan with ⟨_ | _, c'⟩
      · intro _
        rfl
      · intro hread
        simp only [hread rfl, Surroundings.refusal_withInput]
  | _ => rfl

/-- A step that does not call for a byte behind the common beginning of two inputs is the
same on both. -/
theorem step_append_eq (hconsumed : s.console.consumed ≤ s.console.reads)
    (hasks : s.Asks code plan → s.console.reads < p.size) (x y : Array UInt8) :
    step code jumps (plan.withInput (p ++ y)) s = step code jumps (plan.withInput (p ++ x)) s := by
  cases hop : code[s.ip]? with
  | none =>
      rw [step_of_end hop, step_of_end hop]
      rfl
  | some op =>
      cases hlimit : s.machine.limitReached? with
      | some limit => rw [step_of_limit hop hlimit, step_of_limit hop hlimit]
      | none =>
          have heq := @effect_append_eq plan op s.console p
            (fun hinput hflushed =>
              Nat.lt_of_le_of_lt hconsumed (hasks ⟨hinput ▸ hop, hlimit, hflushed⟩))
            s.machine.tape s.machine.ptr x y
          cases he : effect (plan.withInput (p ++ x)) s.machine.tape s.machine.ptr s.console op with
          | ok r => rw [step_of_ok hop hlimit he, step_of_ok hop hlimit (heq.trans he)]
          | error r => rw [step_of_error hop hlimit he, step_of_error hop hlimit (heq.trans he)]

/-- Two runs whose inputs begin alike stand at the same point as long as no byte behind that
beginning has been called for. -/
theorem standing_append_eq (m : Machine) (ops : List Op) (x y : Array UInt8) {n : Nat}
    (h : (standing m ops (plan.withInput (p ++ x)) n).snapshot.console.reads ≤ p.size) :
    standing m ops (plan.withInput (p ++ y)) n = standing m ops (plan.withInput (p ++ x)) n := by
  cases hjumps : Jumps.ofProgram ops with
  | error i => rw [standing_of_error hjumps, standing_of_error hjumps]
  | ok jumps =>
      induction n with
      | zero => rw [standing_zero hjumps, standing_zero hjumps]
      | succ n ih =>
          have hbefore := (standing_extends m ops (plan.withInput (p ++ x)) (Nat.le_succ n)).reads
          have hconsumed := consumed_le_reads m ops (plan.withInput (p ++ x)) n
          rw [standing_succ hjumps, ih (Nat.le_trans hbefore h), standing_succ hjumps]
          rw [standing_succ hjumps] at h
          cases ho : standing m ops (plan.withInput (p ++ x)) n with
          | stop fault? s => rfl
          | next s =>
              rw [ho] at h hconsumed
              refine step_append_eq (s := s) hconsumed ?_ x y
              intro hasks
              have hreads := ((hasks.withInput (p ++ x)).console jumps).1
              exact Nat.lt_of_succ_le (Nat.le_trans (Nat.le_of_eq hreads.symm) h)

end Append

/-- **A run depends only on the input that it has asked for.**  Let two inputs begin with the
bytes `p`, with the same calls refused.  As long as a run has made no more than `p.size` read
calls, the other stands at the same point.  When it makes its next one, so does the other, in
the same step, and until then both have written and flushed the same and made the same calls.
If it never makes that call, both runs are the same to the end, if they come to one. -/
theorem standing_until_read (m : Machine) (ops : List Op) (plan : Surroundings)
    (p x y : Array UInt8) :
    (∀ n, (standing m ops (plan.withInput (p ++ x)) n).snapshot.console.reads ≤ p.size →
      standing m ops (plan.withInput (p ++ y)) n = standing m ops (plan.withInput (p ++ x)) n) ∧
    (∀ n, (standing m ops (plan.withInput (p ++ x)) n).snapshot.console.reads ≤ p.size →
      p.size < (standing m ops (plan.withInput (p ++ x)) (n + 1)).snapshot.console.reads →
      ∃ s, standing m ops (plan.withInput (p ++ x)) n = .next s ∧
        standing m ops (plan.withInput (p ++ y)) n = .next s ∧
        ∀ z, z = x ∨ z = y →
          let c := (standing m ops (plan.withInput (p ++ z)) (n + 1)).snapshot.console
          c.reads = p.size + 1 ∧ c.output = s.console.output ∧
            c.flushes = s.console.flushes.push s.console.output.size ∧
            c.calls = (s.console.calls.push .flush).push .read) ∧
    ((∀ n, (standing m ops (plan.withInput (p ++ x)) n).snapshot.console.reads ≤ p.size) →
      ∀ fuel, run fuel m ops (plan.withInput (p ++ y)) = run fuel m ops (plan.withInput (p ++ x))) ∧
    ∀ fuel report, run fuel m ops (plan.withInput (p ++ x)) = some report →
      report.console.reads ≤ p.size → run fuel m ops (plan.withInput (p ++ y)) = some report := by
  refine ⟨fun n => standing_append_eq m ops x y, ?_, ?_, ?_⟩
  · intro n hbefore hafter
    obtain ⟨jumps, s, hjumps, hfirst, hasks, hreads⟩ := exists_asks m hbefore hafter
    have hsecond := (standing_append_eq m ops x y hbefore).trans hfirst
    refine ⟨s, hfirst, hsecond, ?_⟩
    intro z hz
    have hz : standing m ops (plan.withInput (p ++ z)) n = .next s := by
      rcases hz with rfl | rfl
      · exact hfirst
      · exact hsecond
    have hasks : s.Asks ops.toArray (plan.withInput (p ++ z)) := hasks.withInput (p ++ z)
    obtain ⟨hread, houtput, hflushes, hcalls, -⟩ := hasks.console jumps
    rw [standing_succ hjumps, hz]
    exact ⟨hread.trans (by rw [hreads]), houtput, hflushes, hcalls⟩
  · intro hreads fuel
    rw [run_eq, run_eq, standing_append_eq m ops x y (hreads fuel)]
  · intro fuel report hrun hreads
    obtain ⟨ip, hstop⟩ := standing_of_run hrun
    rw [run_eq, standing_append_eq m ops x y, ← run_eq, hrun]
    rw [hstop]
    exact hreads

/-- A program that copies its input up to a zero byte makes two read calls on this input, so
the byte behind the zero does not matter. -/
theorem standing_until_read_stops_at_zero :
    ∃ report,
      run 9 (ofSettings ⟨1, none⟩) [.input, .openLoop, .output, .input, .closeLoop]
          (Surroundings.withInput {} (#[65, 0] ++ #[7])) = some report ∧
        report.console.reads = 2 ∧ report.console.output = #[65] ∧
        run 9 (ofSettings ⟨1, none⟩) [.input, .openLoop, .output, .input, .closeLoop]
          (Surroundings.withInput {} (#[65, 0] ++ #[])) = some report := by
  have hrun : run 9 (ofSettings ⟨1, none⟩) [.input, .openLoop, .output, .input, .closeLoop]
      (Surroundings.withInput {} (#[65, 0] ++ #[7])) =
        some ⟨none, ⟨⟨1, none⟩, #[0], 0, 5⟩,
          { consumed := 2, reads := 2, output := #[65], flushes := #[0, 1, 1],
            calls := #[.flush, .read, .write, .flush, .read, .flush] }⟩ := by cbv
  refine ⟨_, hrun, rfl, rfl, ?_⟩
  exact (standing_until_read _ _ {} #[65, 0] #[7] #[]).2.2.2 9 _ hrun (by decide)

end Machine

end Brainfuck
