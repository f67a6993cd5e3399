import Brainfuck.Proofs.Machine.Foresight

/-!
# The calls of a run

Whatever a run asks of its surroundings is entered in the log of its console.  Which calls are
refused can be told from the log alone, so that a disturbed run can be compared with the run
that nothing disturbs, call by call.

* `Surroundings.quiet` — the same input, with no call refused.
* `Surroundings.Refuses`, `Surroundings.Spares` — a call that is refused behind the calls before
  it, and a log in which no call is.
* `Console.Tallied` — the counters of a console are those of its log.
* `Snapshot.wants` — the calls that the step from a snapshot makes if none of them is refused.
* `step_of_spares`, `step_of_refuses` — a step whose calls are spared is the undisturbed step;
  otherwise the first refused call stops the run, and nothing but the log has changed.
* `tallied_of_next` — while a run goes on, no call has been refused.
-/

namespace Brainfuck

/-! ## Refused calls -/

namespace Surroundings

/-- The same input, with no call refused. -/
def quiet (plan : Surroundings) : Surroundings := { input := plan.input, reason := plan.reason }

@[simp] theorem refusal_quiet (plan : Surroundings) (call : Call) :
    plan.quiet.refusal call = plan.refusal call := rfl

/-- Refused calls of different kinds are different faults, whatever is said of them. -/
@[simp] theorem refusal_inj {plan : Surroundings} {call call' : Call} :
    plan.refusal call = plan.refusal call' ↔ call = call' := by
  constructor
  · intro h
    exact congrArg RefusedCall.call h
  · rintro rfl
    rfl

/-- A call is refused that is made behind the calls `before`, none of which was.  Read and flush
calls are counted from 1; of the writes the first `limit` are accepted. -/
def Refuses (plan : Surroundings) (before : List Call) : Call → Prop
  | .read => plan.refusedRead = some (before.count .read + 1)
  | .write => ∃ limit, plan.writeLimit = some limit ∧ limit ≤ before.count .write
  | .flush => plan.refusedFlush = some (before.count .flush + 1)

/-- No call of a log is refused behind those before it. -/
def Spares (plan : Surroundings) (calls : List Call) : Prop :=
  ∀ earlier call, earlier ++ [call] <+: calls → ¬ plan.Refuses earlier call

variable {plan : Surroundings} {calls calls' : List Call} {call : Call}

theorem spares_nil (plan : Surroundings) : plan.Spares [] := by
  intro earlier call h
  simp at h

theorem Spares.of_prefix (h : plan.Spares calls) (hle : calls' <+: calls) : plan.Spares calls' :=
  fun earlier call hmade => h earlier call (hmade.trans hle)

theorem spares_concat :
    plan.Spares (calls ++ [call]) ↔ plan.Spares calls ∧ ¬ plan.Refuses calls call := by
  constructor
  · intro h
    exact ⟨h.of_prefix (List.prefix_append calls [call]), h calls call List.prefix_rfl⟩
  · rintro ⟨hcalls, hcall⟩ earlier last hmade
    rcases List.prefix_concat_iff.1 hmade with heq | hmade
    · obtain ⟨rfl, hlast⟩ := List.append_inj' heq rfl
      cases hlast
      exact hcall
    · exact hcalls earlier last hmade

/-- Where further calls are refused, one of them is the first. -/
theorem exists_first_refused {more : List Call} (hcalls : plan.Spares calls)
    (h : ¬ plan.Spares (calls ++ more)) :
    ∃ earlier call later, more = earlier ++ call :: later ∧ plan.Spares (calls ++ earlier) ∧
      plan.Refuses (calls ++ earlier) call := by
  induction more generalizing calls with
  | nil =>
      rw [List.append_nil] at h
      exact absurd hcalls h
  | cons call more ih =>
      by_cases hcall : plan.Refuses calls call
      · exact ⟨[], call, more, rfl, by rwa [List.append_nil], by rwa [List.append_nil]⟩
      · rw [List.append_cons] at h
        obtain ⟨earlier, call', later, rfl, hspared, hrefused⟩ :=
          ih (spares_concat.2 ⟨hcalls, hcall⟩) h
        rw [← List.append_cons] at hspared hrefused
        exact ⟨call :: earlier, call', later, rfl, hspared, hrefused⟩

end Surroundings

/-! ## Calls at the console -/

namespace Console

/-- The counters of a console are those of its log, in which no write was refused. -/
structure Tallied (c : Console) : Prop where
  reads : c.reads = c.calls.toList.count .read
  flushes : c.flushes.size = c.calls.toList.count .flush
  output : c.output.size = c.calls.toList.count .write

variable {plan : Surroundings} {c : Console}

theorem tallied_empty : Tallied {} := ⟨rfl, rfl, rfl⟩

theorem Tallied.flush (h : c.Tallied) (around : Surroundings) : (c.flush around).2.Tallied := by
  constructor
  · simp [Console.flush, h.reads]
  · simp [Console.flush, h.flushes]
  · simp [Console.flush, h.output]

theorem Tallied.read (h : c.Tallied) (around : Surroundings) : (c.read around).2.Tallied := by
  obtain ⟨hreads, houtput, hflushes, hcalls, -⟩ := c.read_console around
  constructor
  · simp [hreads, hcalls, h.reads]
  · simp [hflushes, hcalls, h.flushes]
  · simp [houtput, hcalls, h.output]

theorem write_quiet (plan : Surroundings) (c : Console) (b : UInt8) :
    c.write plan.quiet b =
      (true, { c with output := c.output.push b, calls := c.calls.push .write }) := rfl

theorem read_quiet (plan : Surroundings) (c : Console) : (c.read plan.quiet).1 ≠ .refused := by
  unfold read
  dsimp only
  rw [if_neg (by simp [Surroundings.quiet])]
  split <;> simp

theorem Tallied.write_quiet (h : c.Tallied) (plan : Surroundings) (b : UInt8) :
    (c.write plan.quiet b).2.Tallied := by
  rw [Console.write_quiet]
  constructor
  · simp [h.reads]
  · simp [h.flushes]
  · simp [h.output]

theorem flush_of_spared (h : c.Tallied) (hcall : ¬ plan.Refuses c.calls.toList .flush) :
    c.flush plan = c.flush plan.quiet := by
  have hne : (plan.refusedFlush != some (c.flushes.size + 1)) = true := by
    rw [h.flushes]
    exact bne_iff_ne.2 hcall
  unfold flush
  simp only [Array.size_push, hne]
  rfl

theorem flush_of_refused (h : c.Tallied) (hcall : plan.Refuses c.calls.toList .flush) :
    c.flush plan = (false, (c.flush plan.quiet).2) := by
  have heq : plan.refusedFlush = some (c.flushes.size + 1) := by
    rw [h.flushes]
    exact hcall
  simp [flush, heq]

theorem read_of_spared (h : c.Tallied) (hcall : ¬ plan.Refuses c.calls.toList .read) :
    c.read plan = c.read plan.quiet := by
  have hne : plan.refusedRead ≠ some (c.reads + 1) := by
    rw [h.reads]
    exact hcall
  simp [read, Surroundings.quiet, hne]

theorem read_of_refused (h : c.Tallied) (hcall : plan.Refuses c.calls.toList .read) :
    c.read plan = (.refused, { c with reads := c.reads + 1, calls := c.calls.push .read }) := by
  have heq : plan.refusedRead = some (c.reads + 1) := by
    rw [h.reads]
    exact hcall
  simp [read, heq]

theorem write_of_spared (h : c.Tallied) (hcall : ¬ plan.Refuses c.calls.toList .write)
    (b : UInt8) : c.write plan b = c.write plan.quiet b := by
  have hroom : plan.writeLimit.any (fun limit => limit ≤ c.output.size) = false := by
    rw [h.output]
    cases hlimit : plan.writeLimit with
    | none => rfl
    | some limit => simpa [Surroundings.Refuses, hlimit] using hcall
  simp [write, full, hroom, Surroundings.quiet]

theorem write_of_refused (h : c.Tallied) (hcall : plan.Refuses c.calls.toList .write)
    (b : UInt8) : c.write plan b = (false, { c with calls := c.calls.push .write }) := by
  obtain ⟨limit, hlimit, hle⟩ := hcall
  rw [← h.output] at hle
  simp [write, full, hlimit, hle]

end Console

namespace Machine

variable {code : Array Op} {jumps : Jumps} {plan : Surroundings} {s : Snapshot} {op : Op}
  {tape : Array UInt8} {ptr : Nat} {c : Console} {earlier later : List Call} {call : Call}

/-! ## Calls of an operation -/

/-- The calls that an operation makes if none of them is refused. -/
def wants (tape : Array UInt8) (ptr : Nat) : Op → List Call
  | .output => if ptr < tape.size then [.write] else []
  | .input => [.flush, .read]
  | _ => []

/-- Without refusals an operation makes the calls that it wants to make, and the counters keep
up with the log. -/
theorem effectConsole_quiet (h : c.Tallied) (plan : Surroundings) (tape : Array UInt8) (ptr : Nat)
    (op : Op) :
    (effectConsole (effect plan.quiet tape ptr c op)).calls.toList =
        c.calls.toList ++ wants tape ptr op ∧
      (effectConsole (effect plan.quiet tape ptr c op)).Tallied := by
  cases op with
  | run kind n =>
      cases kind <;> simp only [effect, wants] <;> split <;> simpa [effectConsole] using h
  | clear => simp only [effect, wants]; split <;> simpa [effectConsole] using h
  | openLoop => simp only [effect, wants]; split <;> simpa [effectConsole] using h
  | closeLoop => simp only [effect, wants]; split <;> simpa [effectConsole] using h
  | output =>
      by_cases hptr : ptr < tape.size
      · simpa [effect, wants, hptr, effectConsole, Console.write_quiet] using
          h.write_quiet plan tape[ptr]
      · simpa [effect, wants, hptr, effectConsole] using h
  | input =>
      have hflush : (c.flush plan.quiet).1 = true := rfl
      rw [effectConsole_input, if_pos hflush]
      refine ⟨?_, (h.flush plan.quiet).read plan.quiet⟩
      rw [((c.flush plan.quiet).2.read_console plan.quiet).2.2.2.1]
      simp [Console.flush, wants]

theorem effect_quiet_ne_refused (plan : Surroundings) (tape : Array UInt8) (ptr : Nat) (c : Console)
    (op : Op) (refusal : RefusedCall) (c' : Console) :
    effect plan.quiet tape ptr c op ≠ .error (.refused refusal, c') := by
  cases op with
  | run kind n => cases kind <;> simp only [effect] <;> split <;> simp
  | clear => simp only [effect]; split <;> simp
  | openLoop => simp only [effect]; split <;> simp
  | closeLoop => simp only [effect]; split <;> simp
  | output => simp only [effect, Console.write_quiet]; split <;> simp
  | input =>
      have hread := (c.flush plan.quiet).2.read_quiet plan
      have hflushed : c.flush plan.quiet = (true, (c.flush plan.quiet).2) := rfl
      simp only [effect]
      rw [hflushed]
      simp only
      rcases hbyte : (c.flush plan.quiet).2.read plan.quiet with ⟨b | _ | _, c''⟩
      · simp only
        split <;> simp
      · simp
      · exact absurd (congrArg Prod.fst hbyte) hread

/-- An operation none of whose calls is refused has its effect. -/
theorem effect_of_spares (h : c.Tallied)
    (hspares : plan.Spares (c.calls.toList ++ wants tape ptr op)) :
    effect plan tape ptr c op = effect plan.quiet tape ptr c op := by
  cases op with
  | output =>
      by_cases hptr : ptr < tape.size
      · rw [wants, if_pos hptr, Surroundings.spares_concat] at hspares
        simp [effect, hptr, Console.write_of_spared h hspares.2]
      · simp [effect, hptr]
  | input =>
      rw [wants, List.append_cons, Surroundings.spares_concat,
        Surroundings.spares_concat] at hspares
      obtain ⟨⟨-, hflush⟩, hread⟩ := hspares
      have hread : ¬ plan.Refuses (c.flush plan.quiet).2.calls.toList .read := by
        simpa [Console.flush] using hread
      have hflushed : c.flush plan.quiet = (true, (c.flush plan.quiet).2) := rfl
      simp only [effect, Console.flush_of_spared h hflush]
      rw [hflushed]
      simp only [Console.read_of_spared (h.flush plan.quiet) hread, Surroundings.refusal_quiet]
  | run kind n => cases kind <;> rfl
  | _ => rfl

/-- An operation is stopped by the first of its calls that is refused, and has done nothing but
make its calls. -/
theorem effect_of_refuses (h : c.Tallied) (hwants : wants tape ptr op = earlier ++ call :: later)
    (hspares : plan.Spares (c.calls.toList ++ earlier))
    (hcall : plan.Refuses (c.calls.toList ++ earlier) call) :
    ∃ c', effect plan tape ptr c op = .error (.refused (plan.refusal call), c') ∧
      c'.calls.toList = c.calls.toList ++ earlier ++ [call] ∧ c'.output = c.output ∧
      c'.consumed = c.consumed := by
  cases op with
  | output =>
      by_cases hptr : ptr < tape.size
      · rw [wants, if_pos hptr] at hwants
        obtain ⟨rfl, rfl, -⟩ : earlier = [] ∧ call = .write ∧ later = [] := by
          simpa [List.singleton_eq_append_iff] using hwants
        rw [List.append_nil] at hcall
        refine ⟨{ c with calls := c.calls.push .write }, ?_, by simp, rfl, rfl⟩
        simp [effect, hptr, Console.write_of_refused h hcall]
      · simp [wants, hptr] at hwants
  | input =>
      rcases List.cons_eq_append_iff.1 hwants with ⟨rfl, hfirst⟩ | ⟨rest, rfl, hrest⟩
      · cases hfirst
        rw [List.append_nil] at hcall
        refine ⟨(c.flush plan.quiet).2, ?_, by simp [Console.flush], rfl, rfl⟩
        simp only [effect, Console.flush_of_refused h hcall]
      · obtain ⟨rfl, rfl, -⟩ : rest = [] ∧ call = .read ∧ later = [] := by
          simpa [List.singleton_eq_append_iff] using hrest
        obtain ⟨-, hflush⟩ := Surroundings.spares_concat.1 hspares
        have hcall : plan.Refuses (c.flush plan.quiet).2.calls.toList .read := by
          simpa [Console.flush] using hcall
        have hread := Console.read_of_refused (h.flush plan.quiet) hcall
        have hflushed : c.flush plan.quiet = (true, (c.flush plan.quiet).2) := rfl
        refine ⟨((c.flush plan.quiet).2.read plan).2, ?_, ?_, ?_, ?_⟩
        · simp only [effect, Console.flush_of_spared h hflush]
          rw [hflushed]
          simp only [hread]
        · rw [hread]
          simp [Console.flush]
        · rw [hread]
          rfl
        · rw [hread]
          rfl
  | run kind n => cases kind <;> simp [wants] at hwants
  | _ => simp [wants] at hwants

/-! ## Calls of a step -/

/-- The calls that the step from `s` makes if none of them is refused. -/
def Snapshot.wants (code : Array Op) (s : Snapshot) : List Call :=
  match code[s.ip]? with
  | none => [.flush]
  | some op =>
      if s.machine.limitReached? = none then Machine.wants s.machine.tape s.machine.ptr op else []

theorem wants_of_end (hop : code[s.ip]? = none) : s.wants code = [.flush] := by
  rw [Snapshot.wants, hop]

theorem wants_of_limit {limit : Nat} (hop : code[s.ip]? = some op)
    (hlimit : s.machine.limitReached? = some limit) : s.wants code = [] := by
  simp [Snapshot.wants, hop, hlimit]

theorem wants_of_op (hop : code[s.ip]? = some op) (hlimit : s.machine.limitReached? = none) :
    s.wants code = wants s.machine.tape s.machine.ptr op := by
  simp [Snapshot.wants, hop, hlimit]

/-- A step calls nobody, writes, reads behind a flush, or is at the end and flushes. -/
theorem wants_cases (code : Array Op) (s : Snapshot) :
    (∃ op, code[s.ip]? = some op ∧
        (s.wants code = [] ∨ s.wants code = [.write] ∨
          (s.wants code = [.flush, .read] ∧ op = .input ∧ s.machine.limitReached? = none))) ∨
      (code[s.ip]? = none ∧ s.wants code = [.flush]) := by
  cases hop : code[s.ip]? with
  | none => exact .inr ⟨rfl, wants_of_end hop⟩
  | some op =>
      refine .inl ⟨op, rfl, ?_⟩
      cases hlimit : s.machine.limitReached? with
      | some limit => exact .inl (wants_of_limit hop hlimit)
      | none =>
          rw [wants_of_op hop hlimit]
          cases op with
          | output => by_cases hptr : s.machine.ptr < s.machine.tape.size <;> simp [wants, hptr]
          | _ => simp [wants]

/-- Without refusals a step makes the calls that it wants to make, and the counters keep up with
the log. -/
theorem console_step_quiet (h : s.console.Tallied) (code : Array Op) (jumps : Jumps)
    (plan : Surroundings) :
    (step code jumps plan.quiet s).snapshot.console.calls.toList =
        s.console.calls.toList ++ s.wants code ∧
      (step code jumps plan.quiet s).snapshot.console.Tallied := by
  cases hop : code[s.ip]? with
  | none =>
      rw [step_of_end hop, wants_of_end hop]
      exact ⟨by simp [Outcome.snapshot, Console.flush], h.flush plan.quiet⟩
  | some op =>
      cases hlimit : s.machine.limitReached? with
      | some limit =>
          rw [step_of_limit hop hlimit, wants_of_limit hop hlimit, List.append_nil]
          exact ⟨rfl, h⟩
      | none =>
          rw [console_step hop hlimit, wants_of_op hop hlimit]
          exact effectConsole_quiet h plan _ _ op

theorem step_quiet_ne_refused (code : Array Op) (jumps : Jumps) (plan : Surroundings)
    (s : Snapshot) (refusal : RefusedCall) (t : Snapshot) :
    step code jumps plan.quiet s ≠ .stop (some (.refused refusal)) t := by
  intro h
  have hleads := leads_step code jumps plan.quiet s
  rw [h] at hleads
  generalize hfault : some (Fault.refused refusal) = fault? at hleads
  cases hleads with
  | ended _ => cases hfault
  | limited _ _ => cases hfault
  | @failed op trouble c _ _ he =>
      cases trouble with
      | noCell => cases hfault
      | refused cause => exact effect_quiet_ne_refused plan _ _ _ op cause c he

/-- A step none of whose calls is refused is the undisturbed step. -/
theorem step_of_spares (h : s.console.Tallied)
    (hspares : plan.Spares (s.console.calls.toList ++ s.wants code)) :
    step code jumps plan s = step code jumps plan.quiet s := by
  cases hop : code[s.ip]? with
  | none =>
      rw [wants_of_end hop, Surroundings.spares_concat] at hspares
      rw [step_of_end hop, step_of_end hop, Console.flush_of_spared h hspares.2,
        Surroundings.refusal_quiet]
  | some op =>
      cases hlimit : s.machine.limitReached? with
      | some limit => rw [step_of_limit hop hlimit, step_of_limit hop hlimit]
      | none =>
          rw [wants_of_op hop hlimit] at hspares
          have heq := effect_of_spares h hspares
          cases he : effect plan.quiet s.machine.tape s.machine.ptr s.console op with
          | ok r => rw [step_of_ok hop hlimit he, step_of_ok hop hlimit (heq.trans he)]
          | error r => rw [step_of_error hop hlimit he, step_of_error hop hlimit (heq.trans he)]

/-- A run that comes to `s` stops at `t` after the calls `made`, and has done nothing else. -/
structure Snapshot.CutAfter (s : Snapshot) (made : List Call) (t : Snapshot) : Prop where
  ip : t.ip = s.ip
  tape : t.machine.tape = s.machine.tape
  ptr : t.machine.ptr = s.machine.ptr
  output : t.console.output = s.console.output
  consumed : t.console.consumed = s.console.consumed
  calls : t.console.calls.toList = s.console.calls.toList ++ made

/-- The first refused call of a step stops the run. -/
theorem step_of_refuses (h : s.console.Tallied) (hwants : s.wants code = earlier ++ call :: later)
    (hspares : plan.Spares (s.console.calls.toList ++ earlier))
    (hcall : plan.Refuses (s.console.calls.toList ++ earlier) call) (jumps : Jumps) :
    ∃ t, step code jumps plan s = .stop (some (.refused (plan.refusal call))) t ∧
      s.CutAfter (earlier ++ [call]) t := by
  cases hop : code[s.ip]? with
  | none =>
      rw [wants_of_end hop] at hwants
      obtain ⟨rfl, rfl, -⟩ : earlier = [] ∧ call = .flush ∧ later = [] := by
        simpa [List.singleton_eq_append_iff] using hwants
      rw [List.append_nil] at hcall
      rw [step_of_end hop, Console.flush_of_refused h hcall]
      exact ⟨_, rfl, rfl, rfl, rfl, rfl, rfl, by simp [Console.flush]⟩
  | some op =>
      cases hlimit : s.machine.limitReached? with
      | some limit =>
          rw [wants_of_limit hop hlimit] at hwants
          simp at hwants
      | none =>
          rw [wants_of_op hop hlimit] at hwants
          obtain ⟨c, he, hcalls, houtput, hconsumed⟩ := effect_of_refuses h hwants hspares hcall
          rw [step_of_error hop hlimit he]
          exact ⟨_, rfl, rfl, rfl, rfl, houtput, hconsumed, by rw [hcalls, List.append_assoc]⟩

/-- A step is the undisturbed one, or is cut short by the first of its calls that is refused. -/
theorem step_spared_or_cut (h : s.console.Tallied) (hspared : plan.Spares s.console.calls.toList)
    (code : Array Op) (jumps : Jumps) :
    (plan.Spares (s.console.calls.toList ++ s.wants code) ∧
        step code jumps plan s = step code jumps plan.quiet s) ∨
      ∃ earlier call later t, s.wants code = earlier ++ call :: later ∧
        plan.Spares (s.console.calls.toList ++ earlier) ∧
        plan.Refuses (s.console.calls.toList ++ earlier) call ∧
        step code jumps plan s = .stop (some (.refused (plan.refusal call))) t ∧
        s.CutAfter (earlier ++ [call]) t := by
  by_cases hspares : plan.Spares (s.console.calls.toList ++ s.wants code)
  · exact .inl ⟨hspares, step_of_spares h hspares⟩
  · obtain ⟨earlier, call, later, hwants, hbefore, hcall⟩ :=
      Surroundings.exists_first_refused hspared hspares
    obtain ⟨t, hstop, hcut⟩ := step_of_refuses h hwants hbefore hcall jumps
    exact .inr ⟨earlier, call, later, t, hwants, hbefore, hcall, hstop, hcut⟩

/-! ## Calls of a run -/

/-- While a run goes on, no call has been refused and the counters keep up with the log. -/
theorem tallied_of_next {m : Machine} {ops : List Op} {n : Nat}
    (h : standing m ops plan n = .next s) :
    s.console.Tallied ∧ plan.Spares s.console.calls.toList := by
  have hall : ∀ s, standing m ops plan n = .next s →
      s.console.Tallied ∧ plan.Spares s.console.calls.toList := by
    refine standing_induction (motive := fun o => ∀ s, o = .next s →
      s.console.Tallied ∧ plan.Spares s.console.calls.toList) ?_ ?_ ?_ n
    · intro i _ s hs
      cases hs
    · intro s hs
      cases hs
      exact ⟨Console.tallied_empty, Surroundings.spares_nil plan⟩
    · intro jumps r _ hr s hs
      obtain ⟨htallied, hspared⟩ := hr r rfl
      rcases step_spared_or_cut htallied hspared ops.toArray jumps with
        ⟨hspares, heq⟩ | ⟨_, _, _, t, _, _, _, hstop, _⟩
      · obtain ⟨hcalls, hnext⟩ := console_step_quiet htallied ops.toArray jumps plan
        rw [← heq, hs] at hcalls hnext
        exact ⟨hnext, hcalls ▸ hspares⟩
      · cases hstop.symm.trans hs
  exact hall s h

end Machine

end Brainfuck
