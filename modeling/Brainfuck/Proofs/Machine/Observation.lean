import Brainfuck.Proofs.Machine.Trace

/-!
# What a caller sees of a run

A caller sees why a run stopped, the tape, the pointer and the console; the
counter stays inside the machine.  Every run, limited or not, is read off the
steps between states of `Brainfuck.Proofs.Machine.Trace`.

* `Observation`, `Observed` — what is seen of a run, and that a run of the machine
  ends with it.
* `observed_of_error` — a program whose brackets do not match is not started.
* `observed_iff` — a run is seen as it ends, unless its limit is passed on the
  way; then it is seen as it stands when the limit is used up.
* `Observed.unique`, `exists_observed_of_limit` — a run is seen in one way only, and with
  a limit it is over some time.
* `Console.Extends` — a console is only added to, so that what a run has written
  is a prefix of what it writes later.
-/

namespace Brainfuck

/-! ## A console is only added to -/

/-- `c'` is a console that `c` has become, or `c` itself. -/
structure Console.Extends (c c' : Console) : Prop where
  consumed : c.consumed ≤ c'.consumed
  reads : c.reads ≤ c'.reads
  output : c.output.toList <+: c'.output.toList
  flushes : c.flushes.toList <+: c'.flushes.toList
  calls : c.calls.toList <+: c'.calls.toList

namespace Console

theorem Extends.refl (c : Console) : c.Extends c :=
  ⟨Nat.le_refl _, Nat.le_refl _, List.prefix_rfl, List.prefix_rfl, List.prefix_rfl⟩

theorem Extends.trans {c d e : Console} (h : c.Extends d) (h' : d.Extends e) : c.Extends e :=
  ⟨Nat.le_trans h.consumed h'.consumed, Nat.le_trans h.reads h'.reads,
    h.output.trans h'.output, h.flushes.trans h'.flushes, h.calls.trans h'.calls⟩

theorem extends_flush (around : Surroundings) (c : Console) : c.Extends (c.flush around).2 :=
  ⟨Nat.le_refl _, Nat.le_refl _, List.prefix_rfl, by simp [flush], by simp [flush]⟩

theorem extends_write (around : Surroundings) (c : Console) (b : UInt8) :
    c.Extends (c.write around b).2 := by
  unfold write
  dsimp only
  split
  · exact ⟨Nat.le_refl _, Nat.le_refl _, List.prefix_rfl, List.prefix_rfl, by simp⟩
  · exact ⟨Nat.le_refl _, Nat.le_refl _, by simp, List.prefix_rfl, by simp⟩

theorem extends_read (around : Surroundings) (c : Console) : c.Extends (c.read around).2 := by
  unfold read
  dsimp only
  split
  · exact ⟨Nat.le_refl _, Nat.le_succ _, List.prefix_rfl, List.prefix_rfl, by simp⟩
  · split
    · exact ⟨Nat.le_succ _, Nat.le_succ _, List.prefix_rfl, List.prefix_rfl, by simp⟩
    · exact ⟨Nat.le_refl _, Nat.le_succ _, List.prefix_rfl, List.prefix_rfl, by simp⟩

end Console

namespace Machine

/-! ## Observations -/

/-- What a caller sees of a run. -/
structure Observation where
  /-- What stopped the run; `none` when the program came to its end. -/
  fault? : Option Fault
  tape : Array UInt8
  ptr : Nat
  console : Console
  deriving DecidableEq, Repr

/-- What is seen of a run that stops at `s`. -/
def State.observe (fault? : Option Fault) (s : State) : Observation :=
  ⟨fault?, s.tape, s.ptr, s.console⟩

/-- What is seen of a report. -/
def Report.observation (r : Report) : Observation :=
  ⟨r.fault?, r.machine.tape, r.machine.ptr, r.console⟩

/-- A machine with these settings ends a run of `ops`, and `o` is seen of it. -/
def Observed (settings : Settings) (ops : List Op) (around : Surroundings) (o : Observation) :
    Prop :=
  ∃ fuel report, run fuel (ofSettings settings) ops around = some report ∧ report.observation = o

/-- The state in which a run on `size` cells starts. -/
def State.initial (size : Nat) : State := ⟨0, Array.replicate size 0, 0, {}⟩

/-- What decides how the run goes on from a snapshot. -/
def Snapshot.state (s : Snapshot) : State := ⟨s.ip, s.machine.tape, s.machine.ptr, s.console⟩

theorem state_start (settings : Settings) :
    (⟨0, (ofSettings settings).reset, {}⟩ : Snapshot).state = .initial settings.tapeSize := by
  simp [Snapshot.state, State.initial, reset, ofSettings]

/-- A program whose brackets do not match is not started. -/
theorem observed_of_error {ops : List Op} {i : Nat} (h : Jumps.ofProgram ops = .error i)
    {settings : Settings} {around : Surroundings} {o : Observation} :
    Observed settings ops around o ↔
      o = (State.initial settings.tapeSize).observe (some (.unmatchedLoop i)) := by
  have hrun : ∀ fuel, run fuel (ofSettings settings) ops around =
      some ⟨some (.unmatchedLoop i), (ofSettings settings).reset, {}⟩ := by
    intro fuel
    rw [run, h]
  have hobs : (⟨some (.unmatchedLoop i), (ofSettings settings).reset, {}⟩ : Report).observation =
      (State.initial settings.tapeSize).observe (some (.unmatchedLoop i)) := by
    rw [← state_start]
    rfl
  constructor
  · rintro ⟨fuel, report, hreport, rfl⟩
    cases (hrun fuel).symm.trans hreport
    exact hobs
  · rintro rfl
    exact ⟨0, _, hrun 0, hobs⟩

/-! ## A run is seen in one way only -/

/-- More fuel does not change how a run is over. -/
theorem runFor_add {code : Array Op} {jumps : Jumps} {around : Surroundings} {fuel : Nat}
    {s : Snapshot} {r : Option Fault × Snapshot} (h : runFor code jumps around fuel s = some r)
    (more : Nat) : runFor code jumps around (fuel + more) s = some r := by
  induction fuel generalizing s with
  | zero => cases h
  | succ fuel ih =>
      rw [Nat.succ_add]
      rw [runFor] at h ⊢
      cases hstep : step code jumps around s with
      | next t =>
          rw [hstep] at h
          exact ih h
      | stop fault? t =>
          rw [hstep] at h
          exact h

theorem run_add {fuel : Nat} {m : Machine} {ops : List Op} {around : Surroundings} {r : Report}
    (h : run fuel m ops around = some r) (more : Nat) :
    run (fuel + more) m ops around = some r := by
  unfold run at h ⊢
  cases hjumps : Jumps.ofProgram ops with
  | error i =>
      rw [hjumps] at h
      exact h
  | ok jumps =>
      simp only [hjumps, Option.map_eq_some_iff] at h ⊢
      obtain ⟨a, ha, hr⟩ := h
      exact ⟨a, runFor_add ha more, hr⟩

/-- A run is seen in one way only. -/
theorem Observed.unique {settings : Settings} {ops : List Op} {around : Surroundings}
    {o o' : Observation} (h : Observed settings ops around o)
    (h' : Observed settings ops around o') : o = o' := by
  obtain ⟨fuel, r, hr, rfl⟩ := h
  obtain ⟨fuel', r', hr', rfl⟩ := h'
  have hmore := run_add hr fuel'
  have hmore' := run_add hr' fuel
  rw [Nat.add_comm] at hmore'
  cases hmore.symm.trans hmore'
  rfl

/-! ## A counted step is a step -/

variable {code : Array Op} {jumps : Jumps} {around : Surroundings}

/-- How many operations a run has begun when it stops at `u` without having executed
the one it is at: that one, if there is one. -/
def charge (code : Array Op) (u : State) : Nat := if u.ip < code.size then 1 else 0

theorem charge_of_none {u : State} (hop : code[u.ip]? = none) : charge code u = 0 :=
  if_neg (Nat.not_lt.2 (Array.getElem?_eq_none_iff.1 hop))

theorem charge_of_some {u : State} {op : Op} (hop : code[u.ip]? = some op) : charge code u = 1 :=
  if_pos (Array.getElem?_eq_some_iff.1 hop).1

theorem charge_le_one (code : Array Op) (u : State) : charge code u ≤ 1 := by
  unfold charge
  split <;> decide

/-- A run stops at the operation it is at. -/
theorem charge_stop {s u : State} {fault? : Option Fault}
    (h : advance code jumps around s = .stop fault? u) : charge code u = charge code s := by
  have hip : u.ip = s.ip := by rw [advance_stop h]
  rw [charge, hip, charge]

/-- Behind the last operation the output is flushed and the run is over. -/
theorem step_of_end {s : Snapshot} (hop : code[s.ip]? = none) :
    step code jumps around s =
      .stop (if (s.console.flush around).1 then none else some (.refused (around.refusal .flush)))
        { s with console := (s.console.flush around).2 } := by
  obtain ⟨ip, m, c⟩ := s
  simp only [step, hop]
  rcases c.flush around with ⟨_ | _, c'⟩ <;> rfl

theorem step_at_end (jumps : Jumps) (around : Surroundings) {s : Snapshot}
    (hop : code[s.ip]? = none) :
    ∃ fault? u, step code jumps around s = .stop fault? u ∧
      advance code jumps around s.state = .stop fault? u.state :=
  ⟨_, _, step_of_end hop, advance_end (s := s.state) hop⟩

theorem step_of_limit {s : Snapshot} {op : Op} (hop : code[s.ip]? = some op) {limit : Nat}
    (hlimit : s.machine.limitReached? = some limit) :
    step code jumps around s = .stop (some (.stepLimit limit)) s := by
  obtain ⟨ip, m, c⟩ := s
  simp only [step, hop, hlimit]
  rfl

theorem step_of_ok {s : Snapshot} {op : Op} (hop : code[s.ip]? = some op)
    (hlimit : s.machine.limitReached? = none) {tape : Array UInt8} {ptr : Nat} {c : Console}
    (h : effect around s.machine.tape s.machine.ptr s.console op = .ok (tape, ptr, c)) :
    step code jumps around s =
      .next ⟨target jumps s.ip s.machine.tape s.machine.ptr op,
        { s.machine with tape, ptr, steps := s.machine.steps + 1 }, c⟩ := by
  obtain ⟨ip, m, c₀⟩ := s
  simp only [step, hop, hlimit, execute_eq, h]

theorem step_of_error {s : Snapshot} {op : Op} (hop : code[s.ip]? = some op)
    (hlimit : s.machine.limitReached? = none) {trouble : Trouble} {c : Console}
    (h : effect around s.machine.tape s.machine.ptr s.console op = .error (trouble, c)) :
    step code jumps around s =
      .stop (some (trouble.fault s.ip s.machine.tape.size))
        ⟨s.ip, { s.machine with steps := s.machine.steps + 1 }, c⟩ := by
  obtain ⟨ip, m, c₀⟩ := s
  simp only [step, hop, hlimit, execute_eq, h]
  rfl

theorem step_below_limit (jumps : Jumps) (around : Surroundings) {s : Snapshot} {op : Op}
    (hop : code[s.ip]? = some op) (hlimit : s.machine.limitReached? = none) :
    (∃ t, step code jumps around s = .next t ∧
        advance code jumps around s.state = .next t.state ∧
        t.machine.settings = s.machine.settings ∧ t.machine.steps = s.machine.steps + 1) ∨
      ∃ fault? u, step code jumps around s = .stop fault? u ∧
        advance code jumps around s.state = .stop fault? u.state := by
  cases he : effect around s.machine.tape s.machine.ptr s.console op with
  | ok r =>
      exact .inl ⟨_, step_of_ok hop hlimit he, advance_ok (s := s.state) hop he, rfl, rfl⟩
  | error r =>
      exact .inr ⟨_, _, step_of_error hop hlimit he, advance_error (s := s.state) hop he⟩

theorem limitReached?_eq_none {m : Machine} :
    m.limitReached? = none ↔ ∀ limit, m.settings.maxSteps = some limit → m.steps < limit := by
  unfold limitReached?
  cases m.settings.maxSteps with
  | none => simp
  | some limit => simp [Option.filter_eq_none_iff]

theorem limitReached?_eq_some {m : Machine} {limit : Nat} :
    m.limitReached? = some limit ↔ m.settings.maxSteps = some limit ∧ limit ≤ m.steps := by
  unfold limitReached?
  cases m.settings.maxSteps with
  | none => simp
  | some limit => simp [Option.filter_eq_some_iff]

/-! ## A counted run is a run -/

theorem ends_of_stop {s u : Snapshot} {fault? : Option Fault}
    (hadv : advance code jumps around s.state = .stop fault? u.state)
    (hle : ∀ limit, s.machine.settings.maxSteps = some limit →
      s.machine.steps + charge code s.state ≤ limit) :
    ∃ n, Ends code jumps around n s.state fault? u.state ∧
      ∀ limit, s.machine.settings.maxSteps = some limit →
        s.machine.steps + n + charge code u.state ≤ limit := by
  refine ⟨0, ⟨s.state, rfl, hadv⟩, ?_⟩
  rw [charge_stop hadv]
  exact hle

/-- What follows a run when it is followed with a counter: it ends within the limit,
or the limit is used up on the way. -/
theorem runFor_sound {fuel : Nat} {s u : Snapshot} {fault? : Option Fault}
    (hle : ∀ limit, s.machine.settings.maxSteps = some limit → s.machine.steps ≤ limit)
    (h : runFor code jumps around fuel s = some (fault?, u)) :
    (∃ n, Ends code jumps around n s.state fault? u.state ∧
        ∀ limit, s.machine.settings.maxSteps = some limit →
          s.machine.steps + n + charge code u.state ≤ limit) ∨
      ∃ n, after code jumps around n s.state = some u.state ∧ u.ip < code.size ∧
        s.machine.settings.maxSteps = some (s.machine.steps + n) ∧
        fault? = some (.stepLimit (s.machine.steps + n)) := by
  induction fuel generalizing s with
  | zero => cases h
  | succ fuel ih =>
      rw [runFor] at h
      cases hop : code[s.ip]? with
      | none =>
          obtain ⟨f, w, hstep, hadv⟩ := step_at_end jumps around hop
          rw [hstep] at h
          cases h
          refine .inl (ends_of_stop hadv fun limit hmax => ?_)
          rw [charge_of_none hop]
          exact hle limit hmax
      | some op =>
          cases hlimit : s.machine.limitReached? with
          | some limit =>
              have hlt : s.ip < code.size := (Array.getElem?_eq_some_iff.1 hop).1
              obtain ⟨hmax, hge⟩ := limitReached?_eq_some.1 hlimit
              have heq : limit = s.machine.steps := Nat.le_antisymm hge (hle limit hmax)
              rw [step_of_limit hop hlimit] at h
              cases h
              exact .inr ⟨0, rfl, hlt, by rw [hmax, heq]; rfl, by rw [heq]; rfl⟩
          | none =>
              have hbelow := limitReached?_eq_none.1 hlimit
              rcases step_below_limit jumps around hop hlimit with
                ⟨t, hstep, hadv, hset, hsteps⟩ | ⟨f, w, hstep, hadv⟩
              · rw [hstep] at h
                rw [← hset] at hbelow ⊢
                have hle' : ∀ limit, t.machine.settings.maxSteps = some limit →
                    t.machine.steps ≤ limit := by
                  intro limit hmax
                  rw [hsteps]
                  exact hbelow limit hmax
                rcases ih hle' h with ⟨n, ⟨r, hr, hstop⟩, hn⟩ | ⟨n, hn, hip, hmax, hf⟩
                · refine .inl ⟨n + 1, ⟨r, (after_succ hadv n).trans hr, hstop⟩, ?_⟩
                  intro limit hmax
                  have := hn limit hmax
                  omega
                · rw [hsteps, show s.machine.steps + 1 + n = s.machine.steps + (n + 1) by omega]
                    at hmax hf
                  exact .inr ⟨n + 1, (after_succ hadv n).trans hn, hip, hmax, hf⟩
              · rw [hstep] at h
                cases h
                refine .inl (ends_of_stop hadv fun limit hmax => ?_)
                rw [charge_of_some hop]
                exact hbelow limit hmax

/-- A run that gets `n` steps far within the limit can be followed so far. -/
theorem runFor_after {n : Nat} {s : Snapshot} {t : State}
    (hn : ∀ limit, s.machine.settings.maxSteps = some limit → s.machine.steps + n ≤ limit)
    (h : after code jumps around n s.state = some t) :
    ∃ r : Snapshot, r.state = t ∧ r.machine.settings = s.machine.settings ∧
      r.machine.steps = s.machine.steps + n ∧
      ∀ fuel, runFor code jumps around (n + fuel) s = runFor code jumps around fuel r := by
  induction n generalizing s with
  | zero =>
      cases h
      exact ⟨s, rfl, rfl, rfl, fun fuel => by rw [Nat.zero_add]⟩
  | succ n ih =>
      have hbelow : s.machine.limitReached? = none := by
        rw [limitReached?_eq_none]
        intro limit hmax
        have := hn limit hmax
        omega
      cases hop : code[s.ip]? with
      | none =>
          rw [after_succ_of_stop (advance_end hop)] at h
          cases h
      | some op =>
          rcases step_below_limit jumps around hop hbelow with
            ⟨r, hstep, hadv, hset, hsteps⟩ | ⟨f, w, hstep, hadv⟩
          · rw [after_succ hadv] at h
            have hn' : ∀ limit, r.machine.settings.maxSteps = some limit →
                r.machine.steps + n ≤ limit := by
              intro limit hmax
              rw [hset] at hmax
              have := hn limit hmax
              omega
            obtain ⟨w, hw, hwset, hwsteps, hrun⟩ := ih hn' h
            refine ⟨w, hw, hwset.trans hset, by omega, ?_⟩
            intro fuel
            rw [Nat.succ_add, runFor, hstep]
            exact hrun fuel
          · rw [after_succ_of_stop hadv] at h
            cases h

theorem runFor_ends {n : Nat} {s : Snapshot} {fault? : Option Fault} {w : State}
    (hn : ∀ limit, s.machine.settings.maxSteps = some limit →
      s.machine.steps + n + charge code w ≤ limit)
    (h : Ends code jumps around n s.state fault? w) :
    ∃ fuel u, runFor code jumps around fuel s = some (fault?, u) ∧ u.state = w := by
  obtain ⟨t, ht, hstop⟩ := h
  obtain ⟨r, rfl, hset, hsteps, hrun⟩ := runFor_after (fun limit hmax => by
    have := hn limit hmax
    omega) ht
  suffices ∃ u, step code jumps around r = .stop fault? u ∧ u.state = w by
    obtain ⟨u, hu, rfl⟩ := this
    exact ⟨n + 1, u, by rw [hrun, runFor, hu], rfl⟩
  cases hop : code[r.ip]? with
  | none =>
      obtain ⟨f, u, hstep, hadv⟩ := step_at_end jumps around hop
      cases hadv.symm.trans hstop
      exact ⟨u, hstep, rfl⟩
  | some op =>
      have hcharge : charge code w = 1 := (charge_stop hstop).trans (charge_of_some hop)
      have hbelow : r.machine.limitReached? = none := by
        rw [limitReached?_eq_none]
        intro limit hmax
        rw [hset] at hmax
        have := hn limit hmax
        omega
      rcases step_below_limit jumps around hop hbelow with
        ⟨t, hstep, hadv, -⟩ | ⟨f, u, hstep, hadv⟩
      · cases hadv.symm.trans hstop
      · cases hadv.symm.trans hstop
        exact ⟨u, hstep, rfl⟩

theorem runFor_limit {n : Nat} {s : Snapshot} {w : State}
    (hmax : s.machine.settings.maxSteps = some (s.machine.steps + n))
    (h : after code jumps around n s.state = some w) (hip : w.ip < code.size) :
    ∃ fuel u, runFor code jumps around fuel s =
        some (some (.stepLimit (s.machine.steps + n)), u) ∧ u.state = w := by
  obtain ⟨r, rfl, hset, hsteps, hrun⟩ := runFor_after (fun limit hmax' => by
    cases hmax.symm.trans hmax'
    exact Nat.le_refl _) h
  have hlimit : r.machine.limitReached? = some (s.machine.steps + n) := by
    rw [limitReached?_eq_some, hset, hsteps]
    exact ⟨hmax, Nat.le_refl _⟩
  have hop : code[r.ip]? = some code[r.ip] := Array.getElem?_eq_getElem hip
  exact ⟨n + 1, r, by rw [hrun, runFor, step_of_limit hop hlimit], rfl⟩

/-! ## Every run is read off its steps -/

/-- A run is seen as it ends, unless its limit is passed on the way; then it is seen
as it stands when the limit is used up. -/
theorem observed_iff {ops : List Op} {jumps : Jumps} (hjumps : Jumps.ofProgram ops = .ok jumps)
    {settings : Settings} {around : Surroundings} {o : Observation} :
    Observed settings ops around o ↔
      (∃ n fault? u, Ends ops.toArray jumps around n (.initial settings.tapeSize) fault? u ∧
          (∀ limit, settings.maxSteps = some limit → n + charge ops.toArray u ≤ limit) ∧
          o = u.observe fault?) ∨
        ∃ limit u, settings.maxSteps = some limit ∧
          after ops.toArray jumps around limit (.initial settings.tapeSize) = some u ∧
          u.ip < ops.toArray.size ∧ o = u.observe (some (.stepLimit limit)) := by
  have hrun : ∀ fuel, run fuel (ofSettings settings) ops around =
      (runFor ops.toArray jumps around fuel ⟨0, (ofSettings settings).reset, {}⟩).map
        fun r => ⟨r.1, r.2.machine, r.2.console⟩ := by
    intro fuel
    rw [run, hjumps]
  have hsteps : (ofSettings settings).reset.steps = 0 := rfl
  have hset : (ofSettings settings).reset.settings = settings := rfl
  constructor
  · rintro ⟨fuel, report, hreport, rfl⟩
    rw [hrun, Option.map_eq_some_iff] at hreport
    obtain ⟨⟨fault?, u⟩, hu, rfl⟩ := hreport
    rcases runFor_sound (fun limit _ => Nat.zero_le limit) hu with
      ⟨n, hends, hn⟩ | ⟨n, hafter, hip, hmax, rfl⟩
    · rw [state_start] at hends
      refine .inl ⟨n, fault?, u.state, hends, ?_, rfl⟩
      intro limit hmax
      have := hn limit hmax
      rwa [hsteps, Nat.zero_add] at this
    · rw [state_start] at hafter
      rw [hsteps, Nat.zero_add, hset] at hmax
      exact .inr ⟨n, u.state, hmax, hafter, hip, by rw [hsteps, Nat.zero_add]; rfl⟩
  · rintro (⟨n, fault?, w, hends, hn, rfl⟩ | ⟨limit, w, hmax, hafter, hip, rfl⟩)
    · rw [← state_start] at hends
      obtain ⟨fuel, u, hu, rfl⟩ := runFor_ends (fun limit hmax => by
        rw [hsteps, Nat.zero_add]
        exact hn limit hmax) hends
      exact ⟨fuel, ⟨fault?, u.machine, u.console⟩, by rw [hrun, hu]; rfl, rfl⟩
    · rw [← state_start] at hafter
      obtain ⟨fuel, u, hu, rfl⟩ := runFor_limit (by rw [hsteps, Nat.zero_add]; exact hmax)
        hafter hip
      rw [hsteps, Nat.zero_add] at hu
      exact ⟨fuel, ⟨some (.stepLimit limit), u.machine, u.console⟩, by rw [hrun, hu]; rfl, rfl⟩

/-- Without a limit a run is seen exactly as it ends. -/
theorem observed_unlimited_iff {ops : List Op} {jumps : Jumps}
    (hjumps : Jumps.ofProgram ops = .ok jumps) {size : Nat} {around : Surroundings}
    {o : Observation} :
    Observed ⟨size, none⟩ ops around o ↔
      ∃ n fault? u, Ends ops.toArray jumps around n (.initial size) fault? u ∧
        o = u.observe fault? := by
  rw [observed_iff hjumps]
  constructor
  · rintro (⟨n, fault?, u, hends, -, ho⟩ | ⟨limit, u, hmax, -⟩)
    · exact ⟨n, fault?, u, hends, ho⟩
    · cases hmax
  · rintro ⟨n, fault?, u, hends, ho⟩
    exact .inl ⟨n, fault?, u, hends, nofun, ho⟩

/-- A run with a limit is over some time. -/
theorem exists_observed_of_limit (size limit : Nat) (ops : List Op) (around : Surroundings) :
    ∃ o, Observed ⟨size, some limit⟩ ops around o := by
  cases hjumps : Jumps.ofProgram ops with
  | error i => exact ⟨_, (observed_of_error hjumps).2 rfl⟩
  | ok jumps =>
      cases hafter : after ops.toArray jumps around limit (.initial size) with
      | some u =>
          by_cases hip : u.ip < ops.toArray.size
          · exact ⟨_, (observed_iff hjumps).2 (.inr ⟨limit, u, rfl, hafter, hip, rfl⟩)⟩
          · have hend := @advance_end ops.toArray jumps around u
              (Array.getElem?_eq_none_iff.2 (Nat.not_lt.1 hip))
            refine ⟨_, (observed_iff hjumps).2 (.inl ⟨limit, _, _, ⟨u, hafter, hend⟩, ?_, rfl⟩)⟩
            intro limit' hmax
            cases hmax
            rw [charge, if_neg hip]
            exact Nat.le_refl _
      | none =>
          obtain ⟨n, f, u, hn, hends⟩ := exists_ends_of_after_eq_none hafter
          refine ⟨_, (observed_iff hjumps).2 (.inl ⟨n, f, u, hends, ?_, rfl⟩)⟩
          intro limit' hmax
          cases hmax
          have := charge_le_one ops.toArray u
          omega

/-! ## What a run has done stays done -/

/-- The console that an operation leaves behind, in trouble or not. -/
def effectConsole (r : Except (Trouble × Console) (Array UInt8 × Nat × Console)) : Console :=
  match r with
  | .ok (_, _, c) => c
  | .error (_, c) => c

theorem effect_extends (around : Surroundings) (tape : Array UInt8) (ptr : Nat) (c : Console)
    (op : Op) : c.Extends (effectConsole (effect around tape ptr c op)) := by
  cases op with
  | run kind n =>
      cases kind with
      | right => simp only [effect]; split <;> exact .refl c
      | left => simp only [effect]; split <;> exact .refl c
      | inc => simp only [effect]; split <;> exact .refl c
      | dec => simp only [effect]; split <;> exact .refl c
  | clear => simp only [effect]; split <;> exact .refl c
  | openLoop => simp only [effect]; split <;> exact .refl c
  | closeLoop => simp only [effect]; split <;> exact .refl c
  | output =>
      simp only [effect]
      cases tape[ptr]? with
      | none => exact .refl c
      | some v =>
          have hwrite := c.extends_write around v
          revert hwrite
          simp only
          rcases c.write around v with ⟨_ | _, c'⟩ <;> exact id
  | input =>
      have hflush := c.extends_flush around
      revert hflush
      simp only [effect]
      rcases c.flush around with ⟨_ | _, c'⟩
      · exact id
      · intro hflush
        have hread := c'.extends_read around
        revert hread
        simp only
        rcases c'.read around with ⟨b | _ | _, c''⟩
        · cases tape[ptr]? <;> exact hflush.trans
        · exact hflush.trans
        · exact hflush.trans

theorem advance_extends {s t : State} (h : advance code jumps around s = .next t) :
    s.console.Extends t.console := by
  cases hop : code[s.ip]? with
  | none =>
      cases (advance_end hop).symm.trans h
  | some op =>
      have heff := effect_extends around s.tape s.ptr s.console op
      cases he : effect around s.tape s.ptr s.console op with
      | ok r =>
          rw [he] at heff
          cases (advance_ok hop he).symm.trans h
          exact heff
      | error r => cases (advance_error hop he).symm.trans h

theorem advance_stop_extends {s u : State} {fault? : Option Fault}
    (h : advance code jumps around s = .stop fault? u) : s.console.Extends u.console := by
  cases hop : code[s.ip]? with
  | none =>
      cases (advance_end hop).symm.trans h
      exact s.console.extends_flush around
  | some op =>
      have heff := effect_extends around s.tape s.ptr s.console op
      cases he : effect around s.tape s.ptr s.console op with
      | ok r => cases (advance_ok hop he).symm.trans h
      | error r =>
          rw [he] at heff
          cases (advance_error hop he).symm.trans h
          exact heff

/-- What a run has read, written and flushed is a prefix of what it does later. -/
theorem after_extends {n : Nat} {s t : State} (h : after code jumps around n s = some t) :
    s.console.Extends t.console := by
  induction n generalizing s with
  | zero => cases h; exact .refl _
  | succ n ih =>
      cases ha : advance code jumps around s with
      | stop f u => rw [after_succ_of_stop ha] at h; cases h
      | next r =>
          rw [after_succ ha] at h
          exact (advance_extends ha).trans (ih h)

theorem Ends.extends {n : Nat} {s u : State} {fault? : Option Fault}
    (h : Ends code jumps around n s fault? u) : s.console.Extends u.console := by
  obtain ⟨t, ht, hstop⟩ := h
  exact (after_extends ht).trans (advance_stop_extends hstop)

end Machine

end Brainfuck
