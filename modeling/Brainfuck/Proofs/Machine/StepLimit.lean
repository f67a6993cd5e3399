import Brainfuck.Proofs.Machine.Course

/-!
# A step limit only cuts a run short

The limit of executed operations is looked at before each operation and nowhere else.  So two
runs that differ only in their limits are the same until one of them is stopped by its own.

* `Outcome.withLimit` — where a run stands, on a machine with another limit.
* `step_withLimit`, `standing_withLimit` — a step, and a whole run, that its limit does not stop
  is the same under a limit that allows more.
* `Executes` — how many operations a run executes.
* `standing_of_stepLimit` — a run that is stopped by its limit has executed as many operations
  as it may, and stands where they have led.
* `observed_under_limit` — runs under two limits compared.
-/

namespace Brainfuck.Machine

/-! ## Other limits -/

/-- The machine with another limit. -/
def withLimit (m : Machine) (max : Option Nat) : Machine :=
  { m with settings := { m.settings with maxSteps := max } }

/-- The snapshot with another limit of the machine. -/
def Snapshot.withLimit (s : Snapshot) (max : Option Nat) : Snapshot :=
  { s with machine := s.machine.withLimit max }

/-- Where a run stands, with another limit of the machine. -/
def Outcome.withLimit (max : Option Nat) : Outcome → Outcome
  | .next s => .next (s.withLimit max)
  | .stop fault? s => .stop fault? (s.withLimit max)

/-- What has stopped a run, if anything has. -/
def Outcome.fault? : Outcome → Option Fault
  | .next _ => none
  | .stop fault? _ => fault?

/-- The run is not stopped by its limit. -/
def Outcome.Uncut (o : Outcome) : Prop := ∀ l, o.fault? ≠ some (.stepLimit l)

variable {code : Array Op} {jumps : Jumps} {around : Surroundings} {m : Machine} {ops : List Op}
  {s t : Snapshot} {fault? : Option Fault} {limit l n k : Nat} {later : Option Nat}

/-- A step that the limit does not stop is the same under a limit that allows more. -/
theorem step_withLimit (hlimit : s.machine.settings.maxSteps = some limit)
    (hlater : ∀ l, later = some l → limit ≤ l) (h : (step code jumps around s).Uncut) :
    step code jumps around (s.withLimit later) = (step code jumps around s).withLimit later := by
  cases hop : code[s.ip]? with
  | none =>
      rw [step_of_end hop, step_of_end (s := s.withLimit later) hop]
      rfl
  | some op =>
      cases hreached : s.machine.limitReached? with
      | some l =>
          rw [step_of_limit hop hreached] at h
          exact absurd rfl (h l)
      | none =>
          have hbelow := limitReached?_eq_none.1 hreached limit hlimit
          have hreached' : (s.withLimit later).machine.limitReached? = none :=
            limitReached?_eq_none.2 fun l hl => Nat.lt_of_lt_of_le hbelow (hlater l hl)
          cases he : effect around s.machine.tape s.machine.ptr s.console op with
          | ok r =>
              rw [step_of_ok hop hreached he,
                step_of_ok (s := s.withLimit later) hop hreached' he]
              rfl
          | error r =>
              rw [step_of_error hop hreached he,
                step_of_error (s := s.withLimit later) hop hreached' he]
              rfl

/-! ## Counting operations -/

/-- The brackets of a program that is run have been matched. -/
theorem exists_jumps_of_next (h : standing m ops around n = .next s) :
    ∃ jumps, Jumps.ofProgram ops = .ok jumps := by
  cases hjumps : Jumps.ofProgram ops with
  | error i =>
      rw [standing_of_error hjumps] at h
      cases h
  | ok jumps => exact ⟨jumps, rfl⟩

/-- A run that goes on after `n` steps has executed `n` operations, and no more than it may. -/
theorem counted_standing (h : standing m ops around n = .next s) :
    s.machine.settings = m.settings ∧ s.machine.steps = n ∧
      ∀ limit, m.settings.maxSteps = some limit → n ≤ limit := by
  obtain ⟨jumps, hjumps⟩ := exists_jumps_of_next h
  induction n generalizing s with
  | zero =>
      rw [standing_zero hjumps] at h
      cases h
      exact ⟨rfl, rfl, fun limit _ => Nat.zero_le limit⟩
  | succ n ih =>
      rw [standing_succ hjumps] at h
      cases hbefore : standing m ops around n with
      | stop fault? t =>
          rw [hbefore] at h
          cases h
      | next t =>
          obtain ⟨hsettings, hsteps, -⟩ := ih hbefore
          have hleads := leads_step ops.toArray jumps around t
          rw [hbefore] at h
          rw [show step ops.toArray jumps around t = .next s from h] at hleads
          cases hleads with
          | executed _ hreached _ =>
              rw [limitReached?_eq_none, hsettings, hsteps] at hreached
              exact ⟨hsettings, congrArg (· + 1) hsteps, hreached⟩

/-- A run that its limit has not stopped stands at the same point under a limit that allows
more. -/
theorem standing_withLimit (hlimit : m.settings.maxSteps = some limit)
    (hlater : ∀ l, later = some l → limit ≤ l) (h : (standing m ops around n).Uncut) :
    standing (m.withLimit later) ops around n = (standing m ops around n).withLimit later := by
  cases hjumps : Jumps.ofProgram ops with
  | error i =>
      rw [standing_of_error hjumps, standing_of_error hjumps]
      rfl
  | ok jumps =>
      induction n with
      | zero =>
          rw [standing_zero hjumps, standing_zero hjumps]
          rfl
      | succ n ih =>
          rw [standing_succ hjumps] at h
          rw [standing_succ hjumps, standing_succ hjumps]
          cases hbefore : standing m ops around n with
          | stop fault? t =>
              rw [hbefore] at h ih
              rw [ih h]
              rfl
          | next t =>
              rw [hbefore] at h ih
              rw [ih fun l hl => by cases hl]
              refine step_withLimit ?_ hlater h
              rw [(counted_standing hbefore).1]
              exact hlimit

/-! ## Runs that are over -/

theorem standing_stop_of_le (h : standing m ops around n = .stop fault? t) (hle : n ≤ k) :
    standing m ops around k = .stop fault? t := by
  cases hjumps : Jumps.ofProgram ops with
  | error i =>
      rw [standing_of_error hjumps] at h ⊢
      exact h
  | ok jumps =>
      induction hle with
      | refl => exact h
      | step _ ih =>
          rw [standing_succ hjumps, ih]
          rfl

/-- A run executes exactly `n` operations: it goes on for `n` steps, each of which executes
one, and the next step ends it. -/
def Executes (m : Machine) (ops : List Op) (around : Surroundings) (n : Nat) : Prop :=
  (∃ s, standing m ops around n = .next s) ∧
    ∃ fault? s, standing m ops around (n + 1) = .stop fault? s

theorem Executes.unique (h : Executes m ops around n) (h' : Executes m ops around k) : n = k := by
  have hle : ∀ {a b : Nat}, Executes m ops around a → Executes m ops around b → b ≤ a := by
    rintro a b ⟨-, fault?, s, hstop⟩ ⟨⟨s', hnext⟩, -⟩
    refine Nat.le_of_not_lt fun hlt => ?_
    cases (standing_stop_of_le hstop hlt).symm.trans hnext
  exact Nat.le_antisymm (hle h' h) (hle h h')

/-- A run that has been started and is over was stopped by its last step. -/
theorem exists_last_step (hjumps : Jumps.ofProgram ops = .ok jumps)
    (h : standing m ops around n = .stop fault? t) :
    ∃ k s, standing m ops around k = .next s ∧ step ops.toArray jumps around s = .stop fault? t ∧
      standing m ops around (k + 1) = .stop fault? t := by
  induction n with
  | zero =>
      rw [standing_zero hjumps] at h
      cases h
  | succ n ih =>
      have hlast := h
      rw [standing_succ hjumps] at h
      cases hbefore : standing m ops around n with
      | stop fault' u =>
          rw [hbefore] at h
          exact ih (hbefore.trans h)
      | next s =>
          rw [hbefore] at h
          exact ⟨n, s, hbefore, h, hlast⟩

/-- A program comes to its end behind its last operation. -/
theorem ip_of_step_stop_none (h : step code jumps around s = .stop none t) :
    code[s.ip]? = none := by
  have hleads := leads_step code jumps around s
  rw [h] at hleads
  generalize hfault : (none : Option Fault) = fault? at hleads
  cases hleads with
  | ended hop => exact hop
  | limited _ _ => cases hfault
  | failed _ _ _ => cases hfault

/-- A run that is stopped by its limit has executed as many operations as it may, is not at the
end of the program, and stands where the operations have led. -/
theorem standing_of_stepLimit (h : standing m ops around n = .stop (some (.stepLimit l)) t) :
    m.settings.maxSteps = some l ∧ standing m ops around l = .next t ∧
      Executes m ops around l ∧ t.ip < ops.length := by
  cases hjumps : Jumps.ofProgram ops with
  | error i =>
      rw [standing_of_error hjumps] at h
      cases h
  | ok jumps =>
      obtain ⟨k, s, hnext, hstop, hlast⟩ := exists_last_step hjumps h
      obtain ⟨hsettings, hsteps, hle⟩ := counted_standing hnext
      have hleads := leads_step ops.toArray jumps around s
      rw [hstop] at hleads
      generalize hfault : some (Fault.stepLimit l) = fault? at hleads
      cases hleads with
      | ended _ => split at hfault <;> cases hfault
      | @failed _ trouble _ _ _ _ => cases trouble <;> cases hfault
      | limited hop hreached =>
          cases hfault
          obtain ⟨hmax, hge⟩ := limitReached?_eq_some.1 hreached
          rw [hsettings] at hmax
          rw [hsteps] at hge
          have hk : l = k := Nat.le_antisymm hge (hle l hmax)
          rw [List.getElem?_toArray] at hop
          rw [hk]
          exact ⟨hk ▸ hmax, hnext, ⟨⟨_, hnext⟩, _, _, hlast⟩, (List.getElem?_eq_some_iff.1 hop).1⟩

/-! ## Two limits -/

section Compared

variable {size : Nat} {settings : Settings} {o o' : Observation}

/-- A run is seen where it stands when it is over. -/
theorem observed_iff_standing :
    Observed settings ops around o ↔
      ∃ n fault? s, standing (ofSettings settings) ops around n = .stop fault? s ∧
        s.state.observe fault? = o := by
  constructor
  · rintro ⟨fuel, report, hrun, rfl⟩
    obtain ⟨ip, hstop⟩ := standing_of_run hrun
    exact ⟨fuel, _, _, hstop, rfl⟩
  · rintro ⟨n, fault?, s, hstop, rfl⟩
    refine ⟨n, ⟨fault?, s.machine, s.console⟩, ?_, rfl⟩
    rw [run_eq, hstop]
    rfl

theorem standing_next_of_limit (hlater : ∀ l, later = some l → limit ≤ l)
    (h : standing (ofSettings ⟨size, some limit⟩) ops around n = .next s) :
    standing (ofSettings ⟨size, later⟩) ops around n = .next (s.withLimit later) := by
  have heq := standing_withLimit (m := ofSettings ⟨size, some limit⟩) rfl hlater
    (by rw [h]; exact fun _ hfault => by cases hfault)
  rwa [h] at heq

theorem standing_stop_of_limit (hlater : ∀ l, later = some l → limit ≤ l)
    (h : standing (ofSettings ⟨size, some limit⟩) ops around n = .stop fault? s)
    (huncut : ∀ l, fault? ≠ some (.stepLimit l)) :
    standing (ofSettings ⟨size, later⟩) ops around n = .stop fault? (s.withLimit later) := by
  have heq := standing_withLimit (m := ofSettings ⟨size, some limit⟩) rfl hlater
    (by rw [h]; exact huncut)
  rwa [h] at heq

/-- A run that its limit does not stop is seen alike under a limit that allows more. -/
theorem observed_of_uncut (hlater : ∀ l, later = some l → limit ≤ l)
    (h : Observed ⟨size, some limit⟩ ops around o)
    (huncut : ∀ l, o.fault? ≠ some (.stepLimit l)) : Observed ⟨size, later⟩ ops around o := by
  obtain ⟨n, fault?, s, hstop, rfl⟩ := observed_iff_standing.1 h
  have hsame := standing_stop_of_limit hlater hstop huncut
  exact observed_iff_standing.2 ⟨n, fault?, s.withLimit later, hsame, rfl⟩

/-- A run that is stopped by its limit is seen where the run under a limit that allows more
stands after as many operations. -/
theorem standing_of_cut (hlater : ∀ l, later = some l → limit ≤ l)
    (h : Observed ⟨size, some limit⟩ ops around o) (hcut : o.fault? = some (.stepLimit l)) :
    l = limit ∧ Executes (ofSettings ⟨size, some limit⟩) ops around limit ∧
      ∃ s, standing (ofSettings ⟨size, later⟩) ops around limit = .next s ∧
        s.ip < ops.length ∧ o = s.state.observe (some (.stepLimit limit)) := by
  obtain ⟨n, fault?, s, hstop, rfl⟩ := observed_iff_standing.1 h
  cases show fault? = some (.stepLimit l) from hcut
  obtain ⟨hmax, hnext, hexecutes, hip⟩ := standing_of_stepLimit hstop
  cases show some limit = some l from hmax
  exact ⟨rfl, hexecutes, s.withLimit later, standing_next_of_limit hlater hnext, hip, rfl⟩

/-- What a run stands at is a beginning of what is seen of it when it is over. -/
theorem extends_of_observed (hnext : standing (ofSettings settings) ops around n = .next s)
    (h : Observed settings ops around o) : s.console.Extends o.console := by
  obtain ⟨k, fault?, t, hstop, rfl⟩ := observed_iff_standing.1 h
  have hextends := standing_extends (ofSettings settings) ops around (Nat.le_add_right n k)
  rw [hnext, standing_stop_of_le hstop (Nat.le_add_left k n)] at hextends
  exact hextends

/-- A run that executes more operations than its limit allows is stopped by the limit. -/
theorem cut_of_executes (hlater : ∀ l, later = some l → limit ≤ l)
    (hexecutes : Executes (ofSettings ⟨size, later⟩) ops around n) (hlt : limit < n)
    (h : Observed ⟨size, some limit⟩ ops around o) : ∃ l, o.fault? = some (.stepLimit l) := by
  obtain ⟨s, hgoes⟩ := hexecutes.1
  obtain ⟨jumps, hjumps⟩ := exists_jumps_of_next hgoes
  obtain ⟨a, fault?, t, hstop, rfl⟩ := observed_iff_standing.1 h
  obtain ⟨k, u, hnext, -, hlast⟩ := exists_last_step hjumps hstop
  have hle : k ≤ limit := (counted_standing hnext).2.2 limit rfl
  by_cases hcut : ∃ l, fault? = some (.stepLimit l)
  · exact hcut
  · -- otherwise both runs end after `k` operations
    have huncut : ∀ l, fault? ≠ some (.stepLimit l) := fun l hl => hcut ⟨l, hl⟩
    have hk : n = k := hexecutes.unique
      ⟨⟨_, standing_next_of_limit hlater hnext⟩, _, _, standing_stop_of_limit hlater hlast huncut⟩
    omega

/-- A run that comes to its end after `n` operations is not stopped by a limit of `n`. -/
theorem observed_of_executes (h : Observed ⟨size, none⟩ ops around o) (hend : o.fault? = none)
    (hexecutes : Executes (ofSettings ⟨size, none⟩) ops around n) :
    Observed ⟨size, some n⟩ ops around o := by
  obtain ⟨o', ho'⟩ := exists_observed_of_limit size n ops around
  have hlater : ∀ l, (none : Option Nat) = some l → n ≤ l := by simp
  by_cases hcut : ∃ l, o'.fault? = some (.stepLimit l)
  · -- then an operation would be left to execute, where the program has come to its end
    obtain ⟨l, hl⟩ := hcut
    obtain ⟨-, -, s, hnext, hip, -⟩ := standing_of_cut hlater ho' hl
    obtain ⟨k, fault?, t, hstop, rfl⟩ := observed_iff_standing.1 h
    cases show fault? = none from hend
    obtain ⟨jumps, hjumps⟩ := exists_jumps_of_next hnext
    obtain ⟨k, u, hnext', hstep, hlast⟩ := exists_last_step hjumps hstop
    obtain rfl := hexecutes.unique ⟨⟨u, hnext'⟩, _, _, hlast⟩
    cases hnext.symm.trans hnext'
    have hend := ip_of_step_stop_none hstep
    rw [List.getElem?_toArray, List.getElem?_eq_none_iff] at hend
    omega
  · have huncut := observed_of_uncut hlater ho' fun l hl => hcut ⟨l, hl⟩
    rwa [h.unique huncut]

/-- **A step limit only cuts a run short.**  A run with a limit is over some time.  If the limit
does not stop it, it is seen alike under every limit that allows more, and without one.  If the
limit stops it, it has executed exactly as many operations as it may; it is seen where the run
under the other limit stands after as many, and what it has written, flushed and read is a
beginning of what that run does later, whether that is ever over or not.  A program that comes
to its end after `n` operations does so under a limit of `n`, and is stopped by every smaller
one. -/
theorem observed_under_limit (size limit : Nat) (later : Option Nat)
    (hlater : ∀ l, later = some l → limit ≤ l) (ops : List Op) (around : Surroundings) :
    (∃ o, Observed ⟨size, some limit⟩ ops around o) ∧
    (∀ o, Observed ⟨size, some limit⟩ ops around o →
      ((∀ l, o.fault? ≠ some (.stepLimit l)) → Observed ⟨size, later⟩ ops around o) ∧
      ∀ l, o.fault? = some (.stepLimit l) →
        l = limit ∧ Executes (ofSettings ⟨size, some limit⟩) ops around limit ∧
        (∃ s, standing (ofSettings ⟨size, later⟩) ops around limit = .next s ∧
          o = s.state.observe (some (.stepLimit limit))) ∧
        (∀ n, limit ≤ n → o.console.Extends
          (standing (ofSettings ⟨size, later⟩) ops around n).snapshot.console) ∧
        ∀ o', Observed ⟨size, later⟩ ops around o' → o.console.Extends o'.console) ∧
    ∀ n o, Observed ⟨size, none⟩ ops around o → o.fault? = none →
      Executes (ofSettings ⟨size, none⟩) ops around n →
      Observed ⟨size, some n⟩ ops around o ∧
        ∀ less < n, ∃ o', Observed ⟨size, some less⟩ ops around o' ∧
          o'.fault? = some (.stepLimit less) := by
  refine ⟨exists_observed_of_limit size limit ops around, ?_, ?_⟩
  · intro o ho
    refine ⟨observed_of_uncut hlater ho, ?_⟩
    intro l hcut
    obtain ⟨hl, hexecutes, s, hnext, -, rfl⟩ := standing_of_cut hlater ho hcut
    refine ⟨hl, hexecutes, ⟨s, hnext, rfl⟩, ?_, fun o' => extends_of_observed hnext⟩
    intro n hn
    have hextends := standing_extends (ofSettings ⟨size, later⟩) ops around hn
    rw [hnext] at hextends
    exact hextends
  · intro n o ho hend hexecutes
    refine ⟨observed_of_executes ho hend hexecutes, ?_⟩
    intro less hless
    obtain ⟨o', ho'⟩ := exists_observed_of_limit size less ops around
    have hnone : ∀ l, (none : Option Nat) = some l → less ≤ l := by simp
    obtain ⟨l, hl⟩ := cut_of_executes hnone hexecutes hless ho'
    obtain ⟨rfl, -⟩ := standing_of_cut hnone ho' hl
    exact ⟨o', ho', hl⟩

/-- A program that copies its input up to a zero byte executes five operations on this input.
A limit of three cuts it between the write and the next read, and a limit of four before it
sees that the loop is over. -/
theorem observed_under_limit_copying :
    ∃ o o',
      Observed ⟨1, some 3⟩ [.input, .openLoop, .output, .input, .closeLoop]
          { input := #[65, 0] } o ∧
        o.fault? = some (.stepLimit 3) ∧ o.console.Extends o'.console ∧
        Observed ⟨1, some 5⟩ [.input, .openLoop, .output, .input, .closeLoop]
          { input := #[65, 0] } o' ∧
        o'.fault? = none ∧ o'.console.output = #[65] ∧
        ∃ o'', Observed ⟨1, some 4⟩ [.input, .openLoop, .output, .input, .closeLoop]
            { input := #[65, 0] } o'' ∧
          o''.fault? = some (.stepLimit 4) := by
  have hcut : run 4 (ofSettings ⟨1, some 3⟩) [.input, .openLoop, .output, .input, .closeLoop]
      { input := #[65, 0] } =
        some ⟨some (.stepLimit 3), ⟨⟨1, some 3⟩, #[65], 0, 3⟩,
          { consumed := 1, reads := 1, output := #[65], flushes := #[0],
            calls := #[.flush, .read, .write] }⟩ := by cbv
  have hrun : run 6 (ofSettings ⟨1, none⟩) [.input, .openLoop, .output, .input, .closeLoop]
      { input := #[65, 0] } =
        some ⟨none, ⟨⟨1, none⟩, #[0], 0, 5⟩,
          { consumed := 2, reads := 2, output := #[65], flushes := #[0, 1, 1],
            calls := #[.flush, .read, .write, .flush, .read, .flush] }⟩ := by cbv
  have hexecutes : Executes (ofSettings ⟨1, none⟩)
      [.input, .openLoop, .output, .input, .closeLoop] { input := #[65, 0] } 5 :=
    ⟨⟨_, by cbv⟩, _, _, by cbv⟩
  have hlater : ∀ l, some 5 = some l → 3 ≤ l := by
    rintro _ ⟨⟩
    decide
  obtain ⟨-, hunder, hends⟩ := observed_under_limit 1 3 (some 5) hlater
    [.input, .openLoop, .output, .input, .closeLoop] { input := #[65, 0] }
  obtain ⟨-, -, -, -, hextends⟩ := (hunder _ ⟨4, _, hcut, rfl⟩).2 3 rfl
  obtain ⟨hfive, hless⟩ := hends 5 _ ⟨6, _, hrun, rfl⟩ rfl hexecutes
  exact ⟨_, _, ⟨4, _, hcut, rfl⟩, rfl, hextends _ hfive, hfive, rfl, rfl, hless 4 (by decide)⟩

end Compared

end Brainfuck.Machine
