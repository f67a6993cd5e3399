import Brainfuck.Proofs.Machine.Disturbed
import Brainfuck.Proofs.Machine.Reuse

/-!
# Output is flushed before input is awaited

A run that waits for input has nothing pending: what it has written has been flushed right before
the read call.  This is told from the log of calls, of every run and at every moment of it.

* `ReadAt`, `exists_readAt` — every read call of a log is made right behind a flush that was not
  refused, at a console whose last flush is at the full length of its output.
* `flushed_of_ended` — a run comes to its end with such a flush.
* `count_flush_of_next`, `count_flush_of_stop` — how many flush calls a run makes.
-/

namespace Brainfuck.Machine

variable {code : Array Op} {jumps : Jumps} {around plan : Surroundings} {m : Machine}
  {ops : List Op} {s t : Snapshot} {fault? : Option Fault} {n : Nat} {report : Report}
  {before after bs : List Call}

/-! ## Every read -/

/-- The read call behind the calls `before` is made at the console `c` by the step that follows
the first `k`, right behind a flush that was not refused. -/
structure ReadAt (m : Machine) (ops : List Op) (around : Surroundings) (k : Nat) (c : Console)
    (before : List Call) : Prop where
  /-- The step flushes, -/
  flushed : ∃ s, standing m ops around k = .next s ∧ s.console.flush around = (true, c)
  /-- and reads then. -/
  read : (standing m ops around (k + 1)).snapshot.console = (c.read around).2
  calls : c.calls.toList = before
  /-- All that has been written is flushed. -/
  pending : c.flushes.back? = some c.output.size

/-- The calls that a step adds to the log are some of those it wants to make, in their order, and
all of them but the last have been accepted. -/
theorem exists_calls_step (h : s.console.Tallied) (hspared : plan.Spares s.console.calls.toList)
    (code : Array Op) (jumps : Jumps) :
    ∃ made, (step code jumps plan s).snapshot.console.calls.toList =
        s.console.calls.toList ++ made ∧ made <+: s.wants code ∧
      plan.Spares (s.console.calls.toList ++ made.dropLast) := by
  rcases step_spared_or_cut h hspared code jumps with
    ⟨hspares, heq⟩ | ⟨earlier, call, later, t, hwants, hbefore, -, hstop, hcut⟩
  · refine ⟨s.wants code, ?_, List.prefix_rfl, hspares.of_prefix ?_⟩
    · rw [heq]
      exact (console_step_quiet h code jumps plan).1
    · exact (List.prefix_append_right_inj _).2 (List.dropLast_prefix _)
  · refine ⟨earlier ++ [call], ?_, ?_, by rwa [List.dropLast_concat]⟩
    · rw [hstop]
      exact hcut.calls
    · rw [hwants]
      simp

/-- A step that reads calls for a byte, and flushes before. -/
theorem asks_of_read (h : s.console.Tallied) {made rest : List Call}
    (hmade : made <+: s.wants code)
    (hspares : plan.Spares (s.console.calls.toList ++ made.dropLast))
    (hread : made = bs ++ .read :: rest) : bs = [.flush] ∧ s.Asks code plan := by
  obtain ⟨tail, htail⟩ := hmade
  have htail : s.wants code = bs ++ .read :: (rest ++ tail) := by simpa [hread] using htail.symm
  rcases wants_cases code s with ⟨op, hop, hwants | hwants | ⟨hwants, rfl, hlimit⟩⟩ | ⟨-, hwants⟩
  · simp [hwants] at htail
  · simp [hwants, List.singleton_eq_append_iff] at htail
  · rcases List.cons_eq_append_iff.1 (hwants.symm.trans htail) with
      ⟨-, hfirst⟩ | ⟨bs', rfl, hsecond⟩
    · cases hfirst
    · obtain ⟨rfl, rfl, -⟩ : bs' = [] ∧ rest = [] ∧ tail = [] := by
        simpa [List.singleton_eq_append_iff] using hsecond
      rw [hread] at hspares
      obtain ⟨-, hflush⟩ := Surroundings.spares_concat.1 hspares
      exact ⟨rfl, hop, hlimit, by rw [Console.flush_of_spared h hflush]; rfl⟩
  · simp [hwants, List.singleton_eq_append_iff] at htail

theorem readAt_of_asks (hjumps : Jumps.ofProgram ops = .ok jumps)
    (hs : standing m ops around n = .next s) (hasks : s.Asks ops.toArray around) :
    ReadAt m ops around n (s.console.flush around).2 (s.console.calls.toList ++ [.flush]) := by
  constructor
  case flushed => exact ⟨s, hs, Prod.ext hasks.flushed rfl⟩
  case read =>
    rw [standing_succ hjumps, hs]
    change (step ops.toArray jumps around s).snapshot.console = _
    rw [console_step hasks.op hasks.below, effectConsole_input, if_pos hasks.flushed]
  case calls => simp [Console.flush]
  case pending => simp [Console.flush]

/-- The call before a read is a flush, and it was not refused. -/
theorem ReadAt.exists_flush {k : Nat} {c : Console} (h : ReadAt m ops around k c before) :
    ∃ earlier, before = earlier ++ [.flush] ∧ ¬ around.Refuses earlier .flush := by
  obtain ⟨s, hs, hflush⟩ := h.flushed
  refine ⟨s.console.calls.toList, ?_, ?_⟩
  · rw [← h.calls, show c = (s.console.flush around).2 by rw [hflush]]
    simp [Console.flush]
  · intro hrefused
    rw [Console.flush_of_refused (tallied_of_next hs).1 hrefused] at hflush
    cases hflush

/-- Every read call of a log is made right behind a flush that was not refused. -/
theorem exists_readAt (h : (standing m ops around n).snapshot.console.calls.toList =
    before ++ .read :: after) : ∃ k < n, ∃ c, ReadAt m ops around k c before := by
  cases hjumps : Jumps.ofProgram ops with
  | error i =>
      rw [standing_of_error hjumps] at h
      simp [Outcome.snapshot] at h
  | ok jumps =>
      induction n generalizing after with
      | zero =>
          rw [standing_zero hjumps] at h
          simp [Outcome.snapshot] at h
      | succ n ih =>
          have hearlier {rest : List Call} (hrest :
              (standing m ops around n).snapshot.console.calls.toList = before ++ .read :: rest) :
              ∃ k < n + 1, ∃ c, ReadAt m ops around k c before := by
            obtain ⟨k, hk, hread⟩ := ih hrest
            exact ⟨k, Nat.lt_succ_of_lt hk, hread⟩
          rw [standing_succ hjumps] at h
          cases hs : standing m ops around n with
          | stop fault? s =>
              rw [hs] at h hearlier
              exact hearlier h
          | next s =>
              rw [hs] at h hearlier
              obtain ⟨htallied, hspared⟩ := tallied_of_next hs
              obtain ⟨made, hcalls, hmade, hspares⟩ :=
                exists_calls_step htallied hspared ops.toArray jumps
              -- the call stands in the log already, or the step makes it
              rcases List.append_eq_append_iff.1 (hcalls.symm.trans h) with
                ⟨bs, rfl, hread⟩ | ⟨rest, hrest, hread⟩
              · obtain ⟨rfl, hasks⟩ := asks_of_read htallied hmade hspares hread
                exact ⟨n, Nat.lt_succ_self n, _, readAt_of_asks hjumps hs hasks⟩
              · cases rest with
                | cons call rest =>
                    obtain ⟨rfl, -⟩ := List.cons.inj hread
                    exact hearlier hrest
                | nil =>
                    have hread : made = [] ++ .read :: after := hread.symm
                    cases (asks_of_read htallied hmade hspares hread).1

/-! ## The end of a run -/

/-- A run comes to its end with a flush of all that has been written. -/
theorem flushed_of_ended {fuel : Nat} (h : run fuel m ops around = some report)
    (hended : report.fault? = none) :
    ∃ earlier, report.console.calls.toList = earlier ++ [.flush] ∧
      ¬ around.Refuses earlier .flush ∧
      report.console.flushes.back? = some report.console.output.size := by
  obtain ⟨ip, hstop⟩ := standing_of_run h
  rw [hended] at hstop
  cases hjumps : Jumps.ofProgram ops with
  | error i =>
      rw [standing_of_error hjumps, Outcome.stop.injEq] at hstop
      cases hstop.1
  | ok jumps =>
      obtain ⟨k, s, hs, hstep, -⟩ := exists_last_step hjumps hstop
      obtain ⟨htallied, hspared⟩ := tallied_of_next hs
      have hop := ip_of_step_stop_none hstep
      rcases step_spared_or_cut htallied hspared ops.toArray jumps with
        ⟨hspares, -⟩ | ⟨_, _, _, t, _, _, _, hcut, _⟩
      · rw [wants_of_end hop, Surroundings.spares_concat] at hspares
        rw [step_of_end hop, Outcome.stop.injEq, Snapshot.mk.injEq] at hstep
        obtain ⟨-, -, -, hconsole⟩ := hstep
        rw [← hconsole]
        exact ⟨s.console.calls.toList, by simp [Console.flush], hspares.2, by simp [Console.flush]⟩
      · cases hcut.symm.trans hstep

/-! ## Counting flushes -/

/-- A step from which the run goes on flushes as often as it reads. -/
theorem count_flush_step_next (h : s.console.Tallied)
    (hspared : plan.Spares s.console.calls.toList)
    (hcount : s.console.calls.toList.count .flush = s.console.calls.toList.count .read)
    (hstep : step code jumps plan s = .next t) :
    t.console.calls.toList.count .flush = t.console.calls.toList.count .read := by
  rcases step_spared_or_cut h hspared code jumps with
    ⟨-, heq⟩ | ⟨_, _, _, _, _, _, _, hcut, _⟩
  · have hcalls := (console_step_quiet h code jumps plan).1
    rw [← heq, hstep] at hcalls
    have hcalls : t.console.calls.toList = s.console.calls.toList ++ s.wants code := hcalls
    rcases wants_cases code s with ⟨_, -, hwants | hwants | ⟨hwants, -⟩⟩ | ⟨hop, -⟩
    · simpa [hcalls, hwants] using hcount
    · simpa [hcalls, hwants] using hcount
    · simpa [hcalls, hwants] using hcount
    · rw [step_of_end hop] at hstep
      cases hstep
  · cases hcut.symm.trans hstep

/-- A step that ends the run flushes as often as it reads, once more at the end of the program,
and once more where the flush before a read is refused. -/
theorem count_flush_step_stop (h : s.console.Tallied)
    (hspared : plan.Spares s.console.calls.toList)
    (hcount : s.console.calls.toList.count .flush = s.console.calls.toList.count .read)
    (hstep : step code jumps plan s = .stop fault? t) :
    t.console.calls.toList.count .flush = t.console.calls.toList.count .read +
      (if code.size ≤ t.ip then 1 else 0) +
      if fault? = some (.refused (plan.refusal .flush)) ∧ t.ip < code.size then 1 else 0 := by
  rw [(kept_of_step_stop hstep).1]
  rcases step_spared_or_cut h hspared code jumps with
    ⟨-, heq⟩ | ⟨earlier, call, later, u, hwants, -, -, hcut, hafter⟩
  · have hcalls := (console_step_quiet h code jumps plan).1
    rw [← heq, hstep] at hcalls
    have hcalls : t.console.calls.toList = s.console.calls.toList ++ s.wants code := hcalls
    have hnot : fault? ≠ some (.refused (plan.refusal .flush)) := by
      rintro rfl
      exact step_quiet_ne_refused _ _ _ _ _ _ (heq.symm.trans hstep)
    rcases wants_cases code s with ⟨_, hop, hwants⟩ | ⟨hop, hwants⟩
    · have hlt : s.ip < code.size := (Array.getElem?_eq_some_iff.1 hop).1
      rcases hwants with hwants | hwants | ⟨hwants, -⟩
      · simpa [hcalls, hwants, Nat.not_le.2 hlt, hnot] using hcount
      · simpa [hcalls, hwants, Nat.not_le.2 hlt, hnot] using hcount
      · simpa [hcalls, hwants, Nat.not_le.2 hlt, hnot] using hcount
    · have hle : code.size ≤ s.ip := Array.getElem?_eq_none_iff.1 hop
      simpa [hcalls, hwants, hle, hnot] using hcount
  · cases hcut.symm.trans hstep
    have hcalls := hafter.calls
    rcases wants_cases code s with ⟨_, hop, hmay⟩ | ⟨hop, hend⟩
    · have hlt : s.ip < code.size := (Array.getElem?_eq_some_iff.1 hop).1
      rcases hmay with hnone | hwrite | ⟨hread, -⟩
      · simp [hnone] at hwants
      · obtain ⟨rfl, rfl, -⟩ : earlier = [] ∧ call = .write ∧ later = [] := by
          simpa [hwrite, List.singleton_eq_append_iff] using hwants
        simpa [hcalls, hlt, Nat.not_le.2 hlt] using hcount
      · rcases List.cons_eq_append_iff.1 (hread.symm.trans hwants) with
          ⟨rfl, hfirst⟩ | ⟨rest, rfl, hrest⟩
        · cases hfirst
          simpa [hcalls, hlt, Nat.not_le.2 hlt] using hcount
        · obtain ⟨rfl, rfl, -⟩ : rest = [] ∧ call = .read ∧ later = [] := by
            simpa [List.singleton_eq_append_iff] using hrest
          simpa [hcalls, hlt, Nat.not_le.2 hlt] using hcount
    · obtain ⟨rfl, rfl, -⟩ : earlier = [] ∧ call = .flush ∧ later = [] := by
        simpa [hend, List.singleton_eq_append_iff] using hwants
      have hle : code.size ≤ s.ip := Array.getElem?_eq_none_iff.1 hop
      simpa [hcalls, hle, Nat.not_lt.2 hle] using hcount

/-- While a run goes on, it has flushed as often as it has read. -/
theorem count_flush_of_next (h : standing m ops around n = .next s) :
    s.console.calls.toList.count .flush = s.console.calls.toList.count .read := by
  obtain ⟨jumps, hjumps⟩ := exists_jumps_of_next h
  induction n generalizing s with
  | zero =>
      rw [standing_zero hjumps] at h
      cases h
      rfl
  | succ n ih =>
      rw [standing_succ hjumps] at h
      cases hr : standing m ops around n with
      | stop fault? r =>
          rw [hr] at h
          cases h
      | next r =>
          rw [hr] at h
          obtain ⟨htallied, hspared⟩ := tallied_of_next hr
          exact count_flush_step_next htallied hspared (ih hr) h

/-- A run that is over has flushed as often as it has read, once more if it came to the end of the
program, and once more if a flush before a read was refused. -/
theorem count_flush_of_stop (h : standing m ops around n = .stop fault? t) :
    t.console.calls.toList.count .flush = t.console.calls.toList.count .read +
      (if ops.length ≤ t.ip then 1 else 0) +
      if fault? = some (.refused (around.refusal .flush)) ∧ t.ip < ops.length then 1 else 0 := by
  cases hjumps : Jumps.ofProgram ops with
  | error i =>
      have hlt := unmatchedLoop_lt hjumps
      rw [standing_of_error hjumps] at h
      cases h
      simp [show ¬ ops.length ≤ 0 by omega]
  | ok jumps =>
      obtain ⟨k, s, hs, hstep, -⟩ := exists_last_step hjumps h
      obtain ⟨htallied, hspared⟩ := tallied_of_next hs
      simpa using count_flush_step_stop htallied hspared (count_flush_of_next hs) hstep

end Brainfuck.Machine
