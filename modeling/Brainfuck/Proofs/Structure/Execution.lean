import Brainfuck.Proofs.Structure.Evaluation

/-!
# The machine carries out blocks

The machine has no blocks.  It tests the cell at both brackets of a loop and jumps by a
table.  Still it does with the operations of a block what the block means.

* `Machine.Proceeds` — a machine that already has something in memory executes a program.
* `Block.Placed` — the operations of a block stand in the code, and the table joins the
  brackets of its loops.
* `Block.advance_guard` — both brackets of a loop test the cell in the same way.
* `Block.Evaluates.arrives`, `Block.exists_evaluates` — the machine gets through a block
  that evaluates, and a block evaluates that the machine gets through.
* `Block.observed_iff_evaluates` — the machine and the tree come to the same results, and
  a program that consists of two is executed one after the other.
-/

namespace Brainfuck

open Loops Machine

/-! ## A machine that goes on -/

namespace Machine

/-- How a run is over of which `o` is seen. -/
def Observation.result (o : Observation) : Result := ⟨o.fault?, o.memory⟩

/-- A machine without a limit in front of a program, with `m` in its memory. -/
def Memory.snapshot (m : Memory) : Snapshot where
  ip := 0
  machine := { settings := ⟨m.tape.size, none⟩, tape := m.tape, ptr := m.ptr, steps := 0 }
  console := { consumed := m.consumed, output := m.output }

/-- With `m` in its memory, a machine without a limit executes `ops` and ends with `r`. -/
def Proceeds (ops : List Op) (input : Array UInt8) (m : Memory) (r : Result) : Prop :=
  ∃ jumps fuel fault? s, Jumps.ofProgram ops = .ok jumps ∧
    runFor ops.toArray jumps { input } fuel m.snapshot = some (fault?, s) ∧
    r = ⟨fault?, s.state.memory⟩

variable {ops : List Op} {jumps : Jumps} {input : Array UInt8} {m : Memory} {r : Result}

theorem proceeds_iff_ends (hjumps : Jumps.ofProgram ops = .ok jumps) :
    Proceeds ops input m r ↔ ∃ n fault? u,
      Ends ops.toArray jumps { input } n m.snapshot.state fault? u ∧ r = ⟨fault?, u.memory⟩ := by
  constructor
  · rintro ⟨jumps', fuel, fault?, s, hjumps', hrun, rfl⟩
    cases hjumps.symm.trans hjumps'
    rcases runFor_sound (fun _ hmax => by cases hmax) hrun with ⟨n, hends, -⟩ | ⟨n, -, -, hmax, -⟩
    · exact ⟨n, fault?, s.state, hends, rfl⟩
    · cases hmax
  · rintro ⟨n, fault?, u, hends, rfl⟩
    obtain ⟨fuel, s, hrun, rfl⟩ := runFor_ends (fun _ hmax => by cases hmax) hends
    exact ⟨jumps, fuel, fault?, s, hjumps, hrun, rfl⟩

/-- A run from a zeroed tape proceeds from blank memory. -/
theorem observed_iff_proceeds (hjumps : Jumps.ofProgram ops = .ok jumps) {size : Nat} :
    (∃ o, Observed ⟨size, none⟩ ops { input } o ∧ o.result = r) ↔
      Proceeds ops input (.blank size) r := by
  rw [proceeds_iff_ends hjumps]
  constructor
  · rintro ⟨o, ho, rfl⟩
    obtain ⟨n, fault?, u, hends, rfl⟩ := (observed_unlimited_iff hjumps).1 ho
    exact ⟨n, fault?, u, hends, rfl⟩
  · rintro ⟨n, fault?, u, hends, rfl⟩
    exact ⟨_, (observed_unlimited_iff hjumps).2 ⟨n, fault?, u, hends, rfl⟩, rfl⟩

end Machine

namespace Block

/-! ## Where a block stands -/

/-- The operations stand in the code from `start` on. -/
def StandsAt (code : Array Op) (start : Nat) (ops : List Op) : Prop :=
  ∀ i, i < ops.length → code[start + i]? = ops[i]?

/-- The brackets of a loop, which the table joins. -/
structure LoopAt (code : Array Op) (jumps : Jumps) (start stop : Nat) : Prop where
  opens : code[start]? = some .openLoop
  closes : code[stop]? = some .closeLoop
  forth : jumps.getD start 0 = stop
  back : jumps.getD stop 0 = start

/-- The operations of the block stand in the code from `start` on, and the table joins the
brackets of its loops. -/
def Placed (code : Array Op) (jumps : Jumps) : Nat → Block → Prop
  | _, .done => True
  | start, .plain op _ rest => code[start]? = some op ∧ Placed code jumps (start + 1) rest
  | start, .loop body rest =>
      LoopAt code jumps start (start + body.program.length + 1) ∧
        Placed code jumps (start + 1) body ∧
        Placed code jumps (start + body.program.length + 2) rest

variable {code : Array Op} {jumps : Jumps} {input : Array UInt8} {around : Surroundings}
  {start stop n : Nat} {b body rest : Block} {m m' : Memory} {r : Result} {s t u : State}
  {fault? : Option Fault}

theorem StandsAt.head {op : Op} {ops : List Op} (h : StandsAt code start (op :: ops)) :
    code[start]? = some op :=
  h 0 (Nat.succ_pos _)

theorem StandsAt.tail {op : Op} {ops : List Op} (h : StandsAt code start (op :: ops)) :
    StandsAt code (start + 1) ops := by
  intro i hi
  have hnext := h (i + 1) (Nat.succ_lt_succ hi)
  rwa [show start + (i + 1) = start + 1 + i by omega, List.getElem?_cons_succ] at hnext

theorem StandsAt.append_left {ops ops' : List Op} (h : StandsAt code start (ops ++ ops')) :
    StandsAt code start ops := by
  intro i hi
  rw [h i (by rw [List.length_append]; omega), List.getElem?_append_left hi]

theorem StandsAt.append_right {ops ops' : List Op} (h : StandsAt code start (ops ++ ops')) :
    StandsAt code (start + ops.length) ops' := by
  intro i hi
  rw [Nat.add_assoc, h _ (by rw [List.length_append]; omega),
    List.getElem?_append_right (Nat.le_add_right _ _), Nat.add_sub_cancel_left]

/-- The brackets of a block are matched within the block. -/
theorem placed_of_pairs (hcode : StandsAt code start b.program)
    (hpairs : ∀ p ∈ pairsFrom start [] b.program,
      jumps.getD p.1 0 = p.2 ∧ jumps.getD p.2 0 = p.1) : Placed code jumps start b := by
  induction b generalizing start with
  | done => trivial
  | plain op hop rest ih =>
      rw [program, pairsFrom_plain hop] at hpairs
      exact ⟨hcode.head, ih hcode.tail hpairs⟩
  | loop body rest ihbody ih =>
      have hclose := hcode.tail.append_right
      rw [program, pairsFrom_open, pairsFrom_nested (nested_program body), pairsFrom_close]
        at hpairs
      rw [show start + 1 + body.program.length = start + body.program.length + 1 by omega]
        at hclose hpairs
      obtain ⟨hinner, houter⟩ := List.forall_mem_append.1 hpairs
      obtain ⟨⟨hforth, hback⟩, hrest⟩ := List.forall_mem_cons.1 houter
      refine ⟨⟨hcode.head, hclose.head, hforth, hback⟩, ?_, ?_⟩
      · exact ihbody hcode.tail.append_left hinner
      · exact ih hclose.tail hrest

/-- A block is placed in its own program. -/
theorem placed_program (hjumps : Jumps.ofProgram b.program = .ok jumps) :
    Placed b.program.toArray jumps 0 b := by
  apply placed_of_pairs
  · intro i _
    rw [Nat.zero_add, List.getElem?_toArray]
  · intro p hp
    exact ⟨jumps_getD hjumps (.inl hp), jumps_getD hjumps (.inr hp)⟩

/-- At either bracket of a loop the machine tests the cell, and it goes on alike. -/
theorem advance_guard (hloop : LoopAt code jumps start stop) (hip : s.ip = start ∨ s.ip = stop)
    {v : UInt8} (hv : s.tape[s.ptr]? = some v) :
    advance code jumps around s =
      .next { s with ip := (if v = 0 then stop else start) + 1 } := by
  rcases hip with hip | hip
  · have hop : code[s.ip]? = some .openLoop := by rw [hip, hloop.opens]
    rw [advance_open hop hv, hip, hloop.forth]
  · have hop : code[s.ip]? = some .closeLoop := by rw [hip, hloop.closes]
    rw [advance_close hop hv, hip, hloop.back]

/-! ## From the tree to the machine -/

/-- From `s` the machine gets to the operation at `stop` with what the result leaves in
memory, or is stopped on the way as the result says. -/
def Arrives (code : Array Op) (jumps : Jumps) (input : Array UInt8) (s : State) (stop : Nat)
    (r : Result) : Prop :=
  match r.fault? with
  | none => ∃ n t, after code jumps { input } n s = some t ∧ t.ip = stop ∧ t.memory = r.memory
  | some fault => ∃ n u, Ends code jumps { input } n s (some fault) u ∧ u.memory = r.memory

theorem Arrives.of_after (ht : after code jumps { input } n s = some t)
    (h : Arrives code jumps input t stop r) : Arrives code jumps input s stop r := by
  obtain ⟨_ | fault, m⟩ := r
  · obtain ⟨k, w, hw, hip, hm⟩ := h
    exact ⟨n + k, w, (after_add ht k).trans hw, hip, hm⟩
  · obtain ⟨k, u, hends, hm⟩ := h
    exact ⟨n + k, u, hends.of_after ht, hm⟩

/-- Two states with the same next state arrive alike. -/
theorem Arrives.of_advance {s' : State} (hs : advance code jumps { input } s = .next t)
    (hs' : advance code jumps { input } s' = .next t) (hne : s.ip ≠ stop)
    (h : Arrives code jumps input s stop r) : Arrives code jumps input s' stop r := by
  refine .of_after (after_one hs') ?_
  obtain ⟨_ | fault, m⟩ := r
  · obtain ⟨k, w, hw, hip, hm⟩ := h
    cases k with
    | zero =>
        cases hw
        exact absurd hip hne
    | succ k =>
        rw [after_succ hs] at hw
        exact ⟨k, w, hw, hip, hm⟩
  · obtain ⟨k, u, hends, hm⟩ := h
    obtain ⟨k', -, hends'⟩ := hends.next hs
    exact ⟨k', u, hends', hm⟩

/-- The machine gets through a block as the block evaluates. -/
theorem Evaluates.arrives (h : Evaluates input start b m r) (hplaced : Placed code jumps start b)
    (hip : s.ip = start) (hm : s.memory = m) :
    Arrives code jumps input s (start + b.program.length) r := by
  induction h generalizing s with
  | done => exact ⟨0, s, rfl, hip, hm⟩
  | @plain start op hop rest m m' r hperform _ ih =>
      subst hip hm
      obtain ⟨t, hadv, htarget, hmemory⟩ := advance_of_perform jumps hplaced.1 hperform
      have htip := htarget.trans (target_plain hop ..)
      have harrives := ih hplaced.2 htip hmemory
      rw [show s.ip + 1 + rest.program.length = s.ip + (rest.program.length + 1) by omega]
        at harrives
      exact harrives.of_after (after_one hadv)
  | plainOffTape hperform =>
      subst hip hm
      obtain ⟨u, hadv, hmemory⟩ := advance_of_perform_eq_none jumps hplaced.1 hperform
      exact ⟨0, u, ⟨s, rfl, hadv⟩, hmemory⟩
  | @loopLeft start body rest m r hcell _ ih =>
      subst hm
      obtain ⟨hloop, -, hrest⟩ := hplaced
      have harrives := ih hrest rfl (s := { s with ip := _ }) rfl
      rw [length_loop, ← Nat.add_assoc]
      exact harrives.of_after (after_one (advance_guard hloop (.inl hip) hcell))
  | @loopAgain start body rest m m' v r hcell hv hbody _ ihbody ih =>
      subst hm
      obtain ⟨hloop, hin, -⟩ := id hplaced
      have hadv : advance code jumps { input } s = _ := advance_guard hloop (.inl hip) hcell
      rw [if_neg hv] at hadv
      obtain ⟨n, w, hw, hwip, hwm⟩ := ihbody hin (s := { s with ip := _ }) rfl rfl
      refine .of_after (after_one hadv) (.of_after hw ?_)
      -- at the close bracket the machine does what it would do at the open one
      obtain ⟨v', hv'⟩ := hbody.exists_cell hcell
      rw [show m' = w.memory from hwm.symm] at hv'
      have hagain := ih hplaced (s := { w with ip := start }) rfl hwm
      have hstop : w.ip = start + body.program.length + 1 := by rw [hwip]; omega
      have hopen : advance code jumps { input } { w with ip := start } = _ :=
        advance_guard hloop (.inl rfl) hv'
      refine hagain.of_advance hopen (advance_guard hloop (.inr hstop) hv') ?_
      show start ≠ _
      rw [length_loop]
      omega
  | loopFault hcell hv hbody ih =>
      subst hm
      obtain ⟨hloop, hin, -⟩ := hplaced
      have hadv : advance code jumps { input } s = _ := advance_guard hloop (.inl hip) hcell
      rw [if_neg hv] at hadv
      obtain ⟨n, u, hends, hu⟩ := ih hin (s := { s with ip := _ }) rfl rfl
      exact ⟨1 + n, u, hends.of_after (after_one hadv), hu⟩
  | loopOffTape hcell =>
      subst hip hm
      obtain ⟨hloop, -⟩ := hplaced
      have hperform : perform input s.memory .openLoop = none := by rw [perform, hcell]; rfl
      obtain ⟨u, hadv, hmemory⟩ := advance_of_perform_eq_none jumps hloop.opens hperform
      exact ⟨0, u, ⟨s, rfl, hadv⟩, hmemory⟩

/-! ## From the machine to the tree -/

/-- When the run from the start of a block is over some time, the block evaluates. -/
theorem exists_evaluates (hplaced : Placed code jumps start b) (hip : s.ip = start)
    (hends : Ends code jumps { input } n s fault? u) : ∃ r, Evaluates input start b s.memory r := by
  -- the induction is on the steps that are left: every operation and every test takes one
  induction n using Nat.strongRecOn generalizing start b s with
  | ind n ih =>
      cases b with
      | done => exact ⟨_, .done⟩
      | plain op hop rest =>
          subst hip
          cases hperform : perform input s.memory op with
          | none => exact ⟨_, .plainOffTape hperform⟩
          | some m =>
              obtain ⟨t, hadv, htarget, rfl⟩ := advance_of_perform jumps hplaced.1 hperform
              obtain ⟨k, rfl, hleft⟩ := hends.next hadv
              have htip := htarget.trans (target_plain hop ..)
              obtain ⟨r, hrest⟩ := ih k (Nat.lt_succ_self k) hplaced.2 htip hleft
              exact ⟨r, .plain hperform hrest⟩
      | loop body rest =>
          obtain ⟨hloop, hin, hbehind⟩ := id hplaced
          cases hcell : s.memory.tape[s.memory.ptr]? with
          | none => exact ⟨_, .loopOffTape hcell⟩
          | some v =>
              have hadv : advance code jumps { input } s = _ :=
                advance_guard hloop (.inl hip) hcell
              obtain ⟨k, rfl, hleft⟩ := hends.next hadv
              by_cases hv : v = 0
              · subst hv
                obtain ⟨r, hrest⟩ := ih k (Nat.lt_succ_self k) hbehind rfl hleft
                exact ⟨r, .loopLeft hcell hrest⟩
              · rw [if_neg hv] at hleft
                obtain ⟨⟨_ | fault, m'⟩, hbody⟩ := ih k (Nat.lt_succ_self k) hin rfl hleft
                · obtain ⟨j, w, hw, hwip, hwm⟩ := hbody.arrives hin rfl rfl
                  obtain ⟨v', hv'⟩ := hbody.exists_cell hcell
                  rw [show m' = w.memory from hwm.symm] at hv'
                  have hstop : w.ip = start + body.program.length + 1 := by rw [hwip]; omega
                  obtain ⟨i, hi, hleft'⟩ := (hleft.after hw).next
                    (advance_guard hloop (.inr hstop) hv')
                  have hagain := hleft'.of_after (after_one
                    (advance_guard (s := { w with ip := start }) hloop (.inl rfl) hv'))
                  obtain ⟨r, hloop'⟩ := ih (1 + i) (by omega) hplaced rfl hagain
                  rw [show State.memory { w with ip := start } = m' from hwm] at hloop'
                  exact ⟨r, .loopAgain hcell hv hbody hloop'⟩
                · exact ⟨_, .loopFault hcell hv hbody⟩

/-! ## The machine and the tree -/

theorem ends_of_arrives (h : Arrives code jumps input s code.size r) :
    ∃ n u, Ends code jumps { input } n s r.fault? u ∧ u.memory = r.memory := by
  obtain ⟨_ | fault, m⟩ := r
  · obtain ⟨n, t, ht, hip, hm⟩ := h
    have hend : code[t.ip]? = none := Array.getElem?_eq_none (Nat.le_of_eq hip.symm)
    obtain ⟨u, hadv, hu⟩ := advance_end_undisturbed input jumps hend
    exact ⟨n, u, ⟨t, ht, hadv⟩, hu.trans hm⟩
  · exact h

theorem exists_ofProgram (b : Block) : ∃ jumps, Jumps.ofProgram b.program = .ok jumps :=
  ofProgram_ok_iff.2 (balanced_iff_unmatched_eq_none.1 (balanced_program b))

/-- Whatever is in its memory, the machine does with the operations of a block what the
block means. -/
theorem proceeds_iff_evaluates : Proceeds b.program input m r ↔ Evaluates input 0 b m r := by
  obtain ⟨jumps, hjumps⟩ := exists_ofProgram b
  have hplaced := placed_program hjumps
  have hforth : ∀ r, Evaluates input 0 b m r → ∃ n u,
      Ends b.program.toArray jumps { input } n m.snapshot.state r.fault? u ∧
        u.memory = r.memory := by
    intro r h
    have harrives := h.arrives hplaced (s := m.snapshot.state) rfl rfl
    rw [Nat.zero_add, ← List.size_toArray] at harrives
    exact ends_of_arrives harrives
  rw [proceeds_iff_ends hjumps]
  constructor
  · rintro ⟨n, fault?, u, hends, rfl⟩
    obtain ⟨r, hr⟩ := exists_evaluates hplaced rfl hends
    obtain ⟨k, w, hends', hw⟩ := hforth r hr
    obtain ⟨-, rfl, rfl⟩ := hends.unique hends'
    rw [hw]
    exact hr
  · intro h
    obtain ⟨n, u, hends, hu⟩ := hforth r h
    exact ⟨n, _, u, hends, by rw [hu]⟩

/-- From blank memory: what the machine is seen to end with is what the block evaluates
to. -/
theorem observed_program_iff {size : Nat} :
    (∃ o, Observed ⟨size, none⟩ b.program { input } o ∧ o.result = r) ↔
      Evaluates input 0 b (.blank size) r := by
  obtain ⟨jumps, hjumps⟩ := exists_ofProgram b
  rw [observed_iff_proceeds hjumps, proceeds_iff_evaluates]

/-- The machine executes one block and then the other. -/
theorem observed_append_iff {c : Block} {size : Nat} :
    (∃ o, Observed ⟨size, none⟩ (b.append c).program { input } o ∧ o.result = r) ↔
      ∃ o, Observed ⟨size, none⟩ b.program { input } o ∧
        ((o.fault? ≠ none ∧ r = o.result) ∨
          (o.fault? = none ∧ ∃ r', Proceeds c.program input o.memory r' ∧
            r = r'.shift b.program.length)) := by
  rw [observed_program_iff, evaluates_append_iff, Nat.add_comm 0]
  constructor
  · rintro (⟨hr, hb⟩ | ⟨m', hb, hc⟩)
    · obtain ⟨o, ho, rfl⟩ := observed_program_iff.2 hb
      exact ⟨o, ho, .inl ⟨hr, rfl⟩⟩
    · obtain ⟨o, ho, hresult⟩ := observed_program_iff.2 hb
      have hfault : o.fault? = none := congrArg Result.fault? hresult
      have hmemory : o.memory = m' := congrArg Result.memory hresult
      obtain ⟨r', hr', rfl⟩ := evaluates_add_iff.1 hc
      rw [← hmemory] at hr'
      exact ⟨o, ho, .inr ⟨hfault, r', proceeds_iff_evaluates.2 hr', rfl⟩⟩
  · rintro ⟨o, ho, ⟨hfault, rfl⟩ | ⟨hfault, r', hr', rfl⟩⟩
    · exact .inl ⟨hfault, observed_program_iff.1 ⟨o, ho, rfl⟩⟩
    · refine .inr ⟨o.memory, observed_program_iff.1 ⟨o, ho, ?_⟩, ?_⟩
      · rw [Observation.result, hfault]
      · exact evaluates_add_iff.2 ⟨r', proceeds_iff_evaluates.1 hr', rfl⟩

/-- **The machine carries out structured loops.** The balanced programs are those that can
be read as a block, and the block is the one with these operations.  For every block, every
tape and every input the machine without a limit ends with a result exactly when the block
evaluates to it: with the same fault at the same operation or none, and with the same tape,
pointer, output and number of bytes read.  Two balanced programs one behind the other are
executed one after the other: the second starts with the memory that the first leaves, and
its faults name operations behind those of the first. -/
theorem observed_iff_evaluates :
    (∀ ops, Balanced ops ↔ ∃ b, parse? ops = some b) ∧
    (∀ ops b, parse? ops = some b ↔ b.program = ops) ∧
    (∀ b size input r,
      (∃ o, Observed ⟨size, none⟩ b.program { input } o ∧ o.result = r) ↔
        Evaluates input 0 b (.blank size) r) ∧
    ∀ ops ops', Balanced ops → Balanced ops' → ∀ size input r,
      (∃ o, Observed ⟨size, none⟩ (ops ++ ops') { input } o ∧ o.result = r) ↔
        ∃ o, Observed ⟨size, none⟩ ops { input } o ∧
          ((o.fault? ≠ none ∧ r = o.result) ∨
            (o.fault? = none ∧ ∃ r', Proceeds ops' input o.memory r' ∧
              r = r'.shift ops.length)) := by
  refine ⟨fun ops => balanced_iff_exists_parse?, fun ops b => parse?_eq_some_iff,
    fun b size input r => observed_program_iff, ?_⟩
  intro ops ops' hops hops' size input r
  obtain ⟨b, hb⟩ := balanced_iff_exists_parse?.1 hops
  obtain ⟨c, hc⟩ := balanced_iff_exists_parse?.1 hops'
  rw [parse?_eq_some_iff] at hb hc
  subst hb hc
  rw [← program_append]
  exact observed_append_iff

/-- A loop that counts the byte it has read down to zero, and behind it a program that leaves
the tape at its own operation 1, which is operation 5 of the two together. -/
theorem observed_iff_evaluates_two_programs :
    Balanced [.input, .openLoop, .run .dec 1, .closeLoop] ∧ Balanced [.output, .run .right 3] ∧
      ∃ o, Observed ⟨2, none⟩ ([.input, .openLoop, .run .dec 1, .closeLoop] ++
          [.output, .run .right 3]) { input := #[2] } o ∧
        o.result = ⟨some (.outOfTape 5 2), ⟨#[0, 0], 0, #[0], 1⟩⟩ := by
  have hfirst : Balanced [.input, .openLoop, .run .dec 1, .closeLoop] :=
    balanced_iff_unmatched_eq_none.2 rfl
  have hsecond : Balanced [.output, .run .right 3] := balanced_iff_unmatched_eq_none.2 rfl
  have hrun : Proceeds [.input, .openLoop, .run .dec 1, .closeLoop] #[2] (.blank 2)
      ⟨none, ⟨#[0, 0], 0, #[], 1⟩⟩ := ⟨_, 7, _, _, rfl, rfl, rfl⟩
  obtain ⟨o, ho, hresult⟩ := (observed_iff_proceeds rfl).2 hrun
  have hmemory : o.memory = ⟨#[0, 0], 0, #[], 1⟩ := congrArg Result.memory hresult
  refine ⟨hfirst, hsecond, (observed_iff_evaluates.2.2.2 _ _ hfirst hsecond 2 #[2] _).2 ⟨o, ho, ?_⟩⟩
  refine .inr ⟨congrArg Result.fault? hresult,
    ⟨some (.outOfTape 1 2), ⟨#[0, 0], 0, #[0], 1⟩⟩, ?_, rfl⟩
  rw [hmemory]
  exact ⟨_, 2, _, _, rfl, rfl, rfl⟩

end Block

end Brainfuck
