import Brainfuck.Proofs.Abbreviation.Simulation
import Brainfuck.Proofs.Machine.Undisturbed
import Brainfuck.Proofs.Structure.Block

/-!
# What a block means

A block is carried out along its tree.  A loop tests the current cell, carries out its
body and is tested again, until the cell is zero.  No bracket is ever looked for; where
an operation stands in the program matters only for the index that a fault names.

* `Machine.Result` — how a run or a block is over, and what it leaves in memory.
* `Block.Evaluates` — a block is carried out; a block that never comes to an end
  evaluates to nothing.
* `Block.Evaluates.ptr_lt` — a block that starts at a cell stays at a cell, so that a loop
  that has been entered can always be tested again.
* `Block.evaluates_append_iff` — one block behind the other.
* `Block.evaluates_add_iff` — a block does the same wherever it stands.
-/

namespace Brainfuck

open Machine Abbreviation

namespace Machine

/-- How a run is over, and what it leaves in memory. -/
structure Result where
  /-- What stopped the run; `none` when it came to its end. -/
  fault? : Option Fault
  memory : Memory
  deriving DecidableEq, Repr

/-- The result with its operation named by an index that is `k` higher. -/
def Result.shift (k : Nat) (r : Result) : Result :=
  { r with fault? := r.fault?.map (relabel (k + ·)) }

end Machine

namespace Block

/-- The block whose first operation has the index `start` is carried out in the memory
`m` and ends with the result. -/
inductive Evaluates (input : Array UInt8) : Nat → Block → Memory → Result → Prop
  /-- There is nothing to do. -/
  | done {start : Nat} {m : Memory} : Evaluates input start .done m ⟨none, m⟩
  /-- The operation is carried out, and then the rest. -/
  | plain {start : Nat} {op : Op} {hop : op.isBracket = false} {rest : Block} {m m' : Memory}
      {r : Result} : perform input m op = some m' → Evaluates input (start + 1) rest m' r →
      Evaluates input start (.plain op hop rest) m r
  /-- The operation needs a cell outside the tape. -/
  | plainOffTape {start : Nat} {op : Op} {hop : op.isBracket = false} {rest : Block}
      {m : Memory} : perform input m op = none →
      Evaluates input start (.plain op hop rest) m
        ⟨some (.outOfTape start m.tape.size), m.abandon op⟩
  /-- The cell is zero, and the loop is left. -/
  | loopLeft {start : Nat} {body rest : Block} {m : Memory} {r : Result} :
      m.tape[m.ptr]? = some 0 → Evaluates input (start + body.program.length + 2) rest m r →
      Evaluates input start (.loop body rest) m r
  /-- The cell is not zero: the body is carried out, and the loop is tested again. -/
  | loopAgain {start : Nat} {body rest : Block} {m m' : Memory} {v : UInt8} {r : Result} :
      m.tape[m.ptr]? = some v → v ≠ 0 → Evaluates input (start + 1) body m ⟨none, m'⟩ →
      Evaluates input start (.loop body rest) m' r → Evaluates input start (.loop body rest) m r
  /-- The cell is not zero, and the body does not come to its end. -/
  | loopFault {start : Nat} {body rest : Block} {m m' : Memory} {v : UInt8} {fault : Fault} :
      m.tape[m.ptr]? = some v → v ≠ 0 → Evaluates input (start + 1) body m ⟨some fault, m'⟩ →
      Evaluates input start (.loop body rest) m ⟨some fault, m'⟩
  /-- There is no cell to test. -/
  | loopOffTape {start : Nat} {body rest : Block} {m : Memory} : m.tape[m.ptr]? = none →
      Evaluates input start (.loop body rest) m ⟨some (.outOfTape start m.tape.size), m⟩

variable {input : Array UInt8} {start k : Nat} {b c : Block} {m m' : Memory} {r : Result}
  {fault : Fault}

/-! ## Staying on the tape -/

theorem ptr_abandon (m : Memory) (op : Op) : (m.abandon op).ptr = m.ptr := by
  cases op <;> rfl

/-- From a cell of the tape a block comes to a cell of the tape. -/
theorem Evaluates.ptr_lt (h : Evaluates input start b m r) (hm : m.ptr < m.tape.size) :
    r.memory.ptr < r.memory.tape.size := by
  induction h with
  | done => exact hm
  | plain hperform _ ih =>
      obtain ⟨hsize, hptr⟩ := perform_bounds hperform
      apply ih
      omega
  | @plainOffTape start op hop rest m _ =>
      rw [tape_abandon, ptr_abandon]
      exact hm
  | loopLeft _ _ ih => exact ih hm
  | loopAgain _ _ _ _ ihbody ih => exact ih (ihbody hm)
  | loopFault _ _ _ ih => exact ih hm
  | loopOffTape _ => exact hm

/-- When a loop is tested again there is a cell to test. -/
theorem Evaluates.exists_cell (h : Evaluates input start b m ⟨none, m'⟩) {v : UInt8}
    (hv : m.tape[m.ptr]? = some v) : ∃ w, m'.tape[m'.ptr]? = some w := by
  have hlt : m'.ptr < m'.tape.size := h.ptr_lt (Array.getElem?_eq_some_iff.1 hv).1
  exact ⟨_, Array.getElem?_eq_getElem hlt⟩

/-! ## One block behind the other -/

theorem Evaluates.append (h : Evaluates input start b m ⟨none, m'⟩)
    (hc : Evaluates input (start + b.program.length) c m' r) :
    Evaluates input start (b.append c) m r := by
  generalize hr : (⟨none, m'⟩ : Result) = r' at h
  induction h with
  | done =>
      cases hr
      exact hc
  | @plain start op hop rest m m₁ r' hperform _ ih =>
      refine .plain hperform (ih ?_ hr)
      rw [show start + 1 + rest.program.length = start + (rest.program.length + 1) by omega]
      exact hc
  | plainOffTape _ => cases hr
  | @loopLeft start body rest m r' hcell _ ih =>
      refine .loopLeft hcell (ih ?_ hr)
      rw [length_loop] at hc
      rw [show start + body.program.length + 2 + rest.program.length =
        start + (body.program.length + 2 + rest.program.length) by omega]
      exact hc
  | loopAgain hcell hv hbody _ _ ih => exact .loopAgain hcell hv hbody (ih hc hr)
  | loopFault _ _ _ _ => cases hr
  | loopOffTape _ => cases hr

/-- What does not come to its end does not get to what stands behind. -/
theorem Evaluates.append_of_fault (h : Evaluates input start b m ⟨some fault, m'⟩) (c : Block) :
    Evaluates input start (b.append c) m ⟨some fault, m'⟩ := by
  generalize hr : (⟨some fault, m'⟩ : Result) = r at h
  induction h with
  | done => cases hr
  | plain hperform _ ih => exact .plain hperform (ih hr)
  | plainOffTape hperform => exact .plainOffTape hperform
  | loopLeft hcell _ ih => exact .loopLeft hcell (ih hr)
  | loopAgain hcell hv hbody _ _ ih => exact .loopAgain hcell hv hbody (ih hr)
  | loopFault hcell hv hbody _ => exact .loopFault hcell hv hbody
  | loopOffTape hcell => exact .loopOffTape hcell

/-- A block with another one behind it stops on the way, or comes to its end and the other
one is carried out. -/
theorem evaluates_append_iff : Evaluates input start (b.append c) m r ↔
    (r.fault? ≠ none ∧ Evaluates input start b m r) ∨
      ∃ m', Evaluates input start b m ⟨none, m'⟩ ∧
        Evaluates input (start + b.program.length) c m' r := by
  constructor
  · intro h
    induction b generalizing start m r with
    | done => exact .inr ⟨m, .done, h⟩
    | plain op hop rest ih =>
        have hlen : start + 1 + rest.program.length =
            start + (Block.plain op hop rest).program.length := by
          simp only [program, List.length_cons]
          omega
        cases h with
        | plain hperform hrest =>
            rcases ih hrest with ⟨hr, hrest⟩ | ⟨m', hrest, hc⟩
            · exact .inl ⟨hr, .plain hperform hrest⟩
            · rw [hlen] at hc
              exact .inr ⟨m', .plain hperform hrest, hc⟩
        | plainOffTape hperform => exact .inl ⟨Option.some_ne_none _, .plainOffTape hperform⟩
    | loop body rest _ ih =>
        have hlen : start + body.program.length + 2 + rest.program.length =
            start + (Block.loop body rest).program.length := by
          rw [length_loop]
          omega
        -- the loop may be tested many times before what stands behind it is reached
        generalize hloop : (Block.loop body rest).append c = bc at h
        induction h with
        | loopLeft hcell hrest _ =>
            cases hloop
            rcases ih hrest with ⟨hr, hrest⟩ | ⟨m', hrest, hc⟩
            · exact .inl ⟨hr, .loopLeft hcell hrest⟩
            · rw [hlen] at hc
              exact .inr ⟨m', .loopLeft hcell hrest, hc⟩
        | loopAgain hcell hv hbody _ _ ihloop =>
            cases hloop
            rcases ihloop hlen rfl with ⟨hr, hagain⟩ | ⟨m', hagain, hc⟩
            · exact .inl ⟨hr, .loopAgain hcell hv hbody hagain⟩
            · exact .inr ⟨m', .loopAgain hcell hv hbody hagain, hc⟩
        | loopFault hcell hv hbody _ =>
            cases hloop
            exact .inl ⟨Option.some_ne_none _, .loopFault hcell hv hbody⟩
        | loopOffTape hcell =>
            cases hloop
            exact .inl ⟨Option.some_ne_none _, .loopOffTape hcell⟩
        | _ => cases hloop
  · rintro (⟨hr, hb⟩ | ⟨m', hb, hc⟩)
    · obtain ⟨_ | fault, m'⟩ := r
      · exact absurd rfl hr
      · exact hb.append_of_fault c
    · exact hb.append hc

/-! ## A block in another place -/

theorem Evaluates.add (h : Evaluates input start b m r) (k : Nat) :
    Evaluates input (k + start) b m (r.shift k) := by
  induction h with
  | done => exact .done
  | plain hperform _ ih => exact .plain hperform ih
  | plainOffTape hperform => exact .plainOffTape hperform
  | @loopLeft start body _ _ _ hcell _ ih =>
      refine .loopLeft hcell ?_
      rw [Nat.add_assoc, Nat.add_assoc, ← Nat.add_assoc start]
      exact ih
  | loopAgain hcell hv _ _ ihbody ih => exact .loopAgain hcell hv ihbody ih
  | loopFault hcell hv _ ih => exact .loopFault hcell hv ih
  | loopOffTape hcell => exact .loopOffTape hcell

/-- A block does the same wherever it stands, and a fault names its operation there. -/
theorem evaluates_add_iff : Evaluates input (k + start) b m r ↔
    ∃ r', Evaluates input start b m r' ∧ r = r'.shift k := by
  constructor
  · intro h
    generalize hpos : k + start = pos at h
    induction h generalizing start with
    | done => exact ⟨_, .done, rfl⟩
    | plain hperform _ ih =>
        obtain ⟨r', hrest, hr⟩ := ih (show k + (start + 1) = _ by omega)
        exact ⟨r', .plain hperform hrest, hr⟩
    | plainOffTape hperform =>
        subst hpos
        exact ⟨_, .plainOffTape hperform, rfl⟩
    | @loopLeft _ body _ _ _ hcell _ ih =>
        obtain ⟨r', hrest, hr⟩ := ih
          (show k + (start + body.program.length + 2) = _ by omega)
        exact ⟨r', .loopLeft hcell hrest, hr⟩
    | loopAgain hcell hv _ _ ihbody ih =>
        obtain ⟨⟨fault?, m'⟩, hbody, hm⟩ := ihbody (show k + (start + 1) = _ by omega)
        obtain ⟨r', hloop, hr⟩ := ih hpos
        cases fault? with
        | none =>
            cases hm
            exact ⟨r', .loopAgain hcell hv hbody hloop, hr⟩
        | some fault => cases hm
    | loopFault hcell hv _ ih =>
        obtain ⟨⟨fault?, m'⟩, hbody, hm⟩ := ih (show k + (start + 1) = _ by omega)
        cases fault? with
        | none => cases hm
        | some fault => exact ⟨_, .loopFault hcell hv hbody, hm⟩
    | loopOffTape hcell =>
        subst hpos
        exact ⟨_, .loopOffTape hcell, rfl⟩
  · rintro ⟨r', h, rfl⟩
    exact h.add k

end Block

end Brainfuck
