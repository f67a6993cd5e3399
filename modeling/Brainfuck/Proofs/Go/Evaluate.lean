import Brainfuck.Proofs.Go.Reader
import Brainfuck.Proofs.Machine.Undisturbed

/-!
# The Go that is written does what the machine does

A program that has been read back from its text is evaluated statement by statement.
The pointer is an integer, a move that leaves the tape fails at once, and a loop jumps
between its two braces.

* `Go.exec`, `Go.next`, `Go.runBody` — one statement, the statement behind it, and a
  whole function body with a budget of statements.
* `Go.evaluate` — a text read and run.
* `Go.runBody_eq_follow` — the body of a program keeps in step with the machine.
* `Go.evaluate_iff_observed` — the text of a program and the machine end alike.
-/

namespace Brainfuck.Go

open Loops Machine

/-! ## Evaluation -/

/-- What a running Go program holds. -/
structure Frame where
  tape : Array UInt8
  ptr : Int
  output : Array UInt8
  /-- How many bytes of the input have been read. -/
  consumed : Nat
  deriving DecidableEq, Repr

namespace Frame

/-- Zeroed cells, the pointer at the first of them. -/
def blank (cells : Nat) : Frame := ⟨Array.replicate cells 0, 0, #[], 0⟩

/-- The cell with an index; `none` outside the tape. -/
def at? (f : Frame) (i : Int) : Option UInt8 := if 0 ≤ i then f.tape[i.toNat]? else none

/-- The cell the pointer is at. -/
def cell? (f : Frame) : Option UInt8 := f.at? f.ptr

/-- Another value in the cell the pointer is at. -/
def store (f : Frame) (v : UInt8) : Frame :=
  { f with tape := f.tape.setIfInBounds f.ptr.toNat v }

end Frame

/-- What a statement does; `none` when it needs a cell outside the tape. -/
def exec (input : Array UInt8) (f : Frame) : Statement → Option Frame
  | .move d => (f.at? (f.ptr + d)).map fun _ => { f with ptr := f.ptr + d }
  | .add n => f.cell?.map fun v => f.store (v + n)
  | .subtract n => f.cell?.map fun v => f.store (v - n)
  | .zero => f.cell?.map fun _ => f.store 0
  | .write => f.cell?.map fun v => { f with output := f.output.push v }
  | .read =>
      match input[f.consumed]? with
      | none => some f
      | some b => f.cell?.map fun _ => { f.store b with consumed := f.consumed + 1 }
  | .loop | .close => f.cell?.map fun _ => f

/-- The other brace of the loop that has a brace at `pc`. -/
def otherBrace (loops : List (Nat × Nat)) (pc : Nat) : Nat :=
  match loops.find? fun p => p.1 = pc || p.2 = pc with
  | some (start, stop) => if start = pc then stop else start
  | none => pc

/-- The statement behind the one at `pc`. -/
def next (loops : List (Nat × Nat)) (pc : Nat) (f : Frame) : Statement → Nat
  | .loop => (if f.cell? = some 0 then otherBrace loops pc else pc) + 1
  | .close => (if f.cell? = some 0 then pc else otherBrace loops pc) + 1
  | _ => pc + 1

/-- Runs a function body from `pc` on, for at most `budget` statements; `none` when that
does not bring it to its end. -/
def runBody (b : Body) (input : Array UInt8) : Nat → Nat → Frame → Option Frame
  | 0, pc, f => if pc < b.statements.length then none else some f
  | budget + 1, pc, f =>
      match b.statements[pc]? with
      | none => some f
      | some s => (exec input f s).bind (runBody b input budget (next b.loops pc f s))

/-- Reads a text and runs it, for at most `budget` statements. -/
def evaluate (text : String) (input : Array UInt8) (budget : Nat) : Option Frame :=
  (Program.ofText? text).bind fun p => runBody p.body input budget 0 (.blank p.cells)

/-! ## In step with the machine -/

/-- What a Go program holds when the machine has `m` in memory. -/
def Frame.of (m : Memory) : Frame := ⟨m.tape, m.ptr, m.output, m.consumed⟩

/-- The pointer is at a cell, or where it started. -/
def OnTape (m : Memory) : Prop := m.ptr < m.tape.size ∨ m.ptr = 0

variable {input : Array UInt8} {ops : List Op} {jumps : Jumps} {op : Op} {m m' : Memory}
  {pc budget : Nat}

theorem cell?_of (m : Memory) : (Frame.of m).cell? = m.tape[m.ptr]? := by
  simp [Frame.cell?, Frame.at?, Frame.of]

/-- An operation leaves the pointer on the tape. -/
theorem onTape_of_perform (h : OnTape m) (hperform : perform input m op = some m') : OnTape m' := by
  obtain ⟨hsize, hptr⟩ := perform_bounds hperform
  unfold OnTape at h ⊢
  omega

/-- A move in Go leaves the tape when the move of the machine does. -/
theorem exec_move {d : Int} {n : Nat} (hd : m.ptr + d = n) :
    exec input (.of m) (.move d) =
      (m.tape[n]?).map fun _ => Frame.of { m with ptr := n } := by
  have hat : (Frame.of m).at? ((Frame.of m).ptr + d) = m.tape[n]? := by
    simp [Frame.at?, Frame.of, hd]
  rw [exec, hat]
  simp [Frame.of, hd]

/-- A statement does what its operation does. -/
theorem exec_statementOf (input : Array UInt8) (h : OnTape m) (hop : op.Counted) :
    exec input (.of m) (statementOf op) = (perform input m op).map Frame.of := by
  cases op with
  | run kind n =>
      cases kind with
      | right =>
          rw [statementOf, exec_move rfl, perform]
          by_cases hlt : m.ptr + n.toNat < m.tape.size
          · simp [hlt]
          · simp [hlt]
      | left =>
          rw [statementOf, perform]
          by_cases hle : n.toNat ≤ m.ptr
          · have hpos : 0 < n.toNat := Nat.pos_of_ne_zero fun hn =>
              hop (congrArg some (UInt32.toNat_inj.1 hn))
            have hlt : m.ptr - n.toNat < m.tape.size := by
              unfold OnTape at h
              omega
            rw [exec_move (n := m.ptr - n.toNat) (by omega)]
            simp [hle, hlt]
          · have hneg : ¬ 0 ≤ (m.ptr : Int) + -(n.toNat : Int) := by omega
            simp [exec, Frame.at?, Frame.of, hneg, hle]
      | inc =>
          simp only [exec, statementOf, perform, cell?_of]
          cases m.tape[m.ptr]? <;> simp [Frame.store, Frame.of]
      | dec =>
          simp only [exec, statementOf, perform, cell?_of]
          cases m.tape[m.ptr]? <;> simp [Frame.store, Frame.of]
  | input =>
      simp only [exec, statementOf, perform, cell?_of]
      rw [show (Frame.of m).consumed = m.consumed from rfl]
      cases input[m.consumed]? with
      | none => rfl
      | some b => cases m.tape[m.ptr]? <;> simp [Frame.store, Frame.of]
  | _ =>
      simp only [exec, statementOf, perform, cell?_of]
      cases m.tape[m.ptr]? <;> simp [Frame.store, Frame.of]

/-- The braces of a program that is read back are partners as its brackets are. -/
theorem otherBrace_pairs (hjumps : Jumps.ofProgram ops = .ok jumps) {i j : Nat}
    (h : Partners ops i j) : otherBrace (pairs ops) i = j := by
  unfold otherBrace
  cases hfind : (pairs ops).find? fun p => p.1 = i || p.2 = i with
  | none =>
      rw [List.find?_eq_none] at hfind
      rcases h with h | h
      · simpa using hfind _ h
      · simpa using hfind _ h
  | some p =>
      obtain ⟨start, stop⟩ := p
      have hmem := List.mem_of_find?_eq_some hfind
      have hi := List.find?_some hfind
      -- a bracket has one partner only: the one the machine's table gives
      have hunique : ∀ k, Partners ops i k → k = j := fun k hk =>
        (jumps_getD hjumps hk).symm.trans (jumps_getD hjumps h)
      dsimp only
      split
      · rename_i hstart
        subst hstart
        exact hunique stop (.inl hmem)
      · rename_i hstart
        have hstop : stop = i := by simpa [hstart] using hi
        subst hstop
        exact hunique start (.inr hmem)

theorem next_statementOf (hjumps : Jumps.ofProgram ops = .ok jumps) (hop : ops[pc]? = some op) :
    next (pairs ops) pc (.of m) (statementOf op) = target jumps pc m.tape m.ptr op := by
  have hmatched := unmatched_of_ofProgram hjumps
  cases op with
  | run kind n => cases kind <;> rfl
  | openLoop =>
      obtain ⟨j, hj⟩ := exists_partner hmatched hop rfl
      rw [statementOf, next, target, cell?_of, otherBrace_pairs hjumps hj, jumps_getD hjumps hj]
  | closeLoop =>
      obtain ⟨j, hj⟩ := exists_partner hmatched hop rfl
      rw [statementOf, next, target, cell?_of, otherBrace_pairs hjumps hj, jumps_getD hjumps hj]
  | _ => rfl

/-- What a Go program holds at an ending of the machine; nothing when the tape is left. -/
def frame? : Ending → Option Frame
  | .halted m => some (.of m)
  | .offTape _ => none

/-- The body of a program keeps in step with the machine. -/
theorem runBody_eq_follow (hjumps : Jumps.ofProgram ops = .ok jumps)
    (hcounted : ∀ op ∈ ops, op.Counted) (h : OnTape m) :
    runBody ⟨ops.map statementOf, pairs ops⟩ input budget pc (.of m) =
      (follow ops.toArray jumps input budget pc m).bind frame? := by
  induction budget generalizing pc m with
  | zero =>
      rw [runBody, follow, List.length_map, List.size_toArray]
      split <;> rfl
  | succ budget ih =>
      rw [runBody, follow, List.getElem?_map, List.getElem?_toArray]
      cases hop : ops[pc]? with
      | none => rfl
      | some op =>
          have hexec := exec_statementOf input h (hcounted op (List.mem_of_getElem? hop))
          simp only [Option.map_some, hexec, next_statementOf hjumps hop]
          cases hperform : perform input m op with
          | none => rfl
          | some m' => exact ih (onTape_of_perform h hperform)

/-! ## The text and the machine -/

theorem of_blank (size : Nat) : Frame.of (.blank size) = Frame.blank size := rfl

/-- **The Go text of a program does what the machine does with the program.** Whatever
text is written, if its indentation is of tabs and spaces and the name of its package
stays on one line, every line of it is understood.  For every input and every budget it
comes to its end exactly when the machine does under that limit, and then with the same
output, tape, pointer and number of bytes read. -/
theorem evaluate_iff_observed {settings : Settings} {ops : List Op} {text : String}
    (hwrite : write settings ops = .ok text)
    (hindent : ∀ c ∈ settings.indent.toList, c = '\t' ∨ c = ' ')
    (hpackage : '\n' ∉ settings.packageName.toList) :
    (Program.ofText? text).isSome ∧
    ∀ input limit f, evaluate text input limit = some f ↔
      ∃ o, Observed ⟨settings.tapeSize, some limit⟩ ops { input } o ∧ o.fault? = none ∧
        f = .of o.memory := by
  have hread := ofText?_of_write hwrite hindent hpackage
  obtain ⟨hcounted, hmatched⟩ := check_eq_ok_iff.1 (write_eq_ok_iff.1 hwrite).1
  obtain ⟨jumps, hjumps⟩ := ofProgram_ok_iff.2 hmatched
  refine ⟨by rw [hread]; rfl, fun input limit f => ?_⟩
  have hblank : OnTape (.blank settings.tapeSize) := .inr rfl
  rw [evaluate, hread, Option.bind_some, ← of_blank, runBody_eq_follow hjumps hcounted hblank,
    Option.bind_eq_some_iff]
  constructor
  · rintro ⟨e, he, hf⟩
    cases e with
    | offTape m => cases hf
    | halted m =>
        cases hf
        obtain ⟨o, ho, hfault, rfl⟩ := (follow_halted_iff hjumps).1 he
        exact ⟨o, ho, hfault, rfl⟩
  · rintro ⟨o, ho, hfault, rfl⟩
    exact ⟨_, (follow_halted_iff hjumps).2 ⟨o, ho, hfault, rfl⟩, rfl⟩

/-- A program that reads a number and writes the numbers below it, indented by a tab
and a space: every step subtracts 257, which is 1 modulo 256. -/
theorem evaluate_iff_observed_countdown :
    ∃ text,
      write ⟨1, "\t ", "p"⟩ [.input, .openLoop, .run .dec 257, .output, .closeLoop] = .ok text ∧
      (Program.ofText? text).isSome ∧ evaluate text #[3] 14 = some ⟨#[0], 0, #[2, 1, 0], 1⟩ := by
  have hwrite : write ⟨1, "\t ", "p"⟩ [.input, .openLoop, .run .dec 257, .output, .closeLoop] =
      .ok _ := write_eq_ok_iff.2 ⟨rfl, rfl⟩
  have h := evaluate_iff_observed hwrite (by simp) (by decide)
  have hrun : (run 20 (ofSettings ⟨1, some 14⟩)
      [.input, .openLoop, .run .dec 257, .output, .closeLoop] { input := #[3] }).map
        Report.observation = some ⟨none, #[0], 0, ⟨1, 1, #[2, 1, 0], #[0, 3],
          #[.flush, .read, .write, .write, .write, .flush]⟩⟩ := by decide +kernel
  obtain ⟨report, hreport, hobs⟩ := Option.map_eq_some_iff.1 hrun
  exact ⟨_, hwrite, h.1, (h.2 #[3] 14 _).2 ⟨_, ⟨20, report, hreport, hobs⟩, rfl, rfl⟩⟩

end Brainfuck.Go
