import Brainfuck.Proofs.Go.Check

/-!
# Which fault is reported

A program may have many faults: empty runs, close brackets with nothing open, loops that are
never closed.  The check of the Go writer reports one of them, and which one can be told by
counting brackets, without a stack.

* `Go.FaultAt`, `Go.FirstFault` — the operations at which a program goes wrong, and the first
  of them.
* `Go.NeverClosed`, `Go.Innermost` — the loops that are left open, and the innermost of them.
* `Go.checkFrom_of_first` — the check stops at the first fault.
* `Loops.exists_body_of_leftOpen` — what stands behind the innermost loop left open is well
  nested.
* `Go.write_reports` — the fault that is reported, whatever the settings.
-/

namespace Brainfuck

open Loops

namespace Go

/-! ## Faults by counting -/

/-- The operation at `i` is a run of length zero. -/
def EmptyAt (ops : List Op) (i : Nat) : Prop := ops[i]?.bind Op.count? = some 0

/-- At the operation at `i` the program goes wrong: it is a run of length zero, or up to and
including it more loops are closed than opened. -/
def FaultAt (ops : List Op) (i : Nat) : Prop :=
  EmptyAt ops i ∨
    i < ops.length ∧ (ops.take (i + 1)).count .openLoop < (ops.take (i + 1)).count .closeLoop

/-- The program goes wrong at `i` and not before. -/
def FirstFault (ops : List Op) (i : Nat) : Prop := FaultAt ops i ∧ ∀ j < i, ¬ FaultAt ops j

/-- A loop is opened at `i`, and no stretch right behind it closes more loops than it opens. -/
def NeverClosed (ops : List Op) (i : Nat) : Prop :=
  ops[i]? = some .openLoop ∧
    ∀ n ≤ ops.length, ((ops.drop (i + 1)).take n).count .closeLoop ≤
      ((ops.drop (i + 1)).take n).count .openLoop

/-- The last loop that is opened and never closed is opened at `i`. -/
def Innermost (ops : List Op) (i : Nat) : Prop :=
  NeverClosed ops i ∧ ∀ j < ops.length, NeverClosed ops j → j ≤ i

variable {ops rest : List Op} {op : Op} {ip depth i k : Nat} {stack : List Nat}

instance : Decidable (EmptyAt ops i) := inferInstanceAs (Decidable (_ = _))

instance : Decidable (FaultAt ops i) := inferInstanceAs (Decidable (_ ∨ _))

instance : Decidable (FirstFault ops i) := inferInstanceAs (Decidable (_ ∧ _))

instance : Decidable (NeverClosed ops i) := inferInstanceAs (Decidable (_ ∧ _))

instance : Decidable (Innermost ops i) := inferInstanceAs (Decidable (_ ∧ _))

/-! ## The check stops at the first fault -/

/-- `FaultAt` for the rest of a program, before which `depth` loops are open. -/
def FaultFrom (depth : Nat) (ops : List Op) (i : Nat) : Prop :=
  EmptyAt ops i ∨
    i < ops.length ∧
      depth + (ops.take (i + 1)).count .openLoop < (ops.take (i + 1)).count .closeLoop

theorem faultFrom_zero : FaultFrom 0 ops i ↔ FaultAt ops i := by
  rw [FaultFrom, FaultAt, Nat.zero_add]

theorem not_faultFrom_nil : ¬ FaultFrom depth [] i := by
  simp [FaultFrom, EmptyAt]

/-- At the front a program goes wrong by an empty run, or by a close bracket with nothing
open. -/
theorem faultFrom_front :
    FaultFrom depth (op :: rest) 0 ↔ op.count? = some 0 ∨ (op = .closeLoop ∧ depth = 0) := by
  cases op <;> simp [FaultFrom, EmptyAt, Op.count?]

/-- Behind the front it goes wrong where the rest does, with the loops open before that. -/
theorem faultFrom_succ {depth' : Nat}
    (hcount : ∀ p : List Op, depth + (op :: p).count .openLoop < (op :: p).count .closeLoop ↔
      depth' + p.count .openLoop < p.count .closeLoop) (i : Nat) :
    FaultFrom depth (op :: rest) (i + 1) ↔ FaultFrom depth' rest i := by
  simp only [FaultFrom, EmptyAt, List.getElem?_cons_succ, List.length_cons,
    Nat.add_lt_add_iff_right, List.take_succ_cons, hcount]

theorem faultFrom_plain (hop : op.isBracket = false) (i : Nat) :
    FaultFrom depth (op :: rest) (i + 1) ↔ FaultFrom depth rest i :=
  faultFrom_succ (fun p => by rw [(count_plain hop p).1, (count_plain hop p).2]) i

theorem faultFrom_open (i : Nat) :
    FaultFrom depth (.openLoop :: rest) (i + 1) ↔ FaultFrom (depth + 1) rest i :=
  faultFrom_succ (fun p => by rw [(count_open p).1, (count_open p).2]; omega) i

theorem faultFrom_close (i : Nat) :
    FaultFrom (depth + 1) (.closeLoop :: rest) (i + 1) ↔ FaultFrom depth rest i :=
  faultFrom_succ (fun p => by rw [(count_close p).1, (count_close p).2]; omega) i

/-- A fault that is the first of a program, but not at its front, is the first of what stands
behind the front. -/
theorem first_of_succ {depth' : Nat}
    (hsucc : ∀ i, FaultFrom depth (op :: rest) (i + 1) ↔ FaultFrom depth' rest i)
    (hfirst : ∀ j < k + 1, ¬ FaultFrom depth (op :: rest) j) :
    ∀ j < k, ¬ FaultFrom depth' rest j :=
  fun j hj hfault => hfirst (j + 1) (Nat.succ_lt_succ hj) ((hsucc j).2 hfault)

/-- The check stops at the first fault and says of what kind it is. -/
theorem checkFrom_of_first (hfault : FaultFrom stack.length ops k)
    (hfirst : ∀ j < k, ¬ FaultFrom stack.length ops j) :
    checkFrom ip stack ops =
      .error (if EmptyAt ops k then .emptyRun (ip + k) else .unmatchedClose (ip + k)) := by
  induction ip, stack, ops using bracketInduction generalizing k with
  | nil ip stack => exact absurd hfault not_faultFrom_nil
  | plain ip stack op rest hop ih =>
      cases k with
      | zero =>
          rcases faultFrom_front.1 hfault with hzero | ⟨rfl, -⟩
          · cases op with
            | run kind n =>
                cases hzero
                rfl
            | _ => cases hzero
          · cases hop
      | succ k =>
          have hcounted : op.Counted := fun hzero =>
            hfirst 0 (Nat.succ_pos k) (faultFrom_front.2 (.inl hzero))
          rw [checkFrom_plain hop hcounted, ih ((faultFrom_plain hop k).1 hfault)
            (first_of_succ (faultFrom_plain hop) hfirst), Nat.add_right_comm]
          rfl
  | opened ip stack rest ih =>
      cases k with
      | zero => simp [faultFrom_front, Op.count?] at hfault
      | succ k =>
          rw [checkFrom, ih ((faultFrom_open k).1 hfault)
            (first_of_succ faultFrom_open hfirst), Nat.add_right_comm]
          rfl
  | stray ip rest _ =>
      cases k with
      | zero => rfl
      | succ k => exact absurd (faultFrom_front.2 (.inr ⟨rfl, rfl⟩)) (hfirst 0 (Nat.succ_pos k))
  | closed ip start outer rest ih =>
      cases k with
      | zero => simp [faultFrom_front, Op.count?] at hfault
      | succ k =>
          rw [checkFrom, ih ((faultFrom_close k).1 hfault)
            (first_of_succ faultFrom_close hfirst), Nat.add_right_comm]
          rfl

theorem check_of_firstFault (h : FirstFault ops i) :
    check ops = .error (if EmptyAt ops i then .emptyRun i else .unmatchedClose i) := by
  have hcheck : checkFrom 0 [] ops = _ :=
    checkFrom_of_first (faultFrom_zero.2 h.1) fun j hj hfault => h.2 j hj (faultFrom_zero.1 hfault)
  rwa [Nat.zero_add] at hcheck

/-! ## Programs without a first fault -/

theorem counted_of_no_fault (h : ∀ i < ops.length, ¬ FaultAt ops i) :
    ∀ op ∈ ops, op.Counted := by
  intro op hop hzero
  obtain ⟨i, hi⟩ := List.mem_iff_getElem?.1 hop
  refine h i (List.getElem?_eq_some_iff.1 hi).1 (.inl ?_)
  rw [EmptyAt, hi]
  exact hzero

theorem not_stray_of_no_fault (h : ∀ i < ops.length, ¬ FaultAt ops i) (i : Nat) :
    unmatched ops ≠ some (.stray i) := by
  intro hi
  obtain ⟨p, hp, hlt⟩ := unmatched_stray_iff.1 ⟨i, hi⟩
  have hle := hp.length_le
  have htake := List.prefix_iff_eq_take.1 hp
  cases hlength : p.length with
  | zero =>
      rw [List.eq_nil_of_length_eq_zero hlength] at hlt
      cases hlt
  | succ n =>
      rw [hlength] at hle htake
      rw [htake] at hlt
      exact h n hle (.inr ⟨hle, hlt⟩)

end Go

/-! ## The innermost loop that is left open -/

namespace Loops

/-- What stands behind the innermost loop left open is well nested. -/
theorem exists_body_of_leftOpenFrom {read rest : List Op} {stack : List Nat} {i depth : Nat}
    (hread : Pending read stack)
    (h : unmatchedFrom read.length stack rest = some (.leftOpen i depth)) :
    ∃ before body, read ++ rest = before ++ .openLoop :: body ∧ before.length = i ∧
      Nested body := by
  -- what has been read grows by one operation at a time; `Pending` is the invariant
  induction rest generalizing read stack with
  | nil =>
      cases stack with
      | nil => cases h
      | cons start outer =>
          cases h
          obtain ⟨before, body, rfl, hstart, hbody, -⟩ := hread.innermost
          exact ⟨before, body, List.append_nil _, hstart, hbody⟩
  | cons op rest ih =>
      have hgrow : read ++ op :: rest = (read ++ [op]) ++ rest := by simp
      have hlen : (read ++ [op]).length = read.length + 1 := by simp
      rw [hgrow]
      by_cases hop : op.isBracket = false
      · rw [unmatchedFrom_plain hop, ← hlen] at h
        exact ih (hread.nested (.singleton hop)) h
      · cases op with
        | openLoop =>
            rw [unmatchedFrom_open, ← hlen] at h
            exact ih hread.opened h
        | closeLoop =>
            cases stack with
            | nil => cases h
            | cons start outer =>
                rw [unmatchedFrom_close, ← hlen] at h
                exact ih hread.closed h
        | _ => exact absurd rfl hop

theorem exists_body_of_leftOpen {ops : List Op} {i depth : Nat}
    (h : unmatched ops = some (.leftOpen i depth)) :
    ∃ before body, ops = before ++ .openLoop :: body ∧ before.length = i ∧ Nested body :=
  exists_body_of_leftOpenFrom Pending.nil h

theorem Balanced.count_drop_lt {body : List Op} {k : Nat} (h : Balanced body)
    (hk : body[k]? = some .openLoop) :
    (body.drop (k + 1)).count .openLoop < (body.drop (k + 1)).count .closeLoop := by
  have hbody : body = body.take k ++ .openLoop :: body.drop (k + 1) := by
    obtain ⟨hlt, hget⟩ := List.getElem?_eq_some_iff.1 hk
    rw [← hget, ← List.drop_eq_getElem_cons hlt, List.take_append_drop]
  rw [hbody] at h
  exact h.count_behind_open

end Loops

namespace Go

variable {ops : List Op} {i depth : Nat} {settings : Settings}

/-- What stands behind the bracket of a loop, and behind one in its body. -/
theorem drop_behind_open (before body : List Op) (k : Nat) :
    (before ++ .openLoop :: body).drop (before.length + 1 + k) = body.drop k := by
  rw [Nat.add_assoc, List.drop_append, List.drop_eq_nil_of_le (Nat.le_add_right _ _),
    Nat.add_sub_cancel_left, Nat.add_comm 1 k, List.drop_succ_cons, List.nil_append]

/-- The loop that is reported as left open is the innermost of those that are never closed. -/
theorem innermost_of_leftOpen (h : unmatched ops = some (.leftOpen i depth)) :
    Innermost ops i := by
  obtain ⟨before, body, rfl, rfl, hbody⟩ := exists_body_of_leftOpen h
  have hbalanced := hbody.balanced
  refine ⟨⟨by simp, ?_⟩, ?_⟩
  · intro n _
    rw [← Nat.add_zero (before.length + 1), drop_behind_open]
    exact hbalanced.1 _ (List.take_prefix n body)
  · -- a loop opened further in is closed before the body ends
    rintro j hj ⟨hopen, hclosed⟩
    refine Nat.le_of_not_lt fun hlt => ?_
    obtain ⟨k, rfl⟩ := Nat.exists_eq_add_of_lt hlt
    have hk : body[k]? = some .openLoop := by
      rw [← hopen]
      simp [List.getElem?_append_right, Nat.add_assoc]
    have hall := hclosed (before ++ .openLoop :: body).length (Nat.le_refl _)
    rw [show before.length + k + 1 + 1 = before.length + 1 + (k + 1) by omega,
      drop_behind_open, List.take_of_length_le (by simp; omega)] at hall
    exact absurd (hbalanced.count_drop_lt hk) (Nat.not_lt.2 hall)

/-- Without a first fault the brackets decide, and the loops left open are counted. -/
theorem check_of_no_fault (h : ∀ i < ops.length, ¬ FaultAt ops i) :
    (ops.count .openLoop = ops.count .closeLoop ∧ check ops = .ok ()) ∨
      ∃ i, Innermost ops i ∧ ops.count .closeLoop < ops.count .openLoop ∧
        check ops = .error (.unclosedLoop i (ops.count .openLoop - ops.count .closeLoop)) := by
  have hstray := not_stray_of_no_fault h
  have hcount : ops.count .openLoop =
      ops.count .closeLoop + (unmatched ops).elim 0 Unmatched.depth := count_of_not_stray hstray
  have hcheck := check_of_counted (counted_of_no_fault h)
  cases hu : unmatched ops with
  | none =>
      rw [hu] at hcount hcheck
      exact .inl ⟨hcount, hcheck⟩
  | some u =>
      cases u with
      | stray i => exact absurd hu (hstray i)
      | leftOpen i depth =>
          have hdepth := depth_pos hu
          rw [hu] at hcount hcheck
          rw [hcount]
          refine .inr ⟨i, innermost_of_leftOpen hu, Nat.lt_add_of_pos_right hdepth, ?_⟩
          rw [Nat.add_sub_cancel_left]
          exact hcheck

/-! ## The report -/

theorem write_of_error {refusal : Refusal} (h : check ops = .error refusal) (settings : Settings) :
    write settings ops = .error refusal := by
  rw [write_eq, h]
  rfl

/-- **The right fault is reported.**  If there is an operation at which the program goes wrong,
by a run of length zero or because more loops are closed than opened up to there, the first of
them is reported, as an empty run if it is one and else as a close bracket without a partner.
If there is none, and not as many loops are closed as opened, the difference is reported, with
the innermost loop that is never closed.  Otherwise the program is written.  The settings do
not matter for any of this. -/
theorem write_reports (settings : Settings) (ops : List Op) :
    (∀ i, FirstFault ops i →
      write settings ops = .error (if EmptyAt ops i then .emptyRun i else .unmatchedClose i)) ∧
    ((∀ i < ops.length, ¬ FaultAt ops i) → ops.count .openLoop ≠ ops.count .closeLoop →
      ∃ i, Innermost ops i ∧ write settings ops =
        .error (.unclosedLoop i (ops.count .openLoop - ops.count .closeLoop))) ∧
    ((∀ i < ops.length, ¬ FaultAt ops i) → ops.count .openLoop = ops.count .closeLoop →
      ∃ text, write settings ops = .ok text) ∧
    ∀ settings' refusal,
      write settings' ops = .error refusal ↔ write settings ops = .error refusal := by
  refine ⟨fun i hi => write_of_error (check_of_firstFault hi) settings, ?_, ?_, ?_⟩
  · intro h hne
    rcases check_of_no_fault h with ⟨heq, -⟩ | ⟨i, hi, -, hcheck⟩
    · exact absurd heq hne
    · exact ⟨i, hi, write_of_error hcheck settings⟩
  · intro h heq
    rcases check_of_no_fault h with ⟨-, hcheck⟩ | ⟨i, -, hlt, -⟩
    · exact ⟨_, write_eq_ok_iff.2 ⟨hcheck, rfl⟩⟩
    · omega
  · intro settings' refusal
    rw [write_eq_error_iff, write_eq_error_iff]

/-- An empty run before a stray close bracket, one behind it, and two loops that are never
closed around one that is. -/
theorem write_reports_one_of_many :
    write {} [.openLoop, .run .inc 0, .closeLoop, .closeLoop] = .error (.emptyRun 1) ∧
      write {} [.closeLoop, .run .inc 0, .openLoop] = .error (.unmatchedClose 0) ∧
      write {} [.openLoop, .output, .openLoop, .openLoop, .closeLoop] =
        .error (.unclosedLoop 2 2) ∧
      ∃ text, write {} [.openLoop, .closeLoop] = .ok text := by
  refine ⟨(write_reports {} _).1 1 (by decide), (write_reports {} _).1 0 (by decide), ?_,
    (write_reports {} _).2.2.1 (by decide) (by decide)⟩
  have hinnermost : Innermost [.openLoop, .output, .openLoop, .openLoop, .closeLoop] 2 := by decide
  obtain ⟨i, hi, hwrite⟩ :=
    (write_reports {} [.openLoop, .output, .openLoop, .openLoop, .closeLoop]).2.1 (by decide)
      (by decide)
  have hle : i ≤ 2 := hinnermost.2 i (List.getElem?_eq_some_iff.1 hi.1.1).1 hi.1
  have hge : 2 ≤ i := hi.2 2 (by decide) hinnermost.1
  cases Nat.le_antisymm hle hge
  exact hwrite

end Go

end Brainfuck
