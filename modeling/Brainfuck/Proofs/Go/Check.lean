import Brainfuck.Go.Program
import Brainfuck.Proofs.Fallible
import Brainfuck.Proofs.Loops.Matching

/-!
# Which programs are written as Go

The check of the Go writer looks for two things at once.  They come apart: a run of
length zero is reported where it stands, and otherwise the check reports the bracket
that every other matching reports.

* `Go.refusal` — how a bracket without a partner is reported.
* `Go.check_of_counted` — the check of a program without empty runs.
* `Go.check_eq_ok_iff` — the programs that are accepted.
-/

namespace Brainfuck.Go

open Loops

/-- The report on a bracket without a partner. -/
def refusal : Unmatched → Refusal
  | .stray i => .unmatchedClose i
  | .leftOpen i depth => .unclosedLoop i depth

theorem checkFrom_plain {op : Op} (hop : op.isBracket = false) (hcounted : op.Counted) (ip : Nat)
    (stack : List Nat) (rest : List Op) :
    checkFrom ip stack (op :: rest) = checkFrom (ip + 1) stack rest := by
  cases op with
  | run kind n => exact if_neg fun hn => hcounted (congrArg some hn)
  | openLoop => cases hop
  | closeLoop => cases hop
  | _ => rfl

/-- Without empty runs the check reports the bracket that has no partner. -/
theorem checkFrom_of_counted {ip : Nat} {stack : List Nat} {ops : List Op}
    (h : ∀ op ∈ ops, op.Counted) :
    checkFrom ip stack ops =
      match unmatchedFrom ip stack ops with
      | none => .ok ()
      | some u => .error (refusal u) := by
  induction ip, stack, ops using bracketInduction with
  | nil ip stack => cases stack <;> rfl
  | plain ip stack op rest hop ih =>
      obtain ⟨hcounted, hrest⟩ := List.forall_mem_cons.1 h
      rw [checkFrom_plain hop hcounted, unmatchedFrom_plain hop, ih hrest]
  | opened ip stack rest ih =>
      rw [checkFrom, unmatchedFrom_open]
      exact ih (List.forall_mem_cons.1 h).2
  | stray ip rest ih => rfl
  | closed ip start outer rest ih =>
      rw [unmatchedFrom_close]
      exact ih (List.forall_mem_cons.1 h).2

/-- A program that is accepted has no empty run. -/
theorem counted_of_checkFrom {ip : Nat} {stack : List Nat} {ops : List Op}
    (h : checkFrom ip stack ops = .ok ()) : ∀ op ∈ ops, op.Counted := by
  induction ip, stack, ops using bracketInduction with
  | nil ip stack => nofun
  | plain ip stack op rest hop ih =>
      have hcounted : op.Counted := by
        intro hzero
        cases op with
        | run kind n =>
            cases hzero
            cases h
        | _ => cases hzero
      rw [checkFrom_plain hop hcounted] at h
      exact List.forall_mem_cons.2 ⟨hcounted, ih h⟩
  | opened ip stack rest ih => exact List.forall_mem_cons.2 ⟨nofun, ih h⟩
  | stray ip rest ih => cases h
  | closed ip start outer rest ih => exact List.forall_mem_cons.2 ⟨nofun, ih h⟩

theorem check_of_counted {ops : List Op} (h : ∀ op ∈ ops, op.Counted) :
    check ops =
      match unmatched ops with
      | none => .ok ()
      | some u => .error (refusal u) :=
  checkFrom_of_counted h

/-- Programs are accepted that have no empty run and no bracket without a partner. -/
theorem check_eq_ok_iff {ops : List Op} :
    check ops = .ok () ↔ (∀ op ∈ ops, op.Counted) ∧ unmatched ops = none := by
  constructor
  · intro h
    have hcounted := counted_of_checkFrom h
    refine ⟨hcounted, ?_⟩
    rw [check_of_counted hcounted] at h
    cases hu : unmatched ops with
    | none => rfl
    | some u => rw [hu] at h; cases h
  · rintro ⟨hcounted, hu⟩
    rw [check_of_counted hcounted, hu]

theorem write_eq (settings : Settings) (ops : List Op) :
    write settings ops =
      (check ops).map fun _ => renderLines settings.indent (lines settings ops) := by
  unfold write
  cases check ops <;> rfl

theorem write_eq_ok_iff {settings : Settings} {ops : List Op} {text : String} :
    write settings ops = .ok text ↔
      check ops = .ok () ∧ text = renderLines settings.indent (lines settings ops) := by
  rw [write_eq, Except.map_eq_ok_iff]
  exact ⟨fun ⟨(), hcheck, htext⟩ => ⟨hcheck, htext.symm⟩,
    fun ⟨hcheck, htext⟩ => ⟨(), hcheck, htext.symm⟩⟩

theorem write_eq_error_iff {settings : Settings} {ops : List Op} {refusal : Refusal} :
    write settings ops = .error refusal ↔ check ops = .error refusal := by
  rw [write_eq, Except.map_eq_error_iff]

end Brainfuck.Go
