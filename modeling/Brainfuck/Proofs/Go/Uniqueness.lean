import Brainfuck.Proofs.Go.Reader

/-!
# Programs with the same Go text

A Go text says which program it was written from, except that a cell counts modulo 256: of what
is added to a cell, or subtracted from it, only the remainder is written.

* `Op.WrittenAlike`, `WrittenAlike` — operations and programs that are written alike.
* `Go.writtenAlike_of_statementOf` — operations that are read back as one statement are.
* `Go.lines_congr` — programs that are written alike have the same lines.
* `Go.write_eq_write_iff` — two programs have the same text exactly when they are written alike.
-/

namespace Brainfuck

/-- Operations that are written alike: the same operation, or runs that add to a cell, or runs
that subtract from it, with counts that are equal modulo 256. -/
inductive Op.WrittenAlike : Op → Op → Prop
  | same (op : Op) : WrittenAlike op op
  | inc {n k : UInt32} : n.toNat % 256 = k.toNat % 256 →
      WrittenAlike (.run .inc n) (.run .inc k)
  | dec {n k : UInt32} : n.toNat % 256 = k.toNat % 256 →
      WrittenAlike (.run .dec n) (.run .dec k)

/-- Programs that are written alike: as long as each other, with operations that are written
alike at every place. -/
structure WrittenAlike (a b : List Op) : Prop where
  length_eq : a.length = b.length
  ops : ∀ (i : Nat) (x y : Op), a[i]? = some x → b[i]? = some y → x.WrittenAlike y

namespace Go

variable {a b : List Op} {x y : Op} {n k : UInt32}

/-! ## Statements -/

theorem toUInt8_eq_iff : n.toUInt8 = k.toUInt8 ↔ n.toNat % 256 = k.toNat % 256 := by
  rw [← UInt8.toNat_inj, UInt32.toNat_toUInt8, UInt32.toNat_toUInt8]

theorem toNat_pos_of_counted {kind : RunKind} (h : (Op.run kind n).Counted) : 0 < n.toNat :=
  Nat.pos_of_ne_zero fun hn => h (congrArg some (UInt32.toNat_inj.1 hn))

/-- An operation that is no run is the only one with its statement. -/
theorem eq_of_statementOf (hx : x.count? = none) (h : statementOf x = statementOf y) : x = y := by
  cases x with
  | run kind n => cases hx
  | _ =>
      cases y with
      | run kind n => cases kind <;> cases h
      | _ => simp_all [statementOf]

/-- What is read back as one statement is written alike. -/
theorem writtenAlike_of_statementOf (hx : x.Counted) (hy : y.Counted)
    (h : statementOf x = statementOf y) : x.WrittenAlike y := by
  by_cases hrun : x.count? = none
  · exact eq_of_statementOf hrun h ▸ .same x
  · cases x with
    | run kind n =>
        cases y with
        | run kind' k =>
            cases kind <;> cases kind' <;> simp only [statementOf, reduceCtorEq,
              Statement.move.injEq, Statement.add.injEq, Statement.subtract.injEq,
              toUInt8_eq_iff] at h
            · have hcount : n = k := UInt32.toNat_inj.1 (by omega)
              exact hcount ▸ .same _
            · have := toNat_pos_of_counted hx
              omega
            · have := toNat_pos_of_counted hy
              omega
            · have hcount : n = k := UInt32.toNat_inj.1 (by omega)
              exact hcount ▸ .same _
            · exact .inc h
            · exact .dec h
        | _ => cases kind <;> cases h
    | _ => exact absurd rfl hrun

/-! ## Lines -/

theorem writtenAlike_cons (h : WrittenAlike (x :: a) (y :: b)) :
    x.WrittenAlike y ∧ WrittenAlike a b := by
  refine ⟨h.ops 0 x y rfl rfl, Nat.succ.inj h.length_eq, ?_⟩
  intro i
  exact h.ops (i + 1)

/-- Operations that are written alike have the same lines, and open and close the same. -/
theorem opLines_congr (h : x.WrittenAlike y) (use : Channels) (level : Nat) :
    opLines use level x = opLines use level y ∧ levelAfter level x = levelAfter level y := by
  cases h with
  | same => exact ⟨rfl, rfl⟩
  | inc h => simp [opLines, levelAfter, h]
  | dec h => simp [opLines, levelAfter, h]

theorem body_congr (h : WrittenAlike a b) (use : Channels) (level : Nat) :
    body use level a = body use level b := by
  induction a generalizing b level with
  | nil => rw [List.length_eq_zero_iff.1 h.length_eq.symm]
  | cons x a ih =>
      cases b with
      | nil => cases h.length_eq
      | cons y b =>
          obtain ⟨hop, hrest⟩ := writtenAlike_cons h
          obtain ⟨hlines, hlevel⟩ := opLines_congr hop use level
          rw [body, body, hlines, hlevel, ih hrest]

/-- An operation that is no run occurs in both of two programs that are written alike, or in
neither. -/
theorem contains_congr {op : Op} (hop : op.count? = none) (h : WrittenAlike a b) :
    a.contains op = b.contains op := by
  induction a generalizing b with
  | nil => rw [List.length_eq_zero_iff.1 h.length_eq.symm]
  | cons x a ih =>
      cases b with
      | nil => cases h.length_eq
      | cons y b =>
          obtain ⟨hfirst, hrest⟩ := writtenAlike_cons h
          have hsame : (op == x) = (op == y) := by
            cases op with
            | run kind n => cases hop
            | _ => cases hfirst <;> rfl
          rw [List.contains_cons, List.contains_cons, hsame, ih hrest]

/-- Programs that are written alike have the same lines. -/
theorem lines_congr (h : WrittenAlike a b) (settings : Settings) :
    lines settings a = lines settings b := by
  have huse : Channels.of a = Channels.of b := by
    rw [Channels.of, Channels.of, contains_congr rfl h, contains_congr rfl h]
  rw [lines, lines, huse, body_congr h]

/-! ## Texts -/

theorem writtenAlike_of_statements (ha : ∀ op ∈ a, op.Counted) (hb : ∀ op ∈ b, op.Counted)
    (h : a.map statementOf = b.map statementOf) : WrittenAlike a b := by
  refine ⟨by simpa using congrArg List.length h, ?_⟩
  intro i x y hx hy
  have hplace : (a.map statementOf)[i]? = (b.map statementOf)[i]? := by rw [h]
  rw [List.getElem?_map, List.getElem?_map, hx, hy] at hplace
  exact writtenAlike_of_statementOf (ha x (List.mem_of_getElem? hx))
    (hb y (List.mem_of_getElem? hy)) (Option.some.inj hplace)

/-- Two programs have the same text exactly when they are written alike.  The indentation is
blank, and the name of the package stays on its line. -/
theorem write_eq_write_iff {settings : Settings} {s t : String}
    (hindent : ∀ c ∈ settings.indent.toList, c = '\t' ∨ c = ' ')
    (hpackage : '\n' ∉ settings.packageName.toList)
    (ha : write settings a = .ok s) (hb : write settings b = .ok t) :
    s = t ↔ WrittenAlike a b := by
  obtain ⟨hchecka, hs⟩ := write_eq_ok_iff.1 ha
  obtain ⟨hcheckb, ht⟩ := write_eq_ok_iff.1 hb
  constructor
  · intro hst
    -- what is read back from the one text is both programs' statements
    have hread := (ofText?_of_write ha hindent hpackage).symm.trans
      (hst ▸ ofText?_of_write hb hindent hpackage)
    simp only [Option.some.injEq, Program.mk.injEq, Body.mk.injEq] at hread
    exact writtenAlike_of_statements (check_eq_ok_iff.1 hchecka).1 (check_eq_ok_iff.1 hcheckb).1
      hread.2.1
  · intro h
    rw [hs, ht, lines_congr h]

/-- Adding 257 to a cell is written as adding one is; moving by 257 cells is not written as
moving by one. -/
theorem write_eq_write_iff_of_257 :
    ∃ s t s' t', write {} [.run .inc 1] = .ok s ∧ write {} [.run .inc 257] = .ok t ∧ s = t ∧
      write {} [.run .right 1] = .ok s' ∧ write {} [.run .right 257] = .ok t' ∧ s' ≠ t' := by
  have hwrite : ∀ ops, check ops = .ok () → write {} ops = .ok (renderLines "\t" (lines {} ops)) :=
    fun ops h => write_eq_ok_iff.2 ⟨h, rfl⟩
  have hindent : ∀ c ∈ ({} : Settings).indent.toList, c = '\t' ∨ c = ' ' :=
    List.forall_mem_singleton.2 (.inl rfl)
  have hpackage : '\n' ∉ ({} : Settings).packageName.toList := by decide +kernel
  refine ⟨_, _, _, _, hwrite _ rfl, hwrite _ rfl, ?_, hwrite _ rfl, hwrite _ rfl, ?_⟩
  · refine (write_eq_write_iff hindent hpackage (hwrite _ rfl) (hwrite _ rfl)).2 ⟨rfl, ?_⟩
    intro i x y hx hy
    obtain ⟨hi, rfl⟩ := List.getElem?_eq_some_iff.1 hx
    cases Nat.lt_one_iff.1 hi
    cases hy
    exact .inc rfl
  · intro hst
    have halike := (write_eq_write_iff hindent hpackage (hwrite _ rfl) (hwrite _ rfl)).1 hst
    cases halike.ops 0 _ _ rfl rfl

end Go

end Brainfuck
