import Brainfuck.Peephole
import Mathlib.Data.List.Infix

/-!
# Programs without a loop to shorten

The pass does not look again at what it has written.  It need not: no loop `[-]` is left,
since none can arise from operations that were not next to each other before.  Nor is
anything lost: with the loops written out again, a program and its shortened form are the
same, and no other program without such loops is the same as they are.

* `Peephole.IsNormal` — there is no loop `[-]` in a program.
* `Peephole.isNormal_shorten` — there is none in a shortened program.
* `Peephole.shorten_of_isNormal` — a program without one is left as it is.
* `Peephole.lengthen` — a program with its loops `[-]` written out.
* `Peephole.shorten_lengthen` — writing them out does not change what is shortened to.
* `Peephole.eq_shorten_iff` — the shortened form is the only normal form of a program.
-/

namespace Brainfuck.Peephole

variable {op : Op} {ops rest : List Op}

/-- The loop `[-]`. -/
def countdown : List Op := [.openLoop, .run .dec 1, .closeLoop]

/-- There is no loop `[-]` in the program. -/
def IsNormal (ops : List Op) : Prop := ¬ countdown <:+: ops

theorem isNormal_cons_iff : IsNormal (op :: ops) ↔ ¬ countdown <+: op :: ops ∧ IsNormal ops := by
  rw [IsNormal, IsNormal, List.infix_cons_iff, not_or]

/-- An operation that is not `clear` at the front of a shortened program stood at the front
before, and the program behind it has been shortened. -/
theorem eq_cons_of_shorten (h : shorten ops = op :: rest) (hop : op ≠ .clear) :
    ∃ rest', ops = op :: rest' ∧ shorten rest' = rest := by
  induction ops using shorten.induct with
  | case1 => cases h
  | case2 rest' _ =>
      rw [shorten] at h
      exact absurd (List.cons.inj h).1.symm hop
  | case3 op' rest' hne _ =>
      rw [shorten.eq_3 _ _ hne] at h
      obtain ⟨rfl, rfl⟩ := List.cons.inj h
      exact ⟨rest', rfl, rfl⟩

/-- A loop `[-]` at the front of a shortened program would have stood there before. -/
theorem not_prefix_shorten
    (hne : ∀ rest', op = .openLoop → rest ≠ .run .dec 1 :: .closeLoop :: rest') :
    ¬ countdown <+: op :: shorten rest := by
  rintro ⟨behind, h⟩
  obtain ⟨rfl, hrest⟩ := List.cons.inj h
  obtain ⟨rest', rfl, hrest'⟩ := eq_cons_of_shorten hrest.symm (by decide)
  obtain ⟨behind', rfl, -⟩ := eq_cons_of_shorten hrest' (by decide)
  exact hne behind' rfl rfl

theorem isNormal_shorten (ops : List Op) : IsNormal (shorten ops) := by
  induction ops using shorten.induct with
  | case1 => simp [IsNormal, shorten, countdown]
  | case2 rest ih =>
      rw [shorten, isNormal_cons_iff]
      exact ⟨by simp [countdown], ih⟩
  | case3 op rest hne ih =>
      rw [shorten.eq_3 _ _ hne, isNormal_cons_iff]
      exact ⟨not_prefix_shorten hne, ih⟩

theorem shorten_of_isNormal (h : IsNormal ops) : shorten ops = ops := by
  induction ops using shorten.induct with
  | case1 => rfl
  | case2 rest _ =>
      refine absurd ?_ (isNormal_cons_iff.1 h).1
      exact List.prefix_append countdown rest
  | case3 op rest hne ih => rw [shorten.eq_3 _ _ hne, ih (isNormal_cons_iff.1 h).2]

theorem shorten_shorten (ops : List Op) : shorten (shorten ops) = shorten ops :=
  shorten_of_isNormal (isNormal_shorten ops)

/-! ## Writing the loops out again -/

/-- The program with a loop `[-]` in place of every `clear`. -/
def lengthen (ops : List Op) : List Op :=
  ops.flatMap fun op => if op = .clear then countdown else [op]

theorem lengthen_clear (rest : List Op) :
    lengthen (.clear :: rest) = .openLoop :: .run .dec 1 :: .closeLoop :: lengthen rest := rfl

theorem lengthen_cons (hop : op ≠ .clear) (rest : List Op) :
    lengthen (op :: rest) = op :: lengthen rest := by
  rw [lengthen, List.flatMap_cons, if_neg hop]
  rfl

theorem lengthen_shorten (ops : List Op) : lengthen (shorten ops) = lengthen ops := by
  induction ops using shorten.induct with
  | case1 => rfl
  | case2 rest ih =>
      rw [shorten, lengthen_clear, ih]
      rfl
  | case3 op rest hne ih =>
      rw [shorten.eq_3 _ _ hne]
      by_cases hop : op = .clear
      · rw [hop, lengthen_clear, lengthen_clear, ih]
      · rw [lengthen_cons hop, lengthen_cons hop, ih]

/-- An operation that opens no loop and stands at the front of a program that has been
written out stood at the front before. -/
theorem eq_cons_of_lengthen (h : lengthen ops = op :: rest) (hop : op ≠ .openLoop) :
    ∃ rest', ops = op :: rest' ∧ lengthen rest' = rest := by
  cases ops with
  | nil => cases h
  | cons op' rest' =>
      by_cases hclear : op' = .clear
      · rw [hclear, lengthen_clear] at h
        exact absurd (List.cons.inj h).1.symm hop
      · rw [lengthen_cons hclear] at h
        obtain ⟨rfl, rfl⟩ := List.cons.inj h
        exact ⟨rest', rfl, rfl⟩

/-- Writing loops out does not change what a program is shortened to: a loop that is written
out is shortened as a whole, since `[-]` does not overlap itself. -/
theorem shorten_lengthen (ops : List Op) : shorten (lengthen ops) = shorten ops := by
  induction ops using shorten.induct with
  | case1 => rfl
  | case2 rest ih =>
      rw [shorten, ← ih]
      rfl
  | case3 op rest hne ih =>
      rw [shorten.eq_3 _ _ hne, ← ih]
      by_cases hop : op = .clear
      · rw [hop, lengthen_clear, shorten]
      · rw [lengthen_cons hop]
        refine shorten.eq_3 _ _ ?_
        intro behind hopen hrest
        obtain ⟨rest', rfl, hrest'⟩ := eq_cons_of_lengthen hrest (by decide)
        obtain ⟨behind', rfl, -⟩ := eq_cons_of_lengthen hrest' (by decide)
        exact hne behind' hopen rfl

/-! ## How much shorter a program becomes -/

/-- The number of places at which a loop `[-]` stands in the program. -/
def occurrences (ops : List Op) : Nat := ops.tails.countP (countdown.isPrefixOf ·)

theorem occurrences_cons (op : Op) (ops : List Op) :
    occurrences (op :: ops) =
      occurrences ops + if countdown.isPrefixOf (op :: ops) then 1 else 0 := by
  rw [occurrences, List.tails_cons, List.countP_cons, occurrences]

/-- The pass replaces as many loops as there are in the program, since none overlaps
another. -/
theorem replacements_eq_occurrences (ops : List Op) : replacements ops = occurrences ops := by
  induction ops using shorten.induct with
  | case1 => rfl
  | case2 rest ih =>
      rw [replacements, ih]
      simp [occurrences_cons, countdown]
  | case3 op rest hne ih =>
      have hnot : ¬ countdown.isPrefixOf (op :: rest) = true := by
        rw [List.isPrefixOf_iff_prefix]
        rintro ⟨behind, h⟩
        obtain ⟨rfl, rfl⟩ := List.cons.inj h
        exact hne behind rfl rfl
      rw [replacements.eq_3 _ _ hne, occurrences_cons, if_neg hnot, ih]
      rfl

theorem length_shorten (ops : List Op) :
    (shorten ops).length + 2 * replacements ops = ops.length := by
  induction ops using shorten.induct with
  | case1 => rfl
  | case2 rest ih =>
      rw [shorten, replacements]
      simp only [List.length_cons]
      omega
  | case3 op rest hne ih =>
      rw [shorten.eq_3 _ _ hne, replacements.eq_3 _ _ hne]
      simp only [List.length_cons]
      omega

/-- **The shortened form is the only normal form of a program.**  Of all programs without a
loop `[-]` it is the one that is the same as the program when such loops are written out.  So
shortening twice changes nothing more, exactly the programs without a loop `[-]` are left as
they are, and two operations are saved for each of these loops. -/
theorem eq_shorten_iff (ops : List Op) :
    (∀ short, short = shorten ops ↔ IsNormal short ∧ lengthen short = lengthen ops) ∧
    shorten (shorten ops) = shorten ops ∧
    (shorten ops = ops ↔ IsNormal ops) ∧
    (shorten ops).length + 2 * occurrences ops = ops.length := by
  refine ⟨fun short => ⟨?_, ?_⟩, shorten_shorten ops, ⟨?_, shorten_of_isNormal⟩, ?_⟩
  · rintro rfl
    exact ⟨isNormal_shorten ops, lengthen_shorten ops⟩
  · rintro ⟨hnormal, hsame⟩
    calc
      short = shorten short := (shorten_of_isNormal hnormal).symm
      _ = shorten (lengthen short) := (shorten_lengthen short).symm
      _ = shorten (lengthen ops) := by rw [hsame]
      _ = shorten ops := shorten_lengthen ops
  · intro h
    rw [← h]
    exact isNormal_shorten ops
  · rw [← replacements_eq_occurrences]
    exact length_shorten ops

end Brainfuck.Peephole
