import Brainfuck.Proofs.Loops.Stack

/-!
# The matching of brackets, said without a stack

What makes a table the matching of a program, balanced or not, can be said by counting brackets.
The table that is found with a stack has these properties, and no other table has them.

* `between` — the operations strictly between two brackets.
* `Canonical` — the properties: partners are an open and a close bracket around a balanced stretch,
  pairs do not cross, and no open bracket without a partner stands before a close bracket without
  one.
* `canonical_matching` — the matching has them.
* `Canonical.unique` — two tables that have them are the same.
* `canonical_iff` — both together.
-/

namespace Brainfuck.Loops

variable {i j k l : Nat} {op : Op} {ops : List Op} {f g : Nat → Option Nat}

/-! ## Between two brackets -/

/-- The operations strictly between the indices `i` and `j`. -/
def between (ops : List Op) (i j : Nat) : List Op := (ops.take j).drop (i + 1)

theorem between_split (hik : i < k) (hkj : k < j) (hk : ops[k]? = some op) :
    between ops i j = between ops i k ++ op :: between ops k j := by
  have hmiddle : (ops.take j)[k]? = some op := by rw [List.getElem?_take_of_lt hkj, hk]
  obtain ⟨hlt, hget⟩ := List.getElem?_eq_some_iff.1 hmiddle
  have hsplit := List.take_append_drop k (ops.take j)
  rw [List.take_take, Nat.min_eq_left (Nat.le_of_lt hkj), List.drop_eq_getElem_cons hlt,
    hget] at hsplit
  have hlength : i + 1 ≤ (ops.take k).length := by
    have := (List.getElem?_eq_some_iff.1 hk).1
    rw [List.length_take]
    omega
  rw [between, ← hsplit, List.drop_append_of_le_length hlength]
  rfl

theorem Encloses.balanced (h : Encloses ops i j) : Balanced (between ops i j) := by
  obtain ⟨before, body, after, rfl, hbody, rfl, rfl⟩ := h
  have hbetween : between (before ++ .openLoop :: (body ++ .closeLoop :: after)) before.length
      (before.length + body.length + 1) = body := by
    have hops : before ++ .openLoop :: (body ++ .closeLoop :: after) =
        before ++ [.openLoop] ++ body ++ .closeLoop :: after := by simp
    rw [between, hops, List.take_left' (by simp; omega), List.drop_left' (by simp)]
  rw [hbetween]
  exact hbody.balanced

/-- What a close bracket ends is not balanced any more. -/
theorem not_balanced_of_close (hij : i < j) (hjl : j < l) (hj : ops[j]? = some .closeLoop)
    (hinner : Balanced (between ops i j)) : ¬ Balanced (between ops i l) := by
  intro houter
  rw [between_split hij hjl hj] at houter
  have hle := houter.1 (between ops i j ++ [.closeLoop]) ⟨between ops j l, by simp⟩
  have htotal := hinner.2
  rw [List.count_append, List.count_append, (count_close []).1, (count_close []).2] at hle
  simp only [List.count_nil] at hle
  omega

/-- A balanced stretch behind an open bracket inside of a stretch keeps that from being balanced. -/
theorem not_balanced_of_open (hik : i < k) (hkj : k < j) (hk : ops[k]? = some .openLoop)
    (hinner : (between ops k j).count .closeLoop ≤ (between ops k j).count .openLoop) :
    ¬ Balanced (between ops i j) := by
  intro houter
  rw [between_split hik hkj hk] at houter
  exact absurd houter.count_behind_open (Nat.not_lt.2 hinner)

/-! ## Tables of partners -/

/-- A table of partners is the matching of a program as far as counting tells. -/
structure Canonical (ops : List Op) (partner : Nat → Option Nat) : Prop where
  /-- Partners are partners of each other. -/
  symm : ∀ i j, partner i = some j → partner j = some i
  /-- They are an open bracket and, behind it, a close bracket. -/
  brackets : ∀ i j, partner i = some j →
    (i < j ∧ ops[i]? = some .openLoop ∧ ops[j]? = some .closeLoop) ∨
      (j < i ∧ ops[j]? = some .openLoop ∧ ops[i]? = some .closeLoop)
  /-- What stands between them is balanced. -/
  balanced : ∀ i j, partner i = some j → i < j → Balanced (between ops i j)
  /-- Pairs do not cross. -/
  uncrossed : ∀ i j k l, partner i = some j → partner k = some l → i < k → k < j → ¬ j < l
  /-- No open bracket that is left out stands before a close bracket that is left out. -/
  leftOut : ∀ i j, ops[i]? = some .openLoop → partner i = none → ops[j]? = some .closeLoop →
    partner j = none → ¬ i < j

/-- The partner of an open bracket stands behind it. -/
theorem Canonical.of_open (h : Canonical ops f) (hi : ops[i]? = some .openLoop)
    (hj : f i = some j) : i < j ∧ ops[j]? = some .closeLoop ∧ Balanced (between ops i j) := by
  rcases h.brackets i j hj with ⟨hlt, -, hclose⟩ | ⟨-, -, hclose⟩
  · exact ⟨hlt, hclose, h.balanced i j hj hlt⟩
  · cases hi.symm.trans hclose

/-- The partner of a close bracket stands before it. -/
theorem Canonical.of_close (h : Canonical ops f) (hj : ops[j]? = some .closeLoop)
    (hi : f j = some i) : i < j ∧ ops[i]? = some .openLoop ∧ Balanced (between ops i j) := by
  rcases h.brackets j i hi with ⟨-, hopen, -⟩ | ⟨hlt, hopen, -⟩
  · cases hj.symm.trans hopen
  · exact ⟨hlt, hopen, h.balanced i j (h.symm j i hi) hlt⟩

/-- An open bracket has the same partner in both tables, if it has one in both. -/
theorem Canonical.eq_of_open (hf : Canonical ops f) (hg : Canonical ops g)
    (hi : ops[i]? = some .openLoop) (hj : f i = some j) (hl : g i = some l) : j = l := by
  obtain ⟨hij, hclose, hbalanced⟩ := hf.of_open hi hj
  obtain ⟨hil, hclose', hbalanced'⟩ := hg.of_open hi hl
  rcases Nat.lt_trichotomy j l with hlt | heq | hlt
  · exact absurd hbalanced' (not_balanced_of_close hij hlt hclose hbalanced)
  · exact heq
  · exact absurd hbalanced (not_balanced_of_close hil hlt hclose' hbalanced')

/-- So has a close bracket. -/
theorem Canonical.eq_of_close (hf : Canonical ops f) (hg : Canonical ops g)
    (hj : ops[j]? = some .closeLoop) (hi : f j = some i) (hk : g j = some k) : i = k := by
  obtain ⟨hij, hopen, hbalanced⟩ := hf.of_close hj hi
  obtain ⟨hkj, hopen', hbalanced'⟩ := hg.of_close hj hk
  rcases Nat.lt_trichotomy i k with hlt | heq | hlt
  · exact absurd hbalanced (not_balanced_of_open hlt hkj hopen' (Nat.le_of_eq hbalanced'.2.symm))
  · exact heq
  · exact absurd hbalanced' (not_balanced_of_open hlt hij hopen (Nat.le_of_eq hbalanced.2.symm))

/-- Brackets that are partners in one table are not both left out of the other, and if one of them
has a partner there it is the same. -/
theorem Canonical.eq_some_of_lt (hf : Canonical ops f) (hg : Canonical ops g) (hj : f i = some j)
    (hij : i < j) : g i = some j := by
  have hopen : ops[i]? = some .openLoop := by
    rcases hf.brackets i j hj with h | h
    · exact h.2.1
    · omega
  have hclose := (hf.of_open hopen hj).2.1
  cases hi : g i with
  | some l => rw [hf.eq_of_open hg hopen hj hi]
  | none =>
      cases hback : g j with
      | none => exact absurd hij (hg.leftOut i j hopen hi hclose hback)
      | some k =>
          cases hf.eq_of_close hg hclose (hf.symm i j hj) hback
          cases hi.symm.trans (hg.symm j i hback)

theorem Canonical.eq_some (hf : Canonical ops f) (hg : Canonical ops g) (hj : f i = some j) :
    g i = some j := by
  rcases hf.brackets i j hj with ⟨hlt, -⟩ | ⟨hlt, -⟩
  · exact hf.eq_some_of_lt hg hj hlt
  · exact hg.symm j i (hf.eq_some_of_lt hg (hf.symm i j hj) hlt)

/-- No two tables have these properties. -/
theorem Canonical.unique (hf : Canonical ops f) (hg : Canonical ops g) : f = g := by
  funext i
  apply Option.ext
  intro j
  exact ⟨hf.eq_some hg, hg.eq_some hf⟩

/-! ## The matching -/

theorem matching_eq_none_iff : (matching ops)[i]? = none ↔ ∀ j, ¬ Partners ops i j := by
  rw [Option.eq_none_iff_forall_ne_some]
  exact forall_congr' fun j => not_congr matching_getElem?

theorem encloses_of_partners (h : Partners ops i j) (hij : i < j) : Encloses ops i j := by
  rcases h with h | h
  · exact encloses_of_mem_pairs h
  · obtain ⟨before, body, after, -, -, rfl, rfl⟩ := encloses_of_mem_pairs h
    omega

theorem lt_of_mem_pairs (h : (i, j) ∈ pairs ops) : i < j := by
  obtain ⟨before, body, after, -, -, rfl, rfl⟩ := encloses_of_mem_pairs h
  omega

/-- The matching that is found with a stack has the properties. -/
theorem canonical_matching (ops : List Op) : Canonical ops fun i => (matching ops)[i]? := by
  constructor
  case symm =>
    intro i j h
    exact matching_getElem?.2 (matching_getElem?.1 h).symm
  case brackets =>
    intro i j h
    refine (matching_getElem?.1 h).imp ?_ ?_
    · intro hpair
      exact ⟨lt_of_mem_pairs hpair, isOpen_of_mem_pairs hpair, isClose_of_mem_pairs hpair⟩
    · intro hpair
      exact ⟨lt_of_mem_pairs hpair, isOpen_of_mem_pairs hpair, isClose_of_mem_pairs hpair⟩
  case balanced =>
    intro i j h hij
    exact (encloses_of_partners (matching_getElem?.1 h) hij).balanced
  case uncrossed =>
    -- the inner part of the second pair would close what the first does not
    intro i j k l hij hkl hik hkj hjl
    have houter := encloses_of_partners (matching_getElem?.1 hij) (Nat.lt_trans hik hkj)
    have hinner := encloses_of_partners (matching_getElem?.1 hkl) (Nat.lt_trans hkj hjl)
    have hbetween := hinner.balanced
    rw [between_split hkj hjl houter.getElem?_right] at hbetween
    exact not_balanced_of_open hik hkj hinner.getElem?_left
      (hbetween.1 _ (List.prefix_append ..)) houter.balanced
  case leftOut =>
    intro i j hopen hi hclose hj hij
    have hempty := stackAt_of_unpaired hclose (matching_eq_none_iff.1 hj)
    have hmem : i ∈ stackAt ops j :=
      mem_stackAt_iff.2 ⟨hij, hopen, fun k hk => absurd hk (matching_eq_none_iff.1 hi k)⟩
    rw [hempty] at hmem
    cases hmem

/-- **One matching.**  For every program, balanced or not, the table of partners has the
properties of a matching, and any table of indices with these properties is that table. -/
theorem canonical_iff : Canonical ops f ↔ f = fun i => (matching ops)[i]? := by
  constructor
  · intro h
    exact h.unique (canonical_matching ops)
  · rintro rfl
    exact canonical_matching ops

end Brainfuck.Loops
