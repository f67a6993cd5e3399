import Brainfuck.Machine.Jumps
import Brainfuck.Proofs.Loops.Nesting

/-!
# One matching behind every bracket table

The partner table of a listing and the jump table of the machine are filled from
the same pairs of brackets.  The machine's table exists only when every bracket
has a partner; `unmatched` is the bracket that is reported otherwise.

* `StackBefore` — the stack of open brackets, as it stands before an index.
* `Partners` — two brackets are matched with each other.
* `matching_getElem?` — the partner table holds exactly the partners.
* `unmatched` — the first close bracket with nothing open, else the innermost
  bracket left open.
* `ofProgram_eq` — the jump table exists unless there is such a bracket, and
  `jumps_getD` — it then sends each bracket to its partner.
* `unmatched_eq_none_iff` — there is none exactly when every bracket has a
  partner.
* `balanced_iff_unmatched_eq_none` — and exactly when the brackets are balanced
  by counting.
-/

namespace Brainfuck.Loops

/-! ## Stacks -/

/-- A stack as it stands before the index `ip`: no bracket twice, and none from there on. -/
structure StackBefore (ip : Nat) (stack : List Nat) : Prop where
  lt : ∀ s ∈ stack, s < ip
  nodup : stack.Nodup

theorem stackBefore_nil (ip : Nat) : StackBefore ip [] := ⟨by simp, List.nodup_nil⟩

section

variable {ip start : Nat} {stack outer : List Nat}

theorem StackBefore.succ (h : StackBefore ip stack) : StackBefore (ip + 1) stack :=
  ⟨fun s hs => Nat.lt_succ_of_lt (h.lt s hs), h.nodup⟩

theorem StackBefore.push (h : StackBefore ip stack) : StackBefore (ip + 1) (ip :: stack) := by
  refine ⟨?_, List.nodup_cons.2 ⟨fun hs => Nat.lt_irrefl _ (h.lt ip hs), h.nodup⟩⟩
  intro s hs
  rcases List.mem_cons.1 hs with rfl | hs
  · exact Nat.lt_succ_self _
  · exact Nat.lt_succ_of_lt (h.lt s hs)

theorem StackBefore.pop (h : StackBefore ip (start :: outer)) : StackBefore ip outer :=
  ⟨fun s hs => h.lt s (List.mem_cons_of_mem _ hs), (List.nodup_cons.1 h.nodup).2⟩

end

/-! ## The ends of the pairs -/

/-- The indices that occur in a list of pairs. -/
def endpoints (ps : List (Nat × Nat)) : List Nat :=
  ps.flatMap fun p => [p.1, p.2]

theorem endpoints_cons (i j : Nat) (ps : List (Nat × Nat)) :
    endpoints ((i, j) :: ps) = i :: j :: endpoints ps := rfl

theorem mem_endpoints {ps : List (Nat × Nat)} {k : Nat} :
    k ∈ endpoints ps ↔ ∃ l, (k, l) ∈ ps ∨ (l, k) ∈ ps := by
  induction ps with
  | nil => simp [endpoints]
  | cons p ps ih =>
      obtain ⟨i, j⟩ := p
      simp only [endpoints_cons, List.mem_cons, ih, Prod.mk.injEq]
      constructor
      · rintro (rfl | rfl | ⟨l, h | h⟩)
        · exact ⟨j, .inl (.inl ⟨rfl, rfl⟩)⟩
        · exact ⟨i, .inr (.inl ⟨rfl, rfl⟩)⟩
        · exact ⟨l, .inl (.inr h)⟩
        · exact ⟨l, .inr (.inr h)⟩
      · rintro ⟨l, (⟨rfl, -⟩ | h) | (⟨-, rfl⟩ | h)⟩
        · exact .inl rfl
        · exact .inr (.inr ⟨l, .inl h⟩)
        · exact .inr (.inl rfl)
        · exact .inr (.inr ⟨l, .inr h⟩)

/-- A matched bracket was open before, or stands in what is read. -/
theorem endpoints_pairsFrom {ip : Nat} {stack : List Nat} {ops : List Op} {k : Nat}
    (h : k ∈ endpoints (pairsFrom ip stack ops)) :
    k ∈ stack ∨ (ip ≤ k ∧ k < ip + ops.length) := by
  induction ip, stack, ops using bracketInduction with
  | nil ip stack => cases h
  | plain ip stack op rest hop ih =>
      rw [pairsFrom_plain hop] at h
      rw [List.length_cons]
      rcases ih h with h | h
      · exact .inl h
      · exact .inr (by omega)
  | opened ip stack rest ih =>
      rw [List.length_cons]
      rcases ih h with h | h
      · rcases List.mem_cons.1 h with rfl | h
        · exact .inr (by omega)
        · exact .inl h
      · exact .inr (by omega)
  | stray ip rest ih =>
      rw [List.length_cons]
      rcases ih h with h | h
      · cases h
      · exact .inr (by omega)
  | closed ip start outer rest ih =>
      rw [pairsFrom_close, endpoints_cons] at h
      rw [List.length_cons]
      rcases List.mem_cons.1 h with rfl | h
      · exact .inl (List.mem_cons_self ..)
      · rcases List.mem_cons.1 h with rfl | h
        · exact .inr (by omega)
        · rcases ih h with h | h
          · exact .inl (List.mem_cons_of_mem _ h)
          · exact .inr (by omega)

/-- No bracket is matched twice. -/
theorem nodup_endpoints_pairsFrom {ip : Nat} {stack : List Nat} {ops : List Op}
    (hstack : StackBefore ip stack) : (endpoints (pairsFrom ip stack ops)).Nodup := by
  induction ip, stack, ops using bracketInduction with
  | nil ip stack => exact List.nodup_nil
  | plain ip stack op rest hop ih =>
      rw [pairsFrom_plain hop]
      exact ih hstack.succ
  | opened ip stack rest ih => exact ih hstack.push
  | stray ip rest ih => exact ih (stackBefore_nil _)
  | closed ip start outer rest ih =>
      have hstart : start ∉ outer := (List.nodup_cons.1 hstack.nodup).1
      have hlast : start < ip := hstack.lt start (List.mem_cons_self ..)
      rw [pairsFrom_close, endpoints_cons]
      refine List.nodup_cons.2 ⟨?_, List.nodup_cons.2 ⟨?_, ?_⟩⟩
      · intro h
        rcases List.mem_cons.1 h with h | h
        · omega
        · rcases endpoints_pairsFrom h with h | h
          · exact hstart h
          · omega
      · intro h
        rcases endpoints_pairsFrom h with h | h
        · exact Nat.lt_irrefl _ (hstack.pop.lt ip h)
        · omega
      · exact ih hstack.pop.succ

theorem nodup_endpoints_pairs (ops : List Op) : (endpoints (pairs ops)).Nodup :=
  nodup_endpoints_pairsFrom (stackBefore_nil 0)

/-- Two brackets are matched with each other. -/
def Partners (ops : List Op) (i j : Nat) : Prop :=
  (i, j) ∈ pairs ops ∨ (j, i) ∈ pairs ops

theorem exists_partners_iff {ops : List Op} {i : Nat} :
    (∃ j, Partners ops i j) ↔ i ∈ endpoints (pairs ops) :=
  mem_endpoints.symm

/-! ## Tables that are filled from pairs -/

/-- The table after the pairs have been entered, each in both directions. -/
def enterPairs (table : Jumps) (ps : List (Nat × Nat)) : Jumps :=
  ps.foldl (fun t p => (t.setIfInBounds p.1 p.2).setIfInBounds p.2 p.1) table

theorem size_enterPairs (table : Jumps) (ps : List (Nat × Nat)) :
    (enterPairs table ps).size = table.size := by
  induction ps generalizing table with
  | nil => rfl
  | cons p ps ih => exact (ih _).trans (by simp)

theorem enterPairs_getD_of_notMem {ps : List (Nat × Nat)} {k : Nat} (h : k ∉ endpoints ps)
    (table : Jumps) : (enterPairs table ps).getD k 0 = table.getD k 0 := by
  induction ps generalizing table with
  | nil => rfl
  | cons p ps ih =>
      obtain ⟨i, j⟩ := p
      rw [endpoints_cons, List.mem_cons, List.mem_cons, not_or, not_or] at h
      obtain ⟨hi, hj, hps⟩ := h
      refine (ih hps _).trans ?_
      rw [Array.getD_eq_getD_getElem?, Array.getD_eq_getD_getElem?,
        Array.getElem?_setIfInBounds_ne (Ne.symm hj), Array.getElem?_setIfInBounds_ne (Ne.symm hi)]

theorem enterPairs_getD {ps : List (Nat × Nat)} (hnd : (endpoints ps).Nodup) {table : Jumps}
    (hsize : ∀ k ∈ endpoints ps, k < table.size) {i j : Nat} (h : (i, j) ∈ ps) :
    (enterPairs table ps).getD i 0 = j ∧ (enterPairs table ps).getD j 0 = i := by
  induction ps generalizing table with
  | nil => cases h
  | cons p ps ih =>
      obtain ⟨a, b⟩ := p
      rw [endpoints_cons] at hnd hsize
      obtain ⟨ha, hnd⟩ := List.nodup_cons.1 hnd
      obtain ⟨hb, hnd⟩ := List.nodup_cons.1 hnd
      have hab : a ≠ b := fun h => ha (h ▸ List.mem_cons_self ..)
      rcases List.mem_cons.1 h with h | h
      · -- later pairs do not touch the two entries of the first
        cases h
        have hi : i < table.size := hsize i (List.mem_cons_self ..)
        have hj : j < table.size := hsize j (List.mem_cons_of_mem _ (List.mem_cons_self ..))
        constructor
        · refine (enterPairs_getD_of_notMem (fun h => ha (List.mem_cons_of_mem _ h)) _).trans ?_
          rw [Array.getD_eq_getD_getElem?, Array.getElem?_setIfInBounds_ne (Ne.symm hab),
            Array.getElem?_setIfInBounds_self_of_lt hi]
          rfl
        · refine (enterPairs_getD_of_notMem hb _).trans ?_
          rw [Array.getD_eq_getD_getElem?,
            Array.getElem?_setIfInBounds_self_of_lt (by simpa using hj)]
          rfl
      · refine ih hnd ?_ h
        intro k hk
        simpa using hsize k (List.mem_cons_of_mem _ (List.mem_cons_of_mem _ hk))

theorem foldl_insert_getElem?_of_notMem {ps : List (Nat × Nat)} {k : Nat} (h : k ∉ endpoints ps)
    (table : Std.HashMap Nat Nat) :
    (ps.foldl (fun t p => (t.insert p.1 p.2).insert p.2 p.1) table)[k]? = table[k]? := by
  induction ps generalizing table with
  | nil => rfl
  | cons p ps ih =>
      obtain ⟨i, j⟩ := p
      rw [endpoints_cons, List.mem_cons, List.mem_cons, not_or, not_or] at h
      obtain ⟨hi, hj, hps⟩ := h
      rw [List.foldl_cons, ih hps, Std.HashMap.getElem?_insert, Std.HashMap.getElem?_insert]
      simp [Ne.symm hi, Ne.symm hj]

theorem foldl_insert_getElem? {ps : List (Nat × Nat)} (hnd : (endpoints ps).Nodup)
    (table : Std.HashMap Nat Nat) {i j : Nat} (h : (i, j) ∈ ps ∨ (j, i) ∈ ps) :
    (ps.foldl (fun t p => (t.insert p.1 p.2).insert p.2 p.1) table)[i]? = some j := by
  induction ps generalizing table with
  | nil => simp at h
  | cons p ps ih =>
      obtain ⟨a, b⟩ := p
      rw [endpoints_cons] at hnd
      obtain ⟨ha, hnd⟩ := List.nodup_cons.1 hnd
      obtain ⟨hb, hnd⟩ := List.nodup_cons.1 hnd
      have hab : a ≠ b := fun h => ha (h ▸ List.mem_cons_self ..)
      have hrest : (i, j) ∈ ps ∨ (j, i) ∈ ps →
          (ps.foldl (fun t p => (t.insert p.1 p.2).insert p.2 p.1)
            ((table.insert a b).insert b a))[i]? = some j := ih hnd _
      rw [List.foldl_cons]
      rcases h with h | h
      · rcases List.mem_cons.1 h with h | h
        · cases h
          rw [foldl_insert_getElem?_of_notMem fun h => ha (List.mem_cons_of_mem _ h),
            Std.HashMap.getElem?_insert, if_neg (by simpa using Ne.symm hab),
            Std.HashMap.getElem?_insert_self]
        · exact hrest (.inl h)
      · rcases List.mem_cons.1 h with h | h
        · cases h
          rw [foldl_insert_getElem?_of_notMem hb]
          simp
        · exact hrest (.inr h)

/-- The partner table holds exactly the partners. -/
theorem matching_getElem? {ops : List Op} {i j : Nat} :
    (matching ops)[i]? = some j ↔ Partners ops i j := by
  constructor
  · intro h
    by_cases hi : i ∈ endpoints (pairs ops)
    · obtain ⟨k, hk⟩ := exists_partners_iff.2 hi
      have hik : (matching ops)[i]? = some k :=
        foldl_insert_getElem? (nodup_endpoints_pairs ops) ∅ hk
      cases hik.symm.trans h
      exact hk
    · have hnone : (matching ops)[i]? = none :=
        (foldl_insert_getElem?_of_notMem hi ∅).trans (by simp)
      cases hnone.symm.trans h
  · exact foldl_insert_getElem? (nodup_endpoints_pairs ops) ∅

/-- The pairs are the open brackets with their partners. -/
theorem mem_pairs_iff {ops : List Op} {i j : Nat} :
    (i, j) ∈ pairs ops ↔ ops[i]? = some .openLoop ∧ (matching ops)[i]? = some j := by
  rw [matching_getElem?]
  constructor
  · intro h
    exact ⟨(encloses_of_mem_pairs h).getElem?_left, .inl h⟩
  · rintro ⟨hi, h | h⟩
    · exact h
    · cases hi.symm.trans (encloses_of_mem_pairs h).getElem?_right

theorem matching_contains {ops : List Op} {i : Nat} :
    i ∈ matching ops ↔ i ∈ endpoints (pairs ops) := by
  rw [← exists_partners_iff, Std.HashMap.mem_iff_isSome_getElem?, Option.isSome_iff_exists]
  exact exists_congr fun j => matching_getElem?

/-! ## Brackets without a partner -/

/-- A bracket that is reported because it has no partner. -/
inductive Unmatched where
  /-- A close bracket with nothing open. -/
  | stray (index : Nat)
  /-- The innermost of `depth` brackets that are never closed. -/
  | leftOpen (index depth : Nat)
  deriving DecidableEq, Repr

/-- Where the bracket stands. -/
def Unmatched.index : Unmatched → Nat
  | .stray i | .leftOpen i _ => i

/-- The bracket to report in a program whose first operation has the index `ip`,
when the brackets `stack` are open before it. -/
def unmatchedFrom (ip : Nat) (stack : List Nat) : List Op → Option Unmatched
  | [] =>
      match stack with
      | [] => none
      | start :: _ => some (.leftOpen start stack.length)
  | .openLoop :: rest => unmatchedFrom (ip + 1) (ip :: stack) rest
  | .closeLoop :: rest =>
      match stack with
      | [] => some (.stray ip)
      | _ :: outer => unmatchedFrom (ip + 1) outer rest
  | _ :: rest => unmatchedFrom (ip + 1) stack rest

/-- The first close bracket of a program with nothing open, else the innermost
bracket left open at its end. -/
def unmatched (ops : List Op) : Option Unmatched := unmatchedFrom 0 [] ops

theorem unmatchedFrom_plain {op : Op} (hop : op.isBracket = false) (ip : Nat) (stack : List Nat)
    (rest : List Op) : unmatchedFrom ip stack (op :: rest) = unmatchedFrom (ip + 1) stack rest := by
  cases op with
  | openLoop => cases hop
  | closeLoop => cases hop
  | _ => rfl

theorem unmatchedFrom_open (ip : Nat) (stack : List Nat) (rest : List Op) :
    unmatchedFrom ip stack (.openLoop :: rest) = unmatchedFrom (ip + 1) (ip :: stack) rest := rfl

theorem unmatchedFrom_close (ip start : Nat) (outer : List Nat) (rest : List Op) :
    unmatchedFrom ip (start :: outer) (.closeLoop :: rest) =
      unmatchedFrom (ip + 1) outer rest := rfl

/-- A well nested stretch never holds the bracket to report. -/
theorem unmatchedFrom_nested {stretch : List Op} (h : Nested stretch) (ip : Nat)
    (stack : List Nat) (rest : List Op) :
    unmatchedFrom ip stack (stretch ++ rest) = unmatchedFrom (ip + stretch.length) stack rest := by
  induction h generalizing ip stack rest with
  | nil => rfl
  | @plain op stretch hop _ ih =>
      rw [List.cons_append, unmatchedFrom_plain hop, ih, List.length_cons,
        show ip + 1 + stretch.length = ip + (stretch.length + 1) by omega]
  | @loop body stretch _ _ ihbody ih =>
      rw [List.cons_append, List.append_assoc, List.cons_append, unmatchedFrom_open, ihbody,
        unmatchedFrom_close, ih, List.length_cons, List.length_append, List.length_cons,
        show ip + 1 + body.length + 1 + stretch.length =
          ip + (body.length + (stretch.length + 1) + 1) by omega]

/-- The jump table of the machine is the table of the pairs, unless a bracket has
to be reported. -/
theorem fill_eq (ip : Nat) (stack : List Nat) (table : Jumps) (ops : List Op) :
    Jumps.fill ip stack table ops =
      match unmatchedFrom ip stack ops with
      | some u => .error u.index
      | none => .ok (enterPairs table (pairsFrom ip stack ops)) := by
  induction ip, stack, ops using bracketInduction generalizing table with
  | nil ip stack => cases stack <;> rfl
  | plain ip stack op rest hop ih =>
      rw [unmatchedFrom_plain hop, pairsFrom_plain hop, ← ih]
      cases op with
      | openLoop => cases hop
      | closeLoop => cases hop
      | _ => rfl
  | opened ip stack rest ih => exact ih table
  | stray ip rest _ => rfl
  | closed ip start outer rest ih => exact ih _

/-- The jump table exists unless a bracket has to be reported. -/
theorem ofProgram_eq (ops : List Op) :
    Jumps.ofProgram ops =
      match unmatched ops with
      | some u => .error u.index
      | none => .ok (enterPairs (Array.replicate ops.length 0) (pairs ops)) :=
  fill_eq 0 [] _ ops

theorem ofProgram_eq_error_iff {ops : List Op} {i : Nat} :
    Jumps.ofProgram ops = .error i ↔ ∃ u, unmatched ops = some u ∧ u.index = i := by
  rw [ofProgram_eq]
  cases unmatched ops with
  | none => simp
  | some u => simp

theorem unmatched_of_ofProgram {ops : List Op} {jumps : Jumps}
    (h : Jumps.ofProgram ops = .ok jumps) : unmatched ops = none := by
  rw [ofProgram_eq] at h
  cases hu : unmatched ops with
  | none => rfl
  | some u => rw [hu] at h; cases h

/-- The machine's table is filled exactly when no bracket is unmatched. -/
theorem ofProgram_ok_iff {ops : List Op} :
    (∃ jumps, Jumps.ofProgram ops = .ok jumps) ↔ unmatched ops = none := by
  constructor
  · rintro ⟨jumps, hjumps⟩
    exact unmatched_of_ofProgram hjumps
  · intro h
    rw [ofProgram_eq, h]
    exact ⟨_, rfl⟩

/-- A jump table sends each bracket to its partner. -/
theorem jumps_getD {ops : List Op} {jumps : Jumps} (hjumps : Jumps.ofProgram ops = .ok jumps)
    {i j : Nat} (h : Partners ops i j) : jumps.getD i 0 = j := by
  have hu := unmatched_of_ofProgram hjumps
  rw [ofProgram_eq, hu] at hjumps
  cases hjumps
  have hsize : ∀ k ∈ endpoints (pairs ops), k < (Array.replicate ops.length 0).size := by
    intro k hk
    rw [Array.size_replicate]
    rcases endpoints_pairsFrom hk with hk | hk
    · cases hk
    · omega
  rcases h with h | h
  · exact (enterPairs_getD (nodup_endpoints_pairs ops) hsize h).1
  · exact (enterPairs_getD (nodup_endpoints_pairs ops) hsize h).2

theorem size_of_ofProgram {ops : List Op} {jumps : Jumps}
    (hjumps : Jumps.ofProgram ops = .ok jumps) : jumps.size = ops.length := by
  have hu := unmatched_of_ofProgram hjumps
  rw [ofProgram_eq, hu] at hjumps
  cases hjumps
  rw [size_enterPairs, Array.size_replicate]

/-! ## Every bracket has a partner unless one is reported -/

theorem mem_endpoints_of_unmatchedFrom {ip : Nat} {stack : List Nat} {ops : List Op}
    (h : unmatchedFrom ip stack ops = none) :
    (∀ s ∈ stack, s ∈ endpoints (pairsFrom ip stack ops)) ∧
      ∀ k op, ops[k]? = some op → op.isBracket = true →
        ip + k ∈ endpoints (pairsFrom ip stack ops) := by
  induction ip, stack, ops using bracketInduction with
  | nil ip stack =>
      cases stack with
      | nil => simp
      | cons start outer => cases h
  | plain ip stack op rest hop ih =>
      rw [unmatchedFrom_plain hop] at h
      rw [pairsFrom_plain hop]
      obtain ⟨hstack, hrest⟩ := ih h
      refine ⟨hstack, ?_⟩
      intro k op' hk hop'
      cases k with
      | zero => cases hk; rw [hop] at hop'; cases hop'
      | succ k =>
          rw [show ip + (k + 1) = ip + 1 + k by omega]
          exact hrest k op' hk hop'
  | opened ip stack rest ih =>
      obtain ⟨hstack, hrest⟩ := ih h
      refine ⟨fun s hs => hstack s (List.mem_cons_of_mem _ hs), ?_⟩
      intro k op' hk hop'
      cases k with
      | zero => exact hstack ip (List.mem_cons_self ..)
      | succ k =>
          rw [show ip + (k + 1) = ip + 1 + k by omega]
          exact hrest k op' hk hop'
  | stray ip rest _ => cases h
  | closed ip start outer rest ih =>
      obtain ⟨hstack, hrest⟩ := ih h
      rw [pairsFrom_close, endpoints_cons]
      constructor
      · intro s hs
        rcases List.mem_cons.1 hs with rfl | hs
        · exact List.mem_cons_self ..
        · exact List.mem_cons_of_mem _ (List.mem_cons_of_mem _ (hstack s hs))
      · intro k op' hk hop'
        cases k with
        | zero => exact List.mem_cons_of_mem _ (List.mem_cons_self ..)
        | succ k =>
            rw [show ip + (k + 1) = ip + 1 + k by omega]
            exact List.mem_cons_of_mem _ (List.mem_cons_of_mem _ (hrest k op' hk hop'))

/-- When no bracket has to be reported every bracket has a partner. -/
theorem exists_partner {ops : List Op} (h : unmatched ops = none) {i : Nat} {op : Op}
    (hi : ops[i]? = some op) (hop : op.isBracket = true) : ∃ j, Partners ops i j := by
  have := (mem_endpoints_of_unmatchedFrom h).2 i op hi hop
  rw [Nat.zero_add] at this
  exact exists_partners_iff.2 this

/-- The entry of a bracket in the jump table is the bracket that it encloses a stretch with. -/
theorem exists_jumps_getElem? {ops : List Op} {jumps : Jumps}
    (hjumps : Jumps.ofProgram ops = .ok jumps) {i : Nat} {op : Op} (hi : ops[i]? = some op)
    (hop : op.isBracket = true) :
    ∃ j, jumps[i]? = some j ∧ (Encloses ops i j ∨ Encloses ops j i) := by
  obtain ⟨j, hj⟩ := exists_partner (unmatched_of_ofProgram hjumps) hi hop
  have hlt : i < jumps.size := by
    rw [size_of_ofProgram hjumps]
    exact (List.getElem?_eq_some_iff.1 hi).1
  refine ⟨j, ?_, hj.imp encloses_of_mem_pairs encloses_of_mem_pairs⟩
  rw [← jumps_getD hjumps hj, Array.getElem?_eq_getElem hlt, Array.getD, dif_pos hlt]
  rfl

/-- The reported bracket was open before, or is a bracket of what is read. -/
theorem unmatchedFrom_index {ip : Nat} {stack : List Nat} {ops : List Op} {u : Unmatched}
    (h : unmatchedFrom ip stack ops = some u) :
    u.index ∈ stack ∨ ∃ k op, u.index = ip + k ∧ ops[k]? = some op ∧ op.isBracket = true := by
  have hshift : ∀ {ip : Nat} {op : Op} {rest : List Op},
      (∃ k op', u.index = ip + 1 + k ∧ rest[k]? = some op' ∧ op'.isBracket = true) →
      ∃ k op', u.index = ip + k ∧ (op :: rest)[k]? = some op' ∧ op'.isBracket = true := by
    rintro ip op rest ⟨k, op', hk, hop⟩
    exact ⟨k + 1, op', by omega, hop⟩
  induction ip, stack, ops using bracketInduction with
  | nil ip stack =>
      cases stack with
      | nil => cases h
      | cons start outer => cases h; exact .inl (List.mem_cons_self ..)
  | plain ip stack op rest hop ih =>
      rw [unmatchedFrom_plain hop] at h
      exact (ih h).imp_right hshift
  | opened ip stack rest ih =>
      rcases ih h with hu | hu
      · rcases List.mem_cons.1 hu with hu | hu
        · exact .inr ⟨0, .openLoop, hu, rfl, rfl⟩
        · exact .inl hu
      · exact .inr (hshift hu)
  | stray ip rest _ => cases h; exact .inr ⟨0, .closeLoop, rfl, rfl, rfl⟩
  | closed ip start outer rest ih =>
      rcases ih h with hu | hu
      · exact .inl (List.mem_cons_of_mem _ hu)
      · exact .inr (hshift hu)

/-- The reported bracket is not matched. -/
theorem index_notMem_endpoints {ip : Nat} {stack : List Nat} {ops : List Op} {u : Unmatched}
    (hstack : StackBefore ip stack) (h : unmatchedFrom ip stack ops = some u) :
    u.index ∉ endpoints (pairsFrom ip stack ops) := by
  induction ip, stack, ops using bracketInduction with
  | nil ip stack => simp [pairsFrom, endpoints]
  | plain ip stack op rest hop ih =>
      rw [unmatchedFrom_plain hop] at h
      rw [pairsFrom_plain hop]
      exact ih hstack.succ h
  | opened ip stack rest ih => exact ih hstack.push h
  | stray ip rest _ =>
      cases h
      rw [pairsFrom_stray]
      intro hu
      rcases endpoints_pairsFrom hu with hu | hu
      · cases hu
      · exact absurd hu.1 (Nat.not_succ_le_self ip)
  | closed ip start outer rest ih =>
      have hstart : start ∉ outer := (List.nodup_cons.1 hstack.nodup).1
      have hlast : start < ip := hstack.lt start (List.mem_cons_self ..)
      rw [unmatchedFrom_close] at h
      have hrest := ih hstack.pop.succ h
      rw [pairsFrom_close, endpoints_cons, List.mem_cons, List.mem_cons, not_or, not_or]
      -- the reported bracket is still open or comes later, so it is neither of these two
      rcases unmatchedFrom_index h with hu | ⟨k, -, hu, -⟩
      · have := hstack.pop.lt _ hu
        exact ⟨fun hs => hstart (hs ▸ hu), by omega, hrest⟩
      · exact ⟨by omega, by omega, hrest⟩

/-- No bracket has to be reported exactly when every bracket has a partner. -/
theorem unmatched_eq_none_iff {ops : List Op} :
    unmatched ops = none ↔
      ∀ i op, ops[i]? = some op → op.isBracket = true → ∃ j, Partners ops i j := by
  constructor
  · exact fun h i op hi hop => exists_partner h hi hop
  · intro h
    cases hu : unmatched ops with
    | none => rfl
    | some u =>
        exfalso
        refine index_notMem_endpoints (stackBefore_nil 0) hu ?_
        rcases unmatchedFrom_index hu with hs | ⟨k, op, hk, hop, hb⟩
        · cases hs
        · rw [Nat.zero_add] at hk
          exact exists_partners_iff.1 (h _ op (hk ▸ hop) hb)

/-! ## Balance by counting -/

/-- No prefix closes more loops than it opens, and at the end all are closed. -/
def Balanced (ops : List Op) : Prop :=
  (∀ p, p <+: ops → p.count .closeLoop ≤ p.count .openLoop) ∧
    ops.count .openLoop = ops.count .closeLoop

theorem count_plain {op : Op} (hop : op.isBracket = false) (ops : List Op) :
    (op :: ops).count .openLoop = ops.count .openLoop ∧
      (op :: ops).count .closeLoop = ops.count .closeLoop := by
  cases op with
  | openLoop => cases hop
  | closeLoop => cases hop
  | _ => exact ⟨List.count_cons_of_ne (by simp), List.count_cons_of_ne (by simp)⟩

theorem count_open (ops : List Op) :
    (.openLoop :: ops).count .openLoop = ops.count .openLoop + 1 ∧
      (.openLoop :: ops).count .closeLoop = ops.count .closeLoop :=
  ⟨List.count_cons_self, List.count_cons_of_ne (by simp)⟩

theorem count_close (ops : List Op) :
    (.closeLoop :: ops).count .openLoop = ops.count .openLoop ∧
      (.closeLoop :: ops).count .closeLoop = ops.count .closeLoop + 1 :=
  ⟨List.count_cons_of_ne (by simp), List.count_cons_self⟩

/-- A prefix that closes too much is not empty. -/
theorem exists_prefix_cons {op : Op} {rest : List Op} {n : Nat} :
    (∃ p, p <+: op :: rest ∧ p.count .openLoop + n < p.count .closeLoop) ↔
      ∃ q, q <+: rest ∧ (op :: q).count .openLoop + n < (op :: q).count .closeLoop := by
  constructor
  · rintro ⟨p, hp, hlt⟩
    rcases List.prefix_cons_iff.1 hp with rfl | ⟨q, rfl, hq⟩
    · exact absurd hlt (Nat.not_lt_zero _)
    · exact ⟨q, hq, hlt⟩
  · rintro ⟨q, hq, hlt⟩
    exact ⟨op :: q, List.cons_prefix_cons.2 ⟨rfl, hq⟩, hlt⟩

/-- A close bracket has nothing to close exactly when some prefix closes more than
was open and it opens. -/
theorem stray_iff {ip : Nat} {stack : List Nat} {ops : List Op} :
    (∃ i, unmatchedFrom ip stack ops = some (.stray i)) ↔
      ∃ p, p <+: ops ∧ p.count .openLoop + stack.length < p.count .closeLoop := by
  induction ip, stack, ops using bracketInduction with
  | nil ip stack =>
      constructor
      · rintro ⟨i, hi⟩
        cases stack <;> cases hi
      · rintro ⟨p, hp, hlt⟩
        rw [List.prefix_nil.1 hp] at hlt
        exact absurd hlt (Nat.not_lt_zero _)
  | plain ip stack op rest hop ih =>
      rw [unmatchedFrom_plain hop, ih, exists_prefix_cons]
      simp only [(count_plain hop _).1, (count_plain hop _).2]
  | opened ip stack rest ih =>
      rw [unmatchedFrom_open, ih, exists_prefix_cons]
      refine exists_congr fun q => and_congr_right fun _ => ?_
      rw [(count_open q).1, (count_open q).2, List.length_cons]
      omega
  | stray ip rest _ =>
      refine ⟨fun _ => ?_, fun _ => ⟨ip, rfl⟩⟩
      exact ⟨[.closeLoop], List.cons_prefix_cons.2 ⟨rfl, List.nil_prefix⟩, Nat.zero_lt_one⟩
  | closed ip start outer rest ih =>
      rw [unmatchedFrom_close, ih, exists_prefix_cons]
      refine exists_congr fun q => and_congr_right fun _ => ?_
      rw [(count_close q).1, (count_close q).2, List.length_cons]
      omega

theorem unmatched_stray_iff {ops : List Op} :
    (∃ i, unmatched ops = some (.stray i)) ↔
      ∃ p, p <+: ops ∧ p.count .openLoop < p.count .closeLoop := by
  rw [unmatched, stray_iff]
  simp

/-- How many loops are open at the end. -/
def Unmatched.depth : Unmatched → Nat
  | .stray _ => 0
  | .leftOpen _ d => d

/-- Without a stray close bracket the loops left open are those opened and not
closed. -/
theorem count_of_not_stray {ip : Nat} {stack : List Nat} {ops : List Op}
    (h : ∀ i, unmatchedFrom ip stack ops ≠ some (.stray i)) :
    ops.count .openLoop + stack.length =
      ops.count .closeLoop + (unmatchedFrom ip stack ops).elim 0 Unmatched.depth := by
  induction ip, stack, ops using bracketInduction with
  | nil ip stack => cases stack <;> rfl
  | plain ip stack op rest hop ih =>
      rw [unmatchedFrom_plain hop] at h ⊢
      rw [(count_plain hop rest).1, (count_plain hop rest).2]
      exact ih h
  | opened ip stack rest ih =>
      have := ih h
      rw [List.length_cons] at this
      rw [unmatchedFrom_open, (count_open rest).1, (count_open rest).2]
      omega
  | stray ip rest _ => exact absurd rfl (h ip)
  | closed ip start outer rest ih =>
      have := ih h
      rw [unmatchedFrom_close, (count_close rest).1, (count_close rest).2, List.length_cons]
      omega

theorem depth_pos {ip : Nat} {stack : List Nat} {ops : List Op} {i d : Nat}
    (h : unmatchedFrom ip stack ops = some (.leftOpen i d)) : 0 < d := by
  induction ip, stack, ops using bracketInduction with
  | nil ip stack =>
      cases stack with
      | nil => cases h
      | cons start outer => cases h; exact Nat.succ_pos _
  | plain ip stack op rest hop ih =>
      rw [unmatchedFrom_plain hop] at h
      exact ih h
  | opened ip stack rest ih => exact ih h
  | stray ip rest _ => cases h
  | closed ip start outer rest ih => exact ih h

/-- The brackets are balanced by counting exactly when none has to be reported. -/
theorem balanced_iff_unmatched_eq_none {ops : List Op} : Balanced ops ↔ unmatched ops = none := by
  constructor
  · rintro ⟨hpre, htotal⟩
    have hnot : ∀ i, unmatchedFrom 0 [] ops ≠ some (.stray i) := by
      intro i hi
      obtain ⟨p, hp, hlt⟩ := unmatched_stray_iff.1 ⟨i, hi⟩
      exact Nat.not_lt.2 (hpre p hp) hlt
    have hcount := count_of_not_stray hnot
    cases hu : unmatched ops with
    | none => rfl
    | some u =>
        rw [unmatched] at hu
        rw [hu, htotal] at hcount
        cases u with
        | stray i => exact absurd hu (hnot i)
        | leftOpen i d =>
            have := depth_pos hu
            simp only [List.length_nil, Option.elim_some, Unmatched.depth] at hcount
            omega
  · intro hu
    have hnot : ∀ i, unmatchedFrom 0 [] ops ≠ some (.stray i) := by
      intro i hi
      cases hu.symm.trans hi
    refine ⟨?_, ?_⟩
    · intro p hp
      rw [← Nat.not_lt]
      exact fun hlt => Exists.elim (unmatched_stray_iff.2 ⟨p, hp, hlt⟩) hnot
    · have hcount := count_of_not_stray hnot
      rw [unmatched] at hu
      rw [hu] at hcount
      exact hcount

theorem Nested.balanced {stretch : List Op} (h : Nested stretch) : Balanced stretch := by
  have hstretch := unmatchedFrom_nested h 0 [] []
  rw [List.append_nil] at hstretch
  exact balanced_iff_unmatched_eq_none.2 hstretch

/-- A loop that is opened in a balanced stretch is closed in it: what stands behind its open
bracket closes more loops than it opens. -/
theorem Balanced.count_behind_open {before behind : List Op}
    (h : Balanced (before ++ .openLoop :: behind)) :
    behind.count .openLoop < behind.count .closeLoop := by
  have hbefore := h.1 before (List.prefix_append ..)
  have htotal := h.2
  rw [List.count_append, List.count_append, (count_open _).1, (count_open _).2] at htotal
  omega

end Brainfuck.Loops
