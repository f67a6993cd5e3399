import Brainfuck.Proofs.Loops.Matching

/-!
# The stack of open brackets

While brackets are matched, a stack holds those that are open.  It can be told from the matching
alone: a bracket is on it from where it opens up to where its partner stands, and for good if it
has none.

* `stackAfter` — the stack behind some operations.
* `pairsFrom_append` — a program is matched part by part, the second part with the stack that the
  first leaves.
* `mem_stackAfter_iff` — the open brackets are those opened and not matched yet.
* `mem_stackAt_iff` — at an index, they are those whose partner does not come before it.
* `stackAt_of_unpaired` — where a close bracket has no partner, nothing is open.
-/

namespace Brainfuck.Loops

variable {ip i j k n start : Nat} {stack outer : List Nat} {op : Op} {ops first rest : List Op}

/-! ## The stack behind some operations -/

/-- The brackets that are open behind operations, the first of which has the index `ip`, when
those of `stack` are open before them.  The innermost comes first. -/
def stackAfter (ip : Nat) (stack : List Nat) : List Op → List Nat
  | [] => stack
  | .openLoop :: rest => stackAfter (ip + 1) (ip :: stack) rest
  | .closeLoop :: rest => stackAfter (ip + 1) stack.tail rest
  | _ :: rest => stackAfter (ip + 1) stack rest

theorem stackAfter_plain (hop : op.isBracket = false) (ip : Nat) (stack : List Nat)
    (rest : List Op) : stackAfter ip stack (op :: rest) = stackAfter (ip + 1) stack rest := by
  cases op with
  | openLoop => cases hop
  | closeLoop => cases hop
  | _ => rfl

theorem stackAfter_open (ip : Nat) (stack : List Nat) (rest : List Op) :
    stackAfter ip stack (.openLoop :: rest) = stackAfter (ip + 1) (ip :: stack) rest := rfl

theorem stackAfter_close (ip : Nat) (stack : List Nat) (rest : List Op) :
    stackAfter ip stack (.closeLoop :: rest) = stackAfter (ip + 1) stack.tail rest := rfl

theorem stackAfter_append (ip : Nat) (stack : List Nat) (first rest : List Op) :
    stackAfter ip stack (first ++ rest) =
      stackAfter (ip + first.length) (stackAfter ip stack first) rest := by
  induction first generalizing ip stack with
  | nil => rfl
  | cons op first ih =>
      rw [List.cons_append, List.length_cons, Nat.add_comm first.length 1, ← Nat.add_assoc]
      cases op <;> exact ih _ _

/-- A program is matched part by part. -/
theorem pairsFrom_append (ip : Nat) (stack : List Nat) (first rest : List Op) :
    pairsFrom ip stack (first ++ rest) =
      pairsFrom ip stack first ++
        pairsFrom (ip + first.length) (stackAfter ip stack first) rest := by
  induction ip, stack, first using bracketInduction with
  | nil ip stack => rfl
  | plain ip stack op first hop ih =>
      rw [List.cons_append, pairsFrom_plain hop, pairsFrom_plain hop, stackAfter_plain hop, ih,
        List.length_cons, show ip + 1 + first.length = ip + (first.length + 1) by omega]
  | opened ip stack first ih =>
      rw [List.cons_append, pairsFrom_open, pairsFrom_open, stackAfter_open, ih, List.length_cons,
        show ip + 1 + first.length = ip + (first.length + 1) by omega]
  | stray ip first ih =>
      rw [List.cons_append, pairsFrom_stray, pairsFrom_stray, stackAfter_close, ih,
        List.length_cons, show ip + 1 + first.length = ip + (first.length + 1) by omega]
      rfl
  | closed ip start outer first ih =>
      rw [List.cons_append, pairsFrom_close, pairsFrom_close, stackAfter_close, List.tail_cons, ih,
        List.length_cons, List.cons_append,
        show ip + 1 + first.length = ip + (first.length + 1) by omega]

/-- The partner of an open bracket stands among the operations that are read. -/
theorem bounds_of_mem_pairsFrom (h : (i, j) ∈ pairsFrom ip stack ops) :
    ip ≤ j ∧ j < ip + ops.length := by
  induction ip, stack, ops using bracketInduction with
  | nil ip stack => cases h
  | plain ip stack op rest hop ih =>
      rw [pairsFrom_plain hop] at h
      have := ih h
      rw [List.length_cons]
      omega
  | opened ip stack rest ih =>
      have := ih h
      rw [List.length_cons]
      omega
  | stray ip rest ih =>
      have := ih h
      rw [List.length_cons]
      omega
  | closed ip start outer rest ih =>
      rw [pairsFrom_close, List.mem_cons, Prod.mk.injEq] at h
      rw [List.length_cons]
      rcases h with ⟨-, rfl⟩ | h
      · omega
      · have := ih h
        omega

/-! ## Which brackets are on the stack -/

/-- Among operations, the first of which has the index `ip`, the one at `k` opens a loop. -/
def OpensAt (ip : Nat) (ops : List Op) (k : Nat) : Prop :=
  ip ≤ k ∧ ops[k - ip]? = some .openLoop

theorem opensAt_cons :
    OpensAt ip (op :: rest) k ↔ (k = ip ∧ op = .openLoop) ∨ OpensAt (ip + 1) rest k := by
  unfold OpensAt
  rcases Nat.lt_trichotomy k ip with hlt | rfl | hgt
  · constructor
    · rintro ⟨hle, -⟩
      omega
    · rintro (⟨rfl, -⟩ | ⟨hle, -⟩) <;> omega
  · rw [Nat.sub_self, List.getElem?_cons_zero, Option.some.injEq]
    constructor
    · rintro ⟨-, hop⟩
      exact .inl ⟨rfl, hop⟩
    · rintro (⟨-, hop⟩ | ⟨hle, -⟩)
      · exact ⟨Nat.le_refl k, hop⟩
      · omega
  · rw [show k - ip = k - (ip + 1) + 1 by omega, List.getElem?_cons_succ]
    constructor
    · rintro ⟨-, hk⟩
      exact .inr ⟨hgt, hk⟩
    · rintro (⟨rfl, -⟩ | ⟨-, hk⟩)
      · omega
      · exact ⟨Nat.le_of_lt hgt, hk⟩

theorem stackBefore_stackAfter (h : StackBefore ip stack) (ops : List Op) :
    StackBefore (ip + ops.length) (stackAfter ip stack ops) := by
  induction ip, stack, ops using bracketInduction with
  | nil ip stack => exact h
  | plain ip stack op rest hop ih =>
      rw [stackAfter_plain hop, List.length_cons, Nat.add_comm rest.length 1, ← Nat.add_assoc]
      exact ih h.succ
  | opened ip stack rest ih =>
      rw [List.length_cons, Nat.add_comm rest.length 1, ← Nat.add_assoc]
      exact ih h.push
  | stray ip rest ih =>
      rw [List.length_cons, Nat.add_comm rest.length 1, ← Nat.add_assoc]
      exact ih (stackBefore_nil _)
  | closed ip start outer rest ih =>
      rw [List.length_cons, Nat.add_comm rest.length 1, ← Nat.add_assoc]
      exact ih h.pop.succ

/-- The brackets that are open are those that were open before or are opened, and are not
matched. -/
theorem mem_stackAfter_iff (h : StackBefore ip stack) :
    k ∈ stackAfter ip stack ops ↔
      (k ∈ stack ∨ OpensAt ip ops k) ∧ k ∉ endpoints (pairsFrom ip stack ops) := by
  induction ip, stack, ops using bracketInduction with
  | nil ip stack => simp [stackAfter, pairsFrom, endpoints, OpensAt]
  | plain ip stack op rest hop ih =>
      have hne : op ≠ .openLoop := by
        rintro rfl
        cases hop
      rw [stackAfter_plain hop, pairsFrom_plain hop, ih h.succ, opensAt_cons]
      simp [hne]
  | opened ip stack rest ih =>
      rw [stackAfter_open, pairsFrom_open, ih h.push, opensAt_cons, List.mem_cons]
      simp only [and_true, or_assoc, or_left_comm]
  | stray ip rest ih =>
      rw [stackAfter_close, pairsFrom_stray, List.tail_nil, ih (stackBefore_nil _), opensAt_cons]
      simp
  | closed ip start outer rest ih =>
      have hstart := List.mem_cons_self (a := start) (l := outer)
      have hlast : start < ip := h.lt start hstart
      have hnotMem : start ∉ outer := (List.nodup_cons.1 h.nodup).1
      rw [stackAfter_close, List.tail_cons, pairsFrom_close, endpoints_cons, ih h.pop.succ,
        opensAt_cons]
      simp only [List.mem_cons, not_or, reduceCtorEq, and_false, false_or]
      constructor
      · rintro ⟨hk, hfree⟩
        refine ⟨hk.imp_left .inr, ?_, ?_, hfree⟩
        · rintro rfl
          rcases hk with hk | ⟨hk, -⟩
          · exact hnotMem hk
          · omega
        · rintro rfl
          rcases hk with hk | ⟨hk, -⟩
          · exact Nat.lt_irrefl _ (h.pop.lt k hk)
          · omega
      · rintro ⟨(hk | hk) | hk, hne, -, hfree⟩
        · exact absurd hk hne
        · exact ⟨.inl hk, hfree⟩
        · exact ⟨.inr hk, hfree⟩

/-! ## The stack at an index -/

/-- The brackets that are open when the operation at `n` is reached. -/
def stackAt (ops : List Op) (n : Nat) : List Nat := stackAfter 0 [] (ops.take n)

theorem stackBefore_stackAt (ops : List Op) (n : Nat) : StackBefore n (stackAt ops n) := by
  have h := stackBefore_stackAfter (stackBefore_nil 0) (ops.take n)
  refine ⟨fun s hs => Nat.lt_of_lt_of_le (h.lt s hs) ?_, h.nodup⟩
  rw [Nat.zero_add, List.length_take]
  exact Nat.min_le_left n ops.length

theorem pairs_eq_append (ops : List Op) (n : Nat) :
    pairs ops = pairs (ops.take n) ++
      pairsFrom (ops.take n).length (stackAt ops n) (ops.drop n) := by
  have h := pairsFrom_append 0 [] (ops.take n) (ops.drop n)
  rwa [List.take_append_drop, Nat.zero_add] at h

/-- The operation at an index takes the stack there to the stack behind it. -/
theorem stackAt_succ (h : ops[n]? = some op) :
    stackAt ops (n + 1) = stackAfter n (stackAt ops n) [op] := by
  obtain ⟨hlt, -⟩ := List.getElem?_eq_some_iff.1 h
  rw [stackAt, List.take_add_one, h, stackAfter_append, Nat.zero_add, List.length_take,
    Nat.min_eq_left (Nat.le_of_lt hlt)]
  rfl

theorem isOpen_of_mem_pairs (h : (i, j) ∈ pairs ops) : ops[i]? = some .openLoop :=
  (encloses_of_mem_pairs h).getElem?_left

theorem isClose_of_mem_pairs (h : (i, j) ∈ pairs ops) : ops[j]? = some .closeLoop :=
  (encloses_of_mem_pairs h).getElem?_right

/-- The brackets that are open at an index are those opened before it whose partner, if they have
one, does not come before it. -/
theorem mem_stackAt_iff :
    k ∈ stackAt ops n ↔
      k < n ∧ ops[k]? = some .openLoop ∧ ∀ j, Partners ops k j → n ≤ j := by
  have hopens : OpensAt 0 (ops.take n) k ↔ k < n ∧ ops[k]? = some .openLoop := by
    simp only [OpensAt, Nat.zero_le, true_and, Nat.sub_zero, List.getElem?_take]
    split
    · simp [*]
    · simp [*]
  have hfront {p : Nat × Nat} (hp : p ∈ pairs (ops.take n)) : p ∈ pairs ops := by
    rw [pairs_eq_append ops n]
    exact List.mem_append_left _ hp
  rw [stackAt, mem_stackAfter_iff (stackBefore_nil 0), hopens]
  simp only [List.not_mem_nil, false_or, and_assoc]
  refine and_congr_right fun hk => and_congr_right fun hopen => ?_
  constructor
  · intro hfree j hj
    have hmem := mem_pairs_iff.2 ⟨hopen, matching_getElem?.2 hj⟩
    rw [pairs_eq_append ops n] at hmem
    rcases List.mem_append.1 hmem with hmem | hmem
    · exact absurd (mem_endpoints.2 ⟨j, .inl hmem⟩) hfree
    · have hbounds := bounds_of_mem_pairsFrom hmem
      rw [List.length_take, List.length_drop] at hbounds
      omega
  · intro hpartner hmem
    obtain ⟨j, hj | hj⟩ := mem_endpoints.1 hmem
    · have hbounds := bounds_of_mem_pairsFrom hj
      rw [List.length_take] at hbounds
      have := hpartner j (.inl (hfront hj))
      omega
    · cases hopen.symm.trans (isClose_of_mem_pairs (hfront hj))

/-- A close bracket is the partner of the innermost open bracket. -/
theorem mem_pairs_of_stackAt (hn : ops[n]? = some .closeLoop)
    (hstack : stackAt ops n = start :: outer) : (start, n) ∈ pairs ops := by
  obtain ⟨hlt, hget⟩ := List.getElem?_eq_some_iff.1 hn
  rw [pairs_eq_append ops n, hstack, List.drop_eq_getElem_cons hlt, hget, pairsFrom_close,
    List.length_take, Nat.min_eq_left (Nat.le_of_lt hlt)]
  exact List.mem_append_right _ (List.mem_cons_self ..)

/-- Where a close bracket has no partner, nothing is open. -/
theorem stackAt_of_unpaired (hn : ops[n]? = some .closeLoop) (h : ∀ j, ¬ Partners ops n j) :
    stackAt ops n = [] := by
  cases hstack : stackAt ops n with
  | nil => rfl
  | cons start outer => exact absurd (.inr (mem_pairs_of_stackAt hn hstack)) (h start)

end Brainfuck.Loops
