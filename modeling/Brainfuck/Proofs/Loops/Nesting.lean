import Brainfuck.Loops

/-!
# Well nested stretches of a program

The brackets of a program are matched with a stack.  This file says what the
stack stands for: between two matched brackets lies a *well nested* stretch, and
so does everything between two brackets that are open one after the other.

* `Nested` — the stretches in which every bracket has its partner, as a grammar.
* `Pending` — what has been read when a given stack of brackets is open.
* `Encloses` — the open bracket at `i` and the close bracket at `j` have a well
  nested stretch between them.
* `encloses_of_mem_pairs` — the matching only pairs such brackets.
* `pairsFrom_nested` — a well nested stretch is matched within itself and leaves
  the stack as it was.
-/

namespace Brainfuck

/-- Is this one of the two loop brackets? -/
def Op.isBracket : Op → Bool
  | .openLoop | .closeLoop => true
  | _ => false

theorem Op.eq_of_isBracket {op : Op} (h : op.isBracket = true) :
    op = .openLoop ∨ op = .closeLoop := by
  cases op with
  | openLoop => exact .inl rfl
  | closeLoop => exact .inr rfl
  | _ => cases h

/-- The operation is not a run of length zero. -/
def Op.Counted (op : Op) : Prop := op.count? ≠ some 0

namespace Loops

/-! ## The grammar -/

/-- A stretch of a program in which every bracket has its partner. -/
inductive Nested : List Op → Prop
  /-- Nothing at all. -/
  | nil : Nested []
  /-- An operation that is no bracket, and the rest. -/
  | plain {op : Op} {rest : List Op} : op.isBracket = false → Nested rest → Nested (op :: rest)
  /-- A loop, and the rest. -/
  | loop {body rest : List Op} : Nested body → Nested rest →
      Nested (.openLoop :: (body ++ .closeLoop :: rest))

theorem Nested.append {u v : List Op} (hu : Nested u) (hv : Nested v) : Nested (u ++ v) := by
  induction hu with
  | nil => exact hv
  | plain hop _ ih => exact .plain hop ih
  | loop hbody _ _ ih =>
      rw [List.cons_append, List.append_assoc, List.cons_append]
      exact .loop hbody ih

theorem Nested.singleton {op : Op} (hop : op.isBracket = false) : Nested [op] :=
  .plain hop .nil

theorem Nested.single_loop {body : List Op} (hbody : Nested body) :
    Nested (.openLoop :: (body ++ [.closeLoop])) :=
  .loop hbody .nil

theorem Nested.replicate {op : Op} (hop : op.isBracket = false) (n : Nat) :
    Nested (List.replicate n op) := by
  induction n with
  | zero => exact .nil
  | succ n ih => exact .plain hop ih

/-! ## What the stack stands for -/

/-- `Pending read stack`: after `read` the brackets at the indices `stack` are
open, the innermost first.  Close brackets with nothing open have been passed
over. -/
inductive Pending : List Op → List Nat → Prop
  | nil : Pending [] []
  /-- A bracket that opens joins the stack. -/
  | opened {read : List Op} {stack : List Nat} : Pending read stack →
      Pending (read ++ [.openLoop]) (read.length :: stack)
  /-- A well nested stretch leaves the stack alone. -/
  | nested {read stretch : List Op} {stack : List Nat} : Pending read stack → Nested stretch →
      Pending (read ++ stretch) stack
  /-- A close bracket without a partner. -/
  | stray {read : List Op} : Pending read [] → Pending (read ++ [.closeLoop]) []

/-- Behind the innermost open bracket lies a well nested stretch, and before it
the outer brackets are open. -/
theorem Pending.innermost {read : List Op} {start : Nat} {outer : List Nat}
    (h : Pending read (start :: outer)) :
    ∃ before body, read = before ++ .openLoop :: body ∧ before.length = start ∧ Nested body ∧
      Pending before outer := by
  generalize hstack : start :: outer = stack at h
  induction h with
  | nil => cases hstack
  | @opened read stack hread _ =>
      cases hstack
      exact ⟨read, [], rfl, rfl, .nil, hread⟩
  | nested _ hstretch ih =>
      obtain ⟨before, body, rfl, hlen, hbody, hbefore⟩ := ih hstack
      refine ⟨before, body ++ _, ?_, hlen, hbody.append hstretch, hbefore⟩
      rw [List.append_assoc, List.cons_append]
  | stray _ _ => cases hstack

/-- A close bracket takes the innermost open bracket off the stack. -/
theorem Pending.closed {read : List Op} {start : Nat} {outer : List Nat}
    (h : Pending read (start :: outer)) : Pending (read ++ [.closeLoop]) outer := by
  obtain ⟨before, body, rfl, -, hbody, hbefore⟩ := h.innermost
  rw [List.append_assoc, List.cons_append]
  exact hbefore.nested hbody.single_loop

/-! ## Matched brackets enclose a well nested stretch -/

/-- The brackets at `i` and `j` open and close a well nested stretch of `ops`. -/
def Encloses (ops : List Op) (i j : Nat) : Prop :=
  ∃ before body after, ops = before ++ .openLoop :: (body ++ .closeLoop :: after) ∧ Nested body ∧
    before.length = i ∧ i + body.length + 1 = j

theorem Encloses.getElem?_left {ops : List Op} {i j : Nat} (h : Encloses ops i j) :
    ops[i]? = some .openLoop := by
  obtain ⟨before, body, after, rfl, -, rfl, -⟩ := h
  simp

theorem Encloses.getElem?_right {ops : List Op} {i j : Nat} (h : Encloses ops i j) :
    ops[j]? = some .closeLoop := by
  obtain ⟨before, body, after, rfl, -, rfl, rfl⟩ := h
  rw [List.getElem?_append_right (by omega),
    show before.length + body.length + 1 - before.length = body.length + 1 by omega,
    List.getElem?_cons_succ, List.getElem?_append_right (Nat.le_refl _), Nat.sub_self]
  rfl

/-- An operation that is no bracket is passed over. -/
theorem pairsFrom_plain {op : Op} (hop : op.isBracket = false) (ip : Nat) (stack : List Nat)
    (rest : List Op) : pairsFrom ip stack (op :: rest) = pairsFrom (ip + 1) stack rest := by
  cases op with
  | openLoop => cases hop
  | closeLoop => cases hop
  | _ => rfl

theorem pairsFrom_open (ip : Nat) (stack : List Nat) (rest : List Op) :
    pairsFrom ip stack (.openLoop :: rest) = pairsFrom (ip + 1) (ip :: stack) rest := rfl

theorem pairsFrom_close (ip start : Nat) (outer : List Nat) (rest : List Op) :
    pairsFrom ip (start :: outer) (.closeLoop :: rest) =
      (start, ip) :: pairsFrom (ip + 1) outer rest := rfl

theorem pairsFrom_stray (ip : Nat) (rest : List Op) :
    pairsFrom ip [] (.closeLoop :: rest) = pairsFrom (ip + 1) [] rest := rfl

/-- Induction along the matching of brackets: one case for each thing that can
stand in front of the rest of a program. -/
@[elab_as_elim]
theorem bracketInduction {motive : Nat → List Nat → List Op → Prop}
    (nil : ∀ ip stack, motive ip stack [])
    (plain : ∀ ip stack op rest, op.isBracket = false → motive (ip + 1) stack rest →
      motive ip stack (op :: rest))
    (opened : ∀ ip stack rest, motive (ip + 1) (ip :: stack) rest →
      motive ip stack (.openLoop :: rest))
    (stray : ∀ ip rest, motive (ip + 1) [] rest → motive ip [] (.closeLoop :: rest))
    (closed : ∀ ip start outer rest, motive (ip + 1) outer rest →
      motive ip (start :: outer) (.closeLoop :: rest))
    (ip : Nat) (stack : List Nat) (ops : List Op) : motive ip stack ops := by
  induction ops generalizing ip stack with
  | nil => exact nil ip stack
  | cons op rest ih =>
      cases op with
      | openLoop => exact opened ip stack rest (ih _ _)
      | closeLoop =>
          cases stack with
          | nil => exact stray ip rest (ih _ _)
          | cons start outer => exact closed ip start outer rest (ih _ _)
      | _ => exact plain ip stack _ rest rfl (ih _ _)

theorem encloses_of_mem_pairsFrom {read : List Op} {stack : List Nat} {rest : List Op} {i j : Nat}
    (hread : Pending read stack) (h : (i, j) ∈ pairsFrom read.length stack rest) :
    Encloses (read ++ rest) i j := by
  -- what has been read grows by one operation at a time; `Pending` is the invariant
  induction rest generalizing read stack with
  | nil => cases h
  | cons op rest ih =>
      have hgrow : read ++ op :: rest = (read ++ [op]) ++ rest := by simp
      have hlen : (read ++ [op]).length = read.length + 1 := by simp
      by_cases hop : op.isBracket = false
      · rw [pairsFrom_plain hop, ← hlen] at h
        rw [hgrow]
        exact ih (hread.nested (.singleton hop)) h
      · cases op with
        | openLoop =>
            rw [pairsFrom_open, ← hlen] at h
            rw [hgrow]
            exact ih hread.opened h
        | closeLoop =>
            cases stack with
            | nil =>
                rw [pairsFrom_stray, ← hlen] at h
                rw [hgrow]
                exact ih hread.stray h
            | cons start outer =>
                rw [pairsFrom_close, ← hlen, List.mem_cons] at h
                rcases h with h | h
                · obtain ⟨before, body, hsplit, hstart, hbody, -⟩ := hread.innermost
                  cases h
                  refine ⟨before, body, rest, ?_, hbody, hstart, ?_⟩
                  · rw [hsplit, List.append_assoc, List.cons_append]
                  · rw [hsplit, List.length_append, List.length_cons]
                    omega
                · rw [hgrow]
                  exact ih hread.closed h
        | _ => exact absurd rfl hop

/-- Brackets that are matched have a well nested stretch between them. -/
theorem encloses_of_mem_pairs {ops : List Op} {i j : Nat} (h : (i, j) ∈ pairs ops) :
    Encloses ops i j :=
  encloses_of_mem_pairsFrom Pending.nil h

/-! ## A well nested stretch is matched within itself -/

theorem pairsFrom_nested {stretch : List Op} (h : Nested stretch) (ip : Nat) (stack : List Nat)
    (rest : List Op) :
    pairsFrom ip stack (stretch ++ rest) =
      pairsFrom ip [] stretch ++ pairsFrom (ip + stretch.length) stack rest := by
  induction h generalizing ip stack rest with
  | nil => rfl
  | @plain op stretch hop _ ih =>
      rw [List.cons_append, pairsFrom_plain hop, pairsFrom_plain hop, ih, List.length_cons,
        show ip + 1 + stretch.length = ip + (stretch.length + 1) by omega]
  | @loop body stretch _ _ ihbody ih =>
      have hlen : ip + 1 + body.length + 1 + stretch.length =
          ip + (.openLoop :: (body ++ .closeLoop :: stretch)).length := by
        rw [List.length_cons, List.length_append, List.length_cons]
        omega
      rw [List.cons_append, List.append_assoc, List.cons_append, pairsFrom_open, ihbody,
        pairsFrom_close, ih, pairsFrom_open, ihbody, pairsFrom_close, hlen, List.append_assoc,
        List.cons_append]

end Loops

end Brainfuck
