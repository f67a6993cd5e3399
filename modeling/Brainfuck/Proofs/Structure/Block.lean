import Brainfuck.Proofs.Loops.Matching

/-!
# Programs with their loops as nodes

A balanced program is a sequence of operations and loops, and the body of a loop is such
a sequence again.  As a tree it has no brackets, so nothing has to be matched when it is
carried out.

* `Block` — such a sequence, and `Block.program` — its operations, brackets included.
* `Block.parse?` — the block of a program, read from its last operation to its first.
* `Block.parse?_eq_some_iff` — the block of a program is the one with these operations.
* `Block.balanced_iff_exists_parse?` — the programs that have a block are the balanced
  ones.
-/

namespace Brainfuck

open Loops

/-- A sequence of loops and of operations that are no brackets. -/
inductive Block where
  /-- Nothing at all. -/
  | done
  /-- An operation that is no bracket, and the rest. -/
  | plain (op : Op) (hop : op.isBracket = false) (rest : Block)
  /-- A loop, and the rest. -/
  | loop (body rest : Block)
  deriving DecidableEq, Repr

namespace Block

/-- The operations of a block, with the brackets of its loops. -/
def program : Block → List Op
  | .done => []
  | .plain op _ rest => op :: rest.program
  | .loop body rest => .openLoop :: (body.program ++ .closeLoop :: rest.program)

/-- One block behind the other. -/
def append : Block → Block → Block
  | .done, c => c
  | .plain op hop rest, c => .plain op hop (rest.append c)
  | .loop body rest, c => .loop body (rest.append c)

theorem append_done (b : Block) : b.append .done = b := by
  induction b with
  | done => rfl
  | plain op hop rest ih => rw [append, ih]
  | loop body rest _ ih => rw [append, ih]

theorem program_append (b c : Block) : (b.append c).program = b.program ++ c.program := by
  induction b with
  | done => rfl
  | plain op hop rest ih => simp [append, program, ih]
  | loop body rest _ ih => simp [append, program, ih]

theorem length_loop (body rest : Block) :
    (Block.loop body rest).program.length = body.program.length + 2 + rest.program.length := by
  simp only [program, List.length_cons, List.length_append]
  omega

theorem nested_program (b : Block) : Nested b.program := by
  induction b with
  | done => exact .nil
  | plain op hop rest ih => exact .plain hop ih
  | loop body rest ihbody ih => exact .loop ihbody ih

/-! ## Reading a program -/

/-- Reads operations from the last to the first.  The answer is the block in front of the
first close bracket that has no partner among them, and the block behind each such
bracket; `none` when an open bracket has no partner. -/
def parseFront : List Op → Option (Block × List Block)
  | [] => some (.done, [])
  | op :: rest =>
      match parseFront rest with
      | none => none
      | some (front, behind) =>
          if hop : op.isBracket = false then some (.plain op hop front, behind)
          else if op = .closeLoop then some (.done, front :: behind)
          else
            match behind with
            | [] => none
            | next :: behind => some (.loop front next, behind)

/-- The block of a program; `none` when its brackets do not match. -/
def parse? (ops : List Op) : Option Block :=
  match parseFront ops with
  | some (front, []) => some front
  | _ => none

/-- The operations of blocks, each with the close bracket in front of it. -/
def programBehind (behind : List Block) : List Op :=
  behind.flatMap fun b => .closeLoop :: b.program

variable {ops rest : List Op} {op : Op} {b front next : Block} {behind : List Block}

theorem parseFront_plain (h : parseFront rest = some (front, behind))
    (hop : op.isBracket = false) :
    parseFront (op :: rest) = some (.plain op hop front, behind) := by
  simp [parseFront, h, hop]

theorem parseFront_close (h : parseFront rest = some (front, behind)) :
    parseFront (.closeLoop :: rest) = some (.done, front :: behind) := by
  simp [parseFront, h, Op.isBracket]

theorem parseFront_open (h : parseFront rest = some (front, next :: behind)) :
    parseFront (.openLoop :: rest) = some (.loop front next, behind) := by
  simp [parseFront, h, Op.isBracket]

/-- Nothing is lost by reading. -/
theorem eq_of_parseFront (h : parseFront ops = some (front, behind)) :
    ops = front.program ++ programBehind behind := by
  induction ops generalizing front behind with
  | nil =>
      cases h
      rfl
  | cons op rest ih =>
      cases hrest : parseFront rest with
      | none => simp [parseFront, hrest] at h
      | some p =>
          obtain ⟨front', behind'⟩ := p
          rw [ih hrest]
          cases hop : op.isBracket with
          | false =>
              rw [parseFront_plain hrest hop] at h
              cases h
              rfl
          | true =>
              rcases Op.eq_of_isBracket hop with rfl | rfl
              · cases behind' with
                | nil => simp [parseFront, hrest, Op.isBracket] at h
                | cons next outer =>
                    rw [parseFront_open hrest] at h
                    cases h
                    simp [program, programBehind]
              · rw [parseFront_close hrest] at h
                cases h
                simp [program, programBehind]

/-- The operations of a block are read as that block, whatever stands behind them. -/
theorem parseFront_program_append (b : Block) (h : parseFront rest = some (front, behind)) :
    parseFront (b.program ++ rest) = some (b.append front, behind) := by
  induction b generalizing rest front behind with
  | done => exact h
  | plain op hop tail ih => exact parseFront_plain (ih h) hop
  | loop body tail ihbody ih =>
      have hbody := ihbody (parseFront_close (ih h))
      rw [append_done] at hbody
      rw [program, List.cons_append, List.append_assoc, List.cons_append]
      exact parseFront_open hbody

/-- The block of a program is the one with these operations. -/
theorem parse?_eq_some_iff : parse? ops = some b ↔ b.program = ops := by
  constructor
  · intro h
    unfold parse? at h
    split at h
    · rename_i front hfront
      cases h
      rw [eq_of_parseFront hfront]
      simp [programBehind]
    · cases h
  · rintro rfl
    have h := @parseFront_program_append [] .done [] b rfl
    rw [List.append_nil, append_done] at h
    rw [parse?, h]

/-! ## The programs that have a block -/

/-- When no suffix opens more loops than it closes, reading comes to its end, with a block
behind each bracket that is closed and not opened. -/
theorem exists_parseFront (h : ∀ q, q <:+ ops → q.count .openLoop ≤ q.count .closeLoop) :
    ∃ front behind, parseFront ops = some (front, behind) ∧
      behind.length + ops.count .openLoop = ops.count .closeLoop := by
  induction ops with
  | nil => exact ⟨.done, [], rfl, rfl⟩
  | cons op rest ih =>
      obtain ⟨front, behind, hrest, hcount⟩ := ih fun q hq => h q (hq.trans (List.suffix_cons ..))
      cases hop : op.isBracket with
      | false =>
          refine ⟨_, _, parseFront_plain hrest hop, ?_⟩
          rw [(count_plain hop rest).1, (count_plain hop rest).2, hcount]
      | true =>
          rcases Op.eq_of_isBracket hop with rfl | rfl
          · have hall := h _ List.suffix_rfl
            rw [(count_open rest).1, (count_open rest).2] at hall
            cases behind with
            | nil =>
                -- the bracket would be one that is never closed
                rw [List.length_nil] at hcount
                omega
            | cons next behind =>
                refine ⟨_, _, parseFront_open hrest, ?_⟩
                rw [(count_open rest).1, (count_open rest).2, ← hcount, List.length_cons]
                omega
          · refine ⟨_, _, parseFront_close hrest, ?_⟩
            rw [(count_close rest).1, (count_close rest).2, ← hcount, List.length_cons]
            omega

theorem count_suffix_of_balanced (h : Balanced ops) {q : List Op} (hq : q <:+ ops) :
    q.count .openLoop ≤ q.count .closeLoop := by
  obtain ⟨hclosed, htotal⟩ := h
  obtain ⟨p, rfl⟩ := hq
  have hp := hclosed p (List.prefix_append ..)
  rw [List.count_append, List.count_append] at htotal
  omega

theorem balanced_program (b : Block) : Balanced b.program := (nested_program b).balanced

/-- The programs that have a block are the balanced ones. -/
theorem balanced_iff_exists_parse? : Balanced ops ↔ ∃ b, parse? ops = some b := by
  constructor
  · intro h
    obtain ⟨front, behind, hfront, hcount⟩ := exists_parseFront fun q => count_suffix_of_balanced h
    have hbehind : behind = [] := by
      apply List.eq_nil_of_length_eq_zero
      have htotal := h.2
      omega
    subst hbehind
    exact ⟨front, by rw [parse?, hfront]⟩
  · rintro ⟨b, hb⟩
    rw [← parse?_eq_some_iff.1 hb]
    exact balanced_program b

end Block

end Brainfuck
