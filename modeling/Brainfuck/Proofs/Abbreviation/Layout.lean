import Brainfuck.Proofs.Loops.Stack

/-!
# Programs and their abbreviations

One operation can stand for a stretch of a longer program: a run for repetitions
of one instruction, `clear` for the loop `[-]`.  A list of pieces holds both
programs, the short one and the long one, and says which operation of the one
stands for which stretch of the other.

* `Piece`, `short`, `long` — an operation with the stretch it stands for, and the
  two programs of a list of pieces.
* `Piece.Exact`, `Piece.Sound` — the pieces that occur.
* `offset`, `pieceAt` — where the stretch of a piece starts in the long program,
  and the piece an operation of the long program belongs to.
* `partners_long`, `unmatched_long` — the brackets of the long program are matched
  as those of the short one, and the same bracket is reported.
-/

namespace Brainfuck.Abbreviation

open Loops

/-! ## Pieces -/

/-- An operation and the stretch of a longer program that it stands for. -/
structure Piece where
  op : Op
  body : List Op
  deriving DecidableEq, Repr

/-- Pieces that stop where their stretch stops: an operation that stands for itself,
and `clear` for the loop that counts its cell down. -/
inductive Piece.Exact : Piece → Prop
  | itself (op : Op) : Exact ⟨op, [op]⟩
  | clear : Exact ⟨.clear, [.openLoop, .run .dec 1, .closeLoop]⟩

/-- The exact pieces, and runs that stand for their repetitions. -/
inductive Piece.Sound : Piece → Prop
  | exact {p : Piece} : p.Exact → p.Sound
  | repeated (kind : RunKind) {n : UInt32} : n ≠ 0 →
      Sound ⟨.run kind n, List.replicate n.toNat (.run kind 1)⟩

/-- The program of the operations. -/
def short (ps : List Piece) : List Op := ps.map (·.op)

/-- The program of the stretches. -/
def long (ps : List Piece) : List Op := ps.flatMap (·.body)

/-- Where the stretch of the piece `k` starts. -/
def offset (ps : List Piece) (k : Nat) : Nat := (long (ps.take k)).length

/-- The piece in whose stretch the operation `i` of the long program stands. -/
def pieceAt : List Piece → Nat → Nat
  | [], i => i
  | p :: ps, i => if i < p.body.length then 0 else pieceAt ps (i - p.body.length) + 1

/-- Is the stretch free of brackets of its own?  A piece with a bracket is that
bracket. -/
theorem Piece.Sound.shape {p : Piece} (h : p.Sound) :
    (p.op.isBracket = true ∧ p.body = [p.op]) ∨ (p.op.isBracket = false ∧ Nested p.body) := by
  cases h with
  | exact h =>
      cases h with
      | itself op =>
          by_cases hop : op.isBracket = true
          · exact .inl ⟨hop, rfl⟩
          · rw [Bool.not_eq_true] at hop
            exact .inr ⟨hop, .singleton hop⟩
      | clear => exact .inr ⟨rfl, (Nested.singleton rfl).single_loop⟩
  | repeated kind _ => exact .inr ⟨rfl, .replicate rfl _⟩

theorem Piece.Sound.length_pos {p : Piece} (h : p.Sound) : 0 < p.body.length := by
  cases h with
  | exact h => cases h <;> exact Nat.succ_pos _
  | @repeated kind n hn =>
      rw [List.length_replicate]
      refine Nat.pos_of_ne_zero fun h => hn ?_
      exact UInt32.toNat_inj.1 h

/-! ## Offsets -/

section Offsets

variable {ps : List Piece} {p : Piece} {k : Nat}

theorem long_cons (p : Piece) (ps : List Piece) : long (p :: ps) = p.body ++ long ps := rfl

theorem short_cons (p : Piece) (ps : List Piece) : short (p :: ps) = p.op :: short ps := rfl

theorem offset_zero (ps : List Piece) : offset ps 0 = 0 := rfl

theorem offset_cons_succ (p : Piece) (ps : List Piece) (k : Nat) :
    offset (p :: ps) (k + 1) = p.body.length + offset ps k := by
  rw [offset, List.take_succ_cons, long_cons, List.length_append, offset]

theorem offset_succ (hk : ps[k]? = some p) : offset ps (k + 1) = offset ps k + p.body.length := by
  induction ps generalizing k with
  | nil => cases hk
  | cons q ps ih =>
      cases k with
      | zero =>
          cases hk
          rw [offset_cons_succ, offset_zero, offset_zero, Nat.add_comm]
      | succ k => rw [offset_cons_succ, offset_cons_succ, ih hk, Nat.add_assoc]

theorem short_getElem? (ps : List Piece) (k : Nat) : (short ps)[k]? = ps[k]?.map (·.op) :=
  List.getElem?_map ..

theorem long_getElem? (hk : ps[k]? = some p) {d : Nat} (hd : d < p.body.length) :
    (long ps)[offset ps k + d]? = p.body[d]? := by
  induction ps generalizing k with
  | nil => cases hk
  | cons q ps ih =>
      cases k with
      | zero =>
          cases hk
          rw [offset_zero, Nat.zero_add, long_cons, List.getElem?_append_left hd]
      | succ k =>
          rw [offset_cons_succ, long_cons, Nat.add_assoc,
            List.getElem?_append_right (Nat.le_add_right _ _), Nat.add_sub_cancel_left, ih hk]

theorem long_getElem?_of_none (hk : ps[k]? = none) : (long ps)[offset ps k]? = none := by
  rw [offset, List.take_of_length_le (List.getElem?_eq_none_iff.1 hk)]
  exact List.getElem?_eq_none (Nat.le_refl _)

theorem pieceAt_offset (hk : ps[k]? = some p) {d : Nat} (hd : d < p.body.length) :
    pieceAt ps (offset ps k + d) = k := by
  induction ps generalizing k with
  | nil => cases hk
  | cons q ps ih =>
      cases k with
      | zero =>
          cases hk
          rw [offset_zero, Nat.zero_add, pieceAt, if_pos hd]
      | succ k =>
          rw [offset_cons_succ, pieceAt, if_neg (by omega),
            show q.body.length + offset ps k + d - q.body.length = offset ps k + d by omega, ih hk]

end Offsets

/-! ## Brackets -/

/-- The brackets inside of a stretch are matched with each other. -/
theorem mem_pairs_long_of_body {ps : List Piece} {p : Piece} {k : Nat} (hk : ps[k]? = some p)
    (hp : Nested p.body) {ij : Nat × Nat} (h : ij ∈ pairsFrom (offset ps k) [] p.body) :
    ij ∈ pairs (long ps) := by
  have hsplit : long ps = long (ps.take k) ++ (p.body ++ long (ps.drop (k + 1))) := by
    have hlt : k < ps.length := (List.getElem?_eq_some_iff.1 hk).1
    have hget : ps[k] = p := (List.getElem?_eq_some_iff.1 hk).2
    have hdrop : ps.drop k = p :: ps.drop (k + 1) := by
      rw [List.drop_eq_getElem_cons hlt, hget]
    rw [← long_cons, ← hdrop, long, long, long, ← List.flatMap_append, List.take_append_drop]
  rw [pairs, hsplit, pairsFrom_append, Nat.zero_add, pairsFrom_nested hp]
  exact List.mem_append_right _ (List.mem_append_left _ h)

/-- `place` tells where the pieces `ps` start, the first of which has the index `ip`
and starts at `base`. -/
def Places (place : Nat → Nat) (ip base : Nat) (ps : List Piece) : Prop :=
  ∀ k, k ≤ ps.length → place (ip + k) = base + offset ps k

theorem places_offset (ps : List Piece) : Places (offset ps) 0 0 ps := by
  intro k _
  rw [Nat.zero_add, Nat.zero_add]

theorem Places.head {place : Nat → Nat} {ip base : Nat} {ps : List Piece}
    (h : Places place ip base ps) : place ip = base :=
  h 0 (Nat.zero_le _)

theorem Places.tail {place : Nat → Nat} {ip base : Nat} {p : Piece} {ps : List Piece}
    (h : Places place ip base (p :: ps)) : Places place (ip + 1) (base + p.body.length) ps := by
  intro k hk
  rw [show ip + 1 + k = ip + (k + 1) by omega, h (k + 1) (Nat.succ_le_succ hk), offset_cons_succ,
    Nat.add_assoc]

/-- The matching of the long program follows that of the short one. -/
theorem mem_pairsFrom_long {place : Nat → Nat} {ps : List Piece} (hps : ∀ p ∈ ps, p.Sound)
    {ip base : Nat} {stack : List Nat} (hplace : Places place ip base ps) {i j : Nat}
    (h : (i, j) ∈ pairsFrom ip stack (short ps)) :
    (place i, place j) ∈ pairsFrom base (stack.map place) (long ps) := by
  induction ps generalizing ip base stack with
  | nil => cases h
  | cons p ps ih =>
      have hrest := fun q hq => hps q (List.mem_cons_of_mem _ hq)
      have hip := hplace.head
      have hplace' := hplace.tail
      rw [short_cons] at h
      rw [long_cons]
      rcases (hps p (List.mem_cons_self ..)).shape with ⟨hop, hbody⟩ | ⟨hop, hbody⟩
      · rw [hbody] at hplace' ⊢
        rcases Op.eq_of_isBracket hop with hop | hop
        · rw [hop, pairsFrom_open] at h
          rw [hop, List.singleton_append, pairsFrom_open]
          have := ih hrest hplace' h
          rwa [List.map_cons, hip] at this
        · rw [hop] at h ⊢
          cases stack with
          | nil => exact ih hrest hplace' h
          | cons start outer =>
              rw [pairsFrom_close, List.mem_cons] at h
              rw [List.map_cons, List.singleton_append, pairsFrom_close, List.mem_cons]
              rcases h with h | h
              · cases h
                exact .inl (by rw [hip])
              · exact .inr (ih hrest hplace' h)
      · rw [pairsFrom_plain hop] at h
        rw [pairsFrom_nested hbody]
        exact List.mem_append_right _ (ih hrest hplace' h)

/-- Partners of the short program give partners of the long one. -/
theorem partners_long {ps : List Piece} (hps : ∀ p ∈ ps, p.Sound) {i j : Nat}
    (h : Partners (short ps) i j) : Partners (long ps) (offset ps i) (offset ps j) :=
  h.imp (mem_pairsFrom_long hps (places_offset ps)) (mem_pairsFrom_long hps (places_offset ps))

/-- The bracket with its index replaced. -/
def relocate (place : Nat → Nat) : Unmatched → Unmatched
  | .stray i => .stray (place i)
  | .leftOpen i d => .leftOpen (place i) d

theorem index_relocate (place : Nat → Nat) (u : Unmatched) :
    (relocate place u).index = place u.index := by
  cases u <;> rfl

theorem unmatchedFrom_long {place : Nat → Nat} {ps : List Piece} (hps : ∀ p ∈ ps, p.Sound)
    {ip base : Nat} {stack : List Nat} (hplace : Places place ip base ps) :
    unmatchedFrom base (stack.map place) (long ps) =
      (unmatchedFrom ip stack (short ps)).map (relocate place) := by
  induction ps generalizing ip base stack with
  | nil =>
      cases stack with
      | nil => rfl
      | cons start outer =>
          show some (Unmatched.leftOpen (place start) ((start :: outer).map place).length) = _
          rw [List.length_map]
          rfl
  | cons p ps ih =>
      have hrest := fun q hq => hps q (List.mem_cons_of_mem _ hq)
      have hip := hplace.head
      have hplace' := hplace.tail
      rw [short_cons, long_cons]
      rcases (hps p (List.mem_cons_self ..)).shape with ⟨hop, hbody⟩ | ⟨hop, hbody⟩
      · rw [hbody] at hplace' ⊢
        rcases Op.eq_of_isBracket hop with hop | hop
        · rw [hop, List.singleton_append, unmatchedFrom_open, unmatchedFrom_open, ← hip,
            ← List.map_cons]
          rw [← hip] at hplace'
          exact ih hrest hplace'
        · rw [hop, List.singleton_append]
          cases stack with
          | nil => rw [← hip]; rfl
          | cons start outer =>
              rw [List.map_cons, unmatchedFrom_close, unmatchedFrom_close]
              exact ih hrest hplace'
      · rw [unmatchedFrom_plain hop, unmatchedFrom_nested hbody]
        exact ih hrest hplace'

/-- The bracket reported in the long program is the one reported in the short
program. -/
theorem unmatched_long {ps : List Piece} (hps : ∀ p ∈ ps, p.Sound) :
    unmatched (long ps) = (unmatched (short ps)).map (relocate (offset ps)) := by
  have h := @unmatchedFrom_long (offset ps) ps hps 0 0 [] (places_offset ps)
  exact h

end Brainfuck.Abbreviation
