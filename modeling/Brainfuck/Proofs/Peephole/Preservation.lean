import Brainfuck.Peephole
import Brainfuck.Proofs.Abbreviation.Simulation

/-!
# Shortening a program does not change what it does

`shorten` replaces each loop `[-]` by one operation, so every operation behind such a
loop has a smaller index than before and every jump across one is shorter.

* `Peephole.pieces`: the shortened program, each operation with what it replaces.
* `Peephole.newIndex`: where an operation of the program has gone.
* `Peephole.run_shorten`: the two programs are seen to do the same.

Nothing is assumed of the program: its brackets may be unbalanced, its counts may be
zero, and the surroundings may refuse any call.
-/

namespace Brainfuck.Peephole

open Machine Abbreviation

/-- The shortened program, each operation with the operations it replaces. -/
def pieces : List Op → List Piece
  | [] => []
  | .openLoop :: .run .dec 1 :: .closeLoop :: rest =>
      ⟨.clear, [.openLoop, .run .dec 1, .closeLoop]⟩ :: pieces rest
  | op :: rest => ⟨op, [op]⟩ :: pieces rest

/-- The index in the shortened program of what replaces the operation at an index. -/
def newIndex : List Op → Nat → Nat
  | [], i => i
  | .openLoop :: .run .dec 1 :: .closeLoop :: rest, i =>
      if i < 3 then 0 else newIndex rest (i - 3) + 1
  | _ :: rest, i => if i < 1 then 0 else newIndex rest (i - 1) + 1

theorem short_pieces (ops : List Op) : short (pieces ops) = shorten ops := by
  induction ops using shorten.induct with
  | case1 => rfl
  | case2 rest ih => simp only [pieces, shorten, short, List.map_cons] at ih ⊢; rw [ih]
  | case3 op rest hne ih =>
      rw [pieces.eq_3 _ _ hne, shorten.eq_3 _ _ hne, ← ih]
      rfl

theorem long_pieces (ops : List Op) : long (pieces ops) = ops := by
  induction ops using shorten.induct with
  | case1 => rfl
  | case2 rest ih => simp only [pieces, long, List.flatMap_cons] at ih ⊢; rw [ih]; rfl
  | case3 op rest hne ih =>
      rw [pieces.eq_3 _ _ hne]
      simp only [long, List.flatMap_cons] at ih ⊢
      rw [ih]
      rfl

theorem exact_of_mem_pieces (ops : List Op) : ∀ p ∈ pieces ops, p.Exact := by
  induction ops using shorten.induct with
  | case1 => nofun
  | case2 rest ih =>
      rw [pieces]
      exact List.forall_mem_cons.2 ⟨.clear, ih⟩
  | case3 op rest hne ih =>
      rw [pieces.eq_3 _ _ hne]
      exact List.forall_mem_cons.2 ⟨.itself op, ih⟩

theorem newIndex_eq (ops : List Op) (i : Nat) : newIndex ops i = pieceAt (pieces ops) i := by
  induction ops using shorten.induct generalizing i with
  | case1 => rfl
  | case2 rest ih =>
      rw [newIndex, pieces, pieceAt, ih]
      rfl
  | case3 op rest hne ih =>
      rw [newIndex.eq_3 _ _ _ hne, pieces.eq_3 _ _ hne, pieceAt, ih]
      rfl

/-- What is seen of a run, with the operations of the program named by where they have
gone. -/
def relabelled (ops : List Op) (o : Observation) : Observation :=
  { o with fault? := o.fault?.map (relabel (newIndex ops)) }

theorem eq_relabelled {ops : List Op} {o o' : Observation} (h : SeenAlike (pieces ops) o' o) :
    o' = relabelled ops o := by
  have hindex : newIndex ops = pieceAt (pieces ops) := funext (newIndex_eq ops)
  have hptr := h.ptr (.inl (exact_of_mem_pieces ops))
  rw [relabelled, hindex, ← h.fault, h.tape, h.console, hptr]

/-- **A program and its shortened form are seen to do the same.** Without a limit one
ends if and only if the other does, with the same tape, pointer and console and with the
same fault up to the index it names.  Under a limit both end; the shortened program does
the same as well if the limit does not stop the program, and otherwise it has written,
flushed and read at least as much. -/
theorem run_shorten (ops : List Op) (size : Nat) (around : Surroundings) :
    (∀ o', Observed ⟨size, none⟩ (shorten ops) around o' ↔
      ∃ o, Observed ⟨size, none⟩ ops around o ∧ o' = relabelled ops o) ∧
    ∀ limit,
      (∃ o, Observed ⟨size, some limit⟩ ops around o) ∧
      (∃ o', Observed ⟨size, some limit⟩ (shorten ops) around o') ∧
      ∀ o o', Observed ⟨size, some limit⟩ ops around o →
        Observed ⟨size, some limit⟩ (shorten ops) around o' →
          (o.fault? ≠ some (.stepLimit limit) → o' = relabelled ops o) ∧
          (o.fault? = some (.stepLimit limit) → o.console.Extends o'.console) := by
  have hsound : ∀ p ∈ pieces ops, p.Sound := fun p hp => .exact (exact_of_mem_pieces ops p hp)
  rw [← short_pieces]
  constructor
  · intro o'
    constructor
    · intro h
      obtain ⟨o, ho, halike⟩ := observed_long_of_short hsound h
      rw [long_pieces] at ho
      exact ⟨o, ho, eq_relabelled halike⟩
    · rintro ⟨o, ho, rfl⟩
      rw [← long_pieces ops] at ho
      obtain ⟨o', ho', halike⟩ := observed_short_of_long hsound ho nofun
      rwa [← eq_relabelled halike]
  · intro limit
    refine ⟨exists_observed_of_limit _ _ _ _, exists_observed_of_limit _ _ _ _, ?_⟩
    intro o o' ho ho'
    rw [← long_pieces ops] at ho
    constructor
    · intro hlimit
      obtain ⟨o'', ho'', halike⟩ := observed_short_of_long hsound ho
        (by rintro _ ⟨⟩; exact hlimit)
      rw [ho'.unique ho'', eq_relabelled halike]
    · intro hlimit
      obtain ⟨o'', ho'', hextends⟩ := observed_short_of_stepLimit hsound ho hlimit
      rwa [ho'.unique ho'']

end Brainfuck.Peephole
