import Brainfuck.Deque
import Brainfuck.Op

/-!
# Shortening a program

The loop `[-]` counts its cell down to zero.  The pass replaces each such loop by
the one operation that sets the cell to zero.  It goes through the program once
from left to right and does not look again at what it has written.

* `Peephole.shorten` is the pass on lists.
* `Peephole.shortenQueue` is the pass on queues: it takes operations from the front of one
  queue and puts them at the back of another.
* `Peephole.toList_shortenQueue` says that both do the same.
-/

namespace Brainfuck.Peephole

/-- The program with every loop `[-]` replaced by `clear`. -/
def shorten : List Op → List Op
  | [] => []
  | .openLoop :: .run .dec 1 :: .closeLoop :: rest => .clear :: shorten rest
  | op :: rest => op :: shorten rest

/-- How many loops the pass replaces. -/
def replacements : List Op → Nat
  | [] => 0
  | .openLoop :: .run .dec 1 :: .closeLoop :: rest => replacements rest + 1
  | _ :: rest => replacements rest

/-! ## The pass on queues -/

/-- Is the rest of `[-]` at the front of the queue? -/
def countsDown (source : Deque Op) : Bool :=
  source.get? 0 = some (.run .dec 1) && source.get? 1 = some .closeLoop

/-- Moves a queue to the back of `output`, with every loop `[-]` replaced by `clear`.  The
two operations behind an open bracket are looked at in place. -/
def shortenOnto (output source : Deque Op) : Deque Op :=
  match _h : source.popFront with
  | (none, _) => output
  | (some op, rest) =>
      if op = .openLoop && countsDown rest then
        shortenOnto (output.pushBack .clear) rest.popFront.2.popFront.2
      else shortenOnto (output.pushBack op) rest
termination_by source.length
decreasing_by
  all_goals
    simp only [← Deque.length_toList, Deque.toList_of_popFront _h, Deque.popFront_eq,
      List.length_cons, List.length_tail]
    omega

/-- The queue with every loop `[-]` replaced by `clear`. -/
def shortenQueue (source : Deque Op) : Deque Op := shortenOnto {} source

theorem countsDown_iff {source : Deque Op} :
    countsDown source = true ↔ ∃ rest, source.toList = .run .dec 1 :: .closeLoop :: rest := by
  rw [countsDown, Deque.get?, Deque.get?]
  rcases source.toList with _ | ⟨first, _ | ⟨second, rest⟩⟩ <;> simp

theorem toList_shortenOnto (output source : Deque Op) :
    (shortenOnto output source).toList = output.toList ++ shorten source.toList := by
  induction output, source using shortenOnto.induct with
  | case1 output source rest h =>
      rw [shortenOnto, h]
      rw [Deque.toList_of_popFront_none h, shorten, List.append_nil]
  | case2 output source op rest h hloop ih =>
      rw [Bool.and_eq_true, decide_eq_true_eq] at hloop
      obtain ⟨rfl, hdown⟩ := hloop
      obtain ⟨behind, hbehind⟩ := countsDown_iff.1 hdown
      rw [shortenOnto, h]
      simp only [hdown]
      simp [ih, Deque.toList_of_popFront h, Deque.popFront_eq, hbehind, shorten]
  | case3 output source op rest h hloop ih =>
      have hne : ∀ behind, op = .openLoop →
          rest.toList = .run .dec 1 :: .closeLoop :: behind → False := by
        intro behind hop hbehind
        exact hloop (by simp [hop, countsDown_iff.2 ⟨behind, hbehind⟩])
      rw [shortenOnto, h]
      simp only [hloop]
      simp [ih, Deque.toList_of_popFront h, shorten.eq_3 _ _ hne]

/-- The pass does the same on queues as on lists. -/
theorem toList_shortenQueue (source : Deque Op) :
    (shortenQueue source).toList = shorten source.toList :=
  toList_shortenOnto {} source

end Brainfuck.Peephole
