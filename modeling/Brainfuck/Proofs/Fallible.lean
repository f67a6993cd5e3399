import Mathlib.Logic.Basic

/-!
# Computations that can fail

What the success or the failure of a computation says about its parts.  Proofs about computations
in several steps take them apart with these lemmas and do not unfold the steps.

* `Except.bind_eq_ok_iff` — a sequence succeeds if its steps do, one after the other.
* `Except.map_eq_ok_iff`, `Except.map_eq_error_iff` — a result that is changed.
-/

namespace Except

variable {ε α β : Type} {x : Except ε α} {a : α} {b : β} {e : ε}

@[simp] theorem ok_bind (a : α) (f : α → Except ε β) : (ok a >>= f) = f a := rfl

@[simp] theorem error_bind (e : ε) (f : α → Except ε β) : (error e >>= f) = error e := rfl

theorem bind_eq_ok_iff {f : α → Except ε β} :
    (x >>= f) = ok b ↔ ∃ a, x = ok a ∧ f a = ok b := by
  cases x with
  | error e => simp
  | ok a => simp

theorem map_eq_ok_iff {f : α → β} : x.map f = ok b ↔ ∃ a, x = ok a ∧ f a = b := by
  cases x with
  | error e => simp [Except.map]
  | ok a => simp [Except.map]

theorem map_eq_error_iff {f : α → β} : x.map f = error e ↔ x = error e := by
  cases x with
  | error e' => simp [Except.map]
  | ok a => simp [Except.map]

end Except
