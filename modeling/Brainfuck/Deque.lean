/-!
# Double-ended queues

A queue is kept as two lists: its front in order and its back in reverse order,
so that both ends can be reached at once.  `Deque.toList` is the queue in order;
every operation is fixed by what it does to that list.
-/

namespace Brainfuck

/-- A sequence that can be extended and shortened at both ends. -/
structure Deque (α : Type) where
  front : List α := []
  back : List α := []

namespace Deque

variable {α : Type}

/-- The elements from first to last. -/
def toList (q : Deque α) : List α := q.front ++ q.back.reverse

/-- The queue of the elements of a list. -/
def ofList (xs : List α) : Deque α := ⟨xs, []⟩

/-- The number of elements. -/
def length (q : Deque α) : Nat := q.front.length + q.back.length

/-- Is there no element? -/
def isEmpty (q : Deque α) : Bool := q.front.isEmpty && q.back.isEmpty

/-- Adds an element behind the last. -/
def pushBack (q : Deque α) (a : α) : Deque α := { q with back := a :: q.back }

/-- Adds an element in front of the first. -/
def pushFront (q : Deque α) (a : α) : Deque α := { q with front := a :: q.front }

/-- Takes the first element away; `none` when there is none. -/
def popFront (q : Deque α) : Option α × Deque α :=
  match q.front with
  | a :: front => (some a, { q with front })
  | [] =>
      match q.back.reverse with
      | a :: front => (some a, ⟨front, []⟩)
      | [] => (none, ⟨[], []⟩)

/-- Takes the last element away; `none` when there is none. -/
def popBack (q : Deque α) : Option α × Deque α :=
  match q.back with
  | a :: back => (some a, { q with back })
  | [] =>
      match q.front.reverse with
      | a :: back => (some a, ⟨[], back⟩)
      | [] => (none, ⟨[], []⟩)

/-- The element `i` places behind the first; `none` when there is none. -/
def get? (q : Deque α) (i : Nat) : Option α := q.toList[i]?

/-- Does `a` occur in the queue? -/
def contains [BEq α] (q : Deque α) (a : α) : Bool := q.front.contains a || q.back.contains a

/-- Do two queues hold the same elements in the same order? -/
def same [BEq α] (p q : Deque α) : Bool := p.toList == q.toList

/-! ## What the operations do to the list -/

@[simp] theorem toList_ofList (xs : List α) : (ofList xs).toList = xs := by
  simp [toList, ofList]

@[simp] theorem length_toList (q : Deque α) : q.toList.length = q.length := by
  simp [toList, length]

@[simp] theorem toList_pushBack (q : Deque α) (a : α) : (q.pushBack a).toList = q.toList ++ [a] := by
  simp [toList, pushBack]

@[simp] theorem toList_pushFront (q : Deque α) (a : α) :
    (q.pushFront a).toList = a :: q.toList := by
  simp [toList, pushFront]

theorem popFront_eq (q : Deque α) : q.popFront.1 = q.toList.head? ∧
    q.popFront.2.toList = q.toList.tail := by
  obtain ⟨front, back⟩ := q
  cases front with
  | cons a front => simp [popFront, toList]
  | nil => cases h : back.reverse <;> simp [popFront, toList, h]

theorem toList_of_popFront {q rest : Deque α} {a : α} (h : q.popFront = (some a, rest)) :
    q.toList = a :: rest.toList := by
  obtain ⟨hhead, htail⟩ := q.popFront_eq
  rw [h] at hhead htail
  obtain ⟨tail, hq⟩ := List.head?_eq_some_iff.1 hhead.symm
  rw [htail, hq, List.tail_cons]

theorem toList_of_popFront_none {q rest : Deque α} (h : q.popFront = (none, rest)) :
    q.toList = [] := by
  obtain ⟨hhead, -⟩ := q.popFront_eq
  rw [h] at hhead
  exact List.head?_eq_none_iff.1 hhead.symm

theorem popBack_eq (q : Deque α) : q.popBack.1 = q.toList.getLast? ∧
    q.popBack.2.toList = q.toList.dropLast := by
  obtain ⟨front, back⟩ := q
  cases back with
  | cons a back => simp [popBack, toList]
  | nil =>
      cases h : front.reverse with
      | nil =>
          have hf : front = [] := by simpa using h
          simp [popBack, toList, hf]
      | cons a back =>
          have hf : front = back.reverse ++ [a] := by
            simpa using congrArg List.reverse h
          simp [popBack, toList, hf]

end Deque

end Brainfuck
