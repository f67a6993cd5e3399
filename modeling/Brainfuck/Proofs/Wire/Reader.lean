import Brainfuck.Wire.Varint

/-!
# Readers

A reader takes a value from the front of some bytes.  Readers are put together one behind
the other, and what holds of the parts holds of the whole.

* `Reader.andThen`, `Reader.succeed`, `Reader.fail` — the ways to put readers together.
* `Recovers` — a reader gets a value back from bytes and leaves what stands behind them.
* `Settles` — bytes are just what a reader needs for its answer: with more behind them the
  answer is the same, and with less the reader comes to the end of the buffer.
* `Incremental` — whatever a reader answers, it answers because of such bytes.
* `Incremental.andThen` — two incremental readers one behind the other are one.
* `Incremental.ok_iff`, `Incremental.recovers_andThen_iff` — an incremental reader takes a
  value from just the bytes it gets that value back from, and these can be taken apart.
-/

namespace Brainfuck.Wire

namespace Reader

variable {α β : Type}

/-- Reads a value, and then what stands behind it with a reader that depends on the
value. -/
def andThen (r : Reader α) (f : α → Reader β) : Reader β := fun bytes => do
  let (a, rest) ← r bytes
  f a rest

/-- Takes nothing. -/
def succeed (a : α) : Reader α := fun bytes => .ok (a, bytes)

/-- Finds the bytes malformed, whatever they are. -/
def fail (e : Malformed) : Reader α := fun _ => .error e

theorem andThen_of_ok {r : Reader α} {f : α → Reader β} {bytes rest : List UInt8} {a : α}
    (h : r bytes = .ok (a, rest)) : r.andThen f bytes = f a rest := by
  rw [andThen, h]
  rfl

theorem andThen_of_error {r : Reader α} {f : α → Reader β} {bytes : List UInt8} {e : Malformed}
    (h : r bytes = .error e) : r.andThen f bytes = .error e := by
  rw [andThen, h]
  rfl

end Reader

variable {α β : Type} {r : Reader α} {f : α → Reader β} {a a' : α} {b : β}
  {bytes bytes' used used' rest p : List UInt8} {answer : Except Malformed α}
  {answer' : Except Malformed β} {e : Malformed}

/-! ## Getting a value back -/

/-- The reader gets the value back from the bytes, and leaves what stands behind them. -/
def Recovers (r : Reader α) (bytes : List UInt8) (a : α) : Prop :=
  ∀ rest, r (bytes ++ rest) = .ok (a, rest)

theorem recovers_succeed (a : α) : Recovers (.succeed a) [] a := fun _ => rfl

theorem Recovers.andThen (h : Recovers r bytes a) (h' : Recovers (f a) bytes' b) :
    Recovers (r.andThen f) (bytes ++ bytes') b := by
  intro rest
  rw [List.append_assoc, Reader.andThen_of_ok (h _)]
  exact h' rest

/-! ## The bytes that settle an answer -/

/-- The bytes are just what the reader needs for its answer. -/
structure Settles (r : Reader α) (used : List UInt8) (answer : Except Malformed α) : Prop where
  /-- What stands behind the bytes does not matter. -/
  decided : ∀ rest, r (used ++ rest) = answer.map fun a => (a, rest)
  /-- With less than these bytes the reader has not got its answer yet. -/
  waits : ∀ p, p <+: used → p ≠ used → r p = .error .endOfBuffer

/-- A reader whose answer, whatever it is, is settled by some bytes at the front. -/
def Incremental (r : Reader α) : Prop :=
  ∀ bytes, r bytes ≠ .error .endOfBuffer → ∃ used answer, used <+: bytes ∧ Settles r used answer

theorem settles_nil (h : ∀ rest, r rest = answer.map fun a => (a, rest)) :
    Settles r [] answer := by
  refine ⟨h, ?_⟩
  intro p hp hne
  exact absurd (List.prefix_nil.1 hp) hne

theorem incremental_succeed (a : α) : Incremental (Reader.succeed a) := by
  intro bytes _
  exact ⟨[], .ok a, List.nil_prefix, settles_nil fun _ => rfl⟩

theorem incremental_fail (e : Malformed) : Incremental (Reader.fail e : Reader α) := by
  intro bytes _
  exact ⟨[], .error e, List.nil_prefix, settles_nil fun _ => rfl⟩

/-- What settles an error of the first reader settles it for both. -/
theorem Settles.andThen_error (h : Settles r used (.error e)) (f : α → Reader β) :
    Settles (r.andThen f) used (.error e) := by
  constructor
  · intro rest
    exact Reader.andThen_of_error (h.decided rest)
  · intro p hp hne
    exact Reader.andThen_of_error (h.waits p hp hne)

/-- What settles a value of the first reader, and behind it an answer of the second, settles
that answer. -/
theorem Settles.andThen_ok (h : Settles r used (.ok a)) (h' : Settles (f a) used' answer') :
    Settles (r.andThen f) (used ++ used') answer' := by
  constructor
  · intro rest
    rw [List.append_assoc, Reader.andThen_of_ok (h.decided _)]
    exact h'.decided rest
  · intro p hp hne
    by_cases hused : used <+: p
    · -- the first reader has got its value, and the second one waits
      obtain ⟨q, rfl⟩ := hused
      rw [Reader.andThen_of_ok (h.decided q)]
      apply h'.waits
      · exact (List.prefix_append_right_inj used).1 hp
      · rintro rfl
        exact hne rfl
    · -- the first reader waits
      have hshort : p <+: used := by
        rcases List.prefix_or_prefix_of_prefix hp (List.prefix_append used used') with h | h
        · exact h
        · exact absurd h hused
      apply Reader.andThen_of_error
      apply h.waits p hshort
      rintro rfl
      exact hused List.prefix_rfl

/-- Two incremental readers one behind the other are one. -/
theorem Incremental.andThen (h : Incremental r) (hf : ∀ a, Incremental (f a)) :
    Incremental (r.andThen f) := by
  intro bytes hbytes
  have hfirst : r bytes ≠ .error .endOfBuffer := by
    intro heob
    exact hbytes (Reader.andThen_of_error heob)
  obtain ⟨used, answer, ⟨rest, rfl⟩, hused⟩ := h bytes hfirst
  cases answer with
  | error e => exact ⟨used, .error e, List.prefix_append .., hused.andThen_error f⟩
  | ok a =>
      rw [Reader.andThen_of_ok (hused.decided rest)] at hbytes
      obtain ⟨used', answer', ⟨rest', rfl⟩, hused'⟩ := hf a rest hbytes
      refine ⟨used ++ used', answer', ?_, hused.andThen_ok hused'⟩
      rw [← List.append_assoc]
      exact List.prefix_append ..

/-- Bytes from which an incremental reader gets a value back settle that value. -/
theorem Incremental.settles (h : Incremental r) (hr : Recovers r bytes a) :
    Settles r bytes (.ok a) := by
  have hok : r bytes = .ok (a, []) := by
    rw [← hr [], List.append_nil]
  obtain ⟨used, answer, ⟨rest, rfl⟩, hused⟩ := h bytes (by rw [hok]; nofun)
  have hanswer := hused.decided rest
  rw [hok] at hanswer
  cases answer with
  | error e => cases hanswer
  | ok a' =>
      cases hanswer
      rw [List.append_nil]
      exact hused

/-! ## The bytes of a value -/

theorem recovers_succeed_iff : Recovers (.succeed a) bytes a' ↔ bytes = [] ∧ a = a' := by
  constructor
  · intro h
    have halone := h []
    simp only [Reader.succeed, List.append_nil, Except.ok.injEq, Prod.mk.injEq] at halone
    exact halone.symm
  · rintro ⟨rfl, rfl⟩
    exact recovers_succeed a

theorem not_recovers_fail : ¬ Recovers (.fail e) bytes a := by
  intro h
  cases h []

/-- An incremental reader takes a value from just the bytes it gets that value back from. -/
theorem Incremental.ok_iff (h : Incremental r) :
    r bytes = .ok (a, rest) ↔ ∃ used, bytes = used ++ rest ∧ Recovers r used a := by
  constructor
  · intro hr
    obtain ⟨used, answer, ⟨rest', rfl⟩, hused⟩ := h bytes (by simp [hr])
    rw [hused.decided] at hr
    cases answer with
    | error e => cases hr
    | ok a' =>
        cases hr
        exact ⟨used, rfl, hused.decided⟩
  · rintro ⟨used, rfl, hused⟩
    exact hused rest

/-- The bytes of two readers one behind the other are bytes of the first, followed by bytes
of the second. -/
theorem Incremental.recovers_andThen_iff (h : Incremental r) (hf : ∀ a, Incremental (f a)) :
    Recovers (r.andThen f) bytes b ↔
      ∃ a used used', bytes = used ++ used' ∧ Recovers r used a ∧ Recovers (f a) used' b := by
  constructor
  · intro hboth
    have hok := hboth []
    rw [List.append_nil] at hok
    cases hr : r bytes with
    | error e =>
        rw [Reader.andThen_of_error hr] at hok
        cases hok
    | ok x =>
        obtain ⟨a, rest⟩ := x
        rw [Reader.andThen_of_ok hr, (hf a).ok_iff] at hok
        obtain ⟨used, rfl, hused⟩ := h.ok_iff.1 hr
        obtain ⟨used', rfl, hused'⟩ := hok
        exact ⟨a, used, used', by rw [List.append_nil], hused, hused'⟩
  · rintro ⟨a, used, used', rfl, hused, hused'⟩
    exact hused.andThen hused'

end Brainfuck.Wire
