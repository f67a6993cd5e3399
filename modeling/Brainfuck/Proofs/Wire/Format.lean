import Brainfuck.Proofs.Wire.Values
import Mathlib.Algebra.Group.Nat.Defs

/-!
# The format of values

What the readers accept, said without them.  A number may have zero groups behind its own
as long as it keeps to the bytes of its width; all else is put together from numbers.

* `padded` — the bytes of a number with some zero groups behind its own.
* `WrittenNumber`, `WrittenOp`, `WrittenOps` — the ways to write a value.
* `writtenNumber_varint`, `writtenOps_flatMap` — what is written is such a way.
* `recovers_varint_iff`, `recovers_op_iff`, `recovers_ops_iff` — a reader gets a value back
  from exactly the bytes the value can be written in.
* `Shortest` — of all these ways the one that is used for writing is the shortest, and no
  other is as short.
-/

namespace Brainfuck.Wire

/-! ## Bytes and truth values -/

section Bytes

variable {α : Type} {f : UInt8 → Reader α} {a : α} {b : UInt8} {bytes back : List UInt8}

theorem recovers_byte_andThen_cons_iff :
    Recovers (readByte.andThen f) (b :: back) a ↔ Recovers (f b) back a := Iff.rfl

/-- A byte is read from the front, and then what stands behind it. -/
theorem recovers_byte_andThen_iff :
    Recovers (readByte.andThen f) bytes a ↔
      ∃ b back, bytes = b :: back ∧ Recovers (f b) back a := by
  constructor
  · intro h
    cases bytes with
    | nil => cases h []
    | cons b back => exact ⟨b, back, rfl, h⟩
  · rintro ⟨b, back, rfl, h⟩
    exact h

theorem recovers_bool_iff {flag : Bool} : Recovers readBool bytes flag ↔ bytes = boolByte flag := by
  constructor
  · intro h
    rw [readBool_eq, recovers_byte_andThen_iff] at h
    obtain ⟨b, back, rfl, hback⟩ := h
    unfold boolOf at hback
    split at hback
    · obtain ⟨rfl, rfl⟩ := recovers_succeed_iff.1 hback
      simp_all [boolByte]
    · split at hback
      · obtain ⟨rfl, rfl⟩ := recovers_succeed_iff.1 hback
        simp_all [boolByte]
      · exact absurd hback not_recovers_fail
  · rintro rfl
    intro rest
    cases flag <;> rfl

end Bytes

/-! ## Padded numbers -/

section Padded

variable {n : Nat}

/-- The byte with its high bit set. -/
def marked (b : UInt8) : UInt8 := (b.toNat % 128 + 128).toUInt8

/-- The bytes of `n` with `k` zero groups behind its own. -/
def padded (n : Nat) : Nat → List UInt8
  | 0 => varint n
  | k + 1 => (varint n).map marked ++ List.replicate k 128 ++ [0]

theorem varint_small (h : n < 128) : varint n = [n.toUInt8] := by
  rw [varint, if_pos h]

theorem varint_large (h : 128 ≤ n) :
    varint n = (n % 128 + 128).toUInt8 :: varint (n / 128) := by
  rw [varint, if_neg (Nat.not_lt.2 h)]

theorem length_varint_pos (n : Nat) : 0 < (varint n).length := by
  by_cases h : n < 128
  · simp [varint_small h]
  · simp [varint_large (Nat.not_lt.1 h)]

theorem length_varint_le {left : Nat} (h : n < 128 ^ (left + 1)) :
    (varint n).length ≤ left + 1 := by
  induction left generalizing n with
  | zero => simp [varint_small h]
  | succ left ih =>
      by_cases hsmall : n < 128
      · simp [varint_small hsmall]
      · have hhigh : n / 128 < 128 ^ (left + 1) := by
          rw [Nat.div_lt_iff_lt_mul (by decide), ← Nat.pow_succ]
          exact h
        rw [varint_large (Nat.not_lt.1 hsmall), List.length_cons]
        exact Nat.succ_le_succ (ih hhigh)

theorem length_padded (n k : Nat) : (padded n k).length = (varint n).length + k := by
  cases k <;> simp [padded]

theorem padded_zero (k : Nat) : padded 0 k = List.replicate k 128 ++ [0] := by
  cases k with
  | zero => simp [padded, varint]
  | succ k => simp [padded, varint, marked, List.replicate_succ]

theorem padded_small (h : n < 128) (k : Nat) :
    padded n (k + 1) = (n + 128).toUInt8 :: padded 0 k := by
  have hmark : marked n.toUInt8 = (n + 128).toUInt8 := by
    have hbyte : n.toUInt8.toNat = n := by simp; omega
    rw [marked, hbyte, Nat.mod_eq_of_lt h]
  rw [padded, varint_small h, List.map_singleton, hmark, padded_zero]
  rfl

theorem padded_large (h : 128 ≤ n) (k : Nat) :
    padded n k = (n % 128 + 128).toUInt8 :: padded (n / 128) k := by
  cases k with
  | zero => exact varint_large h
  | succ k =>
      have hmark : marked (n % 128 + 128).toUInt8 = (n % 128 + 128).toUInt8 := by
        have hbyte : (n % 128 + 128).toUInt8.toNat = n % 128 + 128 := by simp; omega
        rw [marked, hbyte, Nat.add_mod_right, Nat.mod_mod]
      rw [padded, varint_large h, List.map_cons, hmark]
      rfl

/-- The first of padded bytes is all there is, or holds the lowest group of the number. -/
theorem exists_padded_cons_iff {b : UInt8} {bytes : List UInt8} :
    (∃ k, b :: bytes = padded n k) ↔
      (b.toNat < 128 ∧ bytes = [] ∧ n = b.toNat) ∨
        (128 ≤ b.toNat ∧
          ∃ high, n = b.toNat - 128 + 128 * high ∧ ∃ k, bytes = padded high k) := by
  have hb := b.toNat_lt
  constructor
  · rintro ⟨k, hk⟩
    by_cases hn : n < 128
    · cases k with
      | zero =>
          have hbyte : n.toUInt8.toNat = n := by simp; omega
          simp only [padded, varint_small hn, List.cons.injEq] at hk
          obtain ⟨rfl, rfl⟩ := hk
          exact .inl ⟨by omega, rfl, hbyte.symm⟩
      | succ k =>
          have hbyte : (n + 128).toUInt8.toNat = n + 128 := by simp; omega
          rw [padded_small hn, List.cons.injEq] at hk
          obtain ⟨rfl, rfl⟩ := hk
          exact .inr ⟨by omega, 0, by omega, k, rfl⟩
    · have hbyte : (n % 128 + 128).toUInt8.toNat = n % 128 + 128 := by simp; omega
      rw [padded_large (Nat.not_lt.1 hn), List.cons.injEq] at hk
      obtain ⟨rfl, rfl⟩ := hk
      exact .inr ⟨by omega, n / 128, by omega, k, rfl⟩
  · have hback : b.toNat.toUInt8 = b := UInt8.ofNat_toNat
    rintro (⟨hlow, rfl, rfl⟩ | ⟨hhigh, high, rfl, k, rfl⟩)
    · exact ⟨0, by rw [padded, varint_small hlow, hback]⟩
    · by_cases hzero : high = 0
      · -- the groups behind the first are all padding
        subst hzero
        refine ⟨k + 1, ?_⟩
        rw [padded_small (by omega), show b.toNat - 128 + 128 * 0 + 128 = b.toNat by omega, hback]
      · have hlarge : 128 ≤ b.toNat - 128 + 128 * high := by omega
        refine ⟨k, ?_⟩
        rw [padded_large hlarge,
          show (b.toNat - 128 + 128 * high) % 128 + 128 = b.toNat by omega,
          show (b.toNat - 128 + 128 * high) / 128 = high by omega, hback]

end Padded

/-! ## Numbers -/

/-- The bytes are a way to write `n` at a width: padded or not, and within the bytes that
numbers of the width may use. -/
structure WrittenNumber (w : Width) (n : Nat) (bytes : List UInt8) : Prop where
  fits : n < 2 ^ w.bits
  length_le : bytes.length ≤ w.maxBytes
  padded : ∃ k, bytes = padded n k

section Numbers

variable {lastMax left n : Nat} {b : UInt8} {bytes back : List UInt8} {w : Width}

/-- The bytes of a number are its first byte, alone or with the bytes of the higher groups
behind it. -/
theorem recovers_groups_cons_iff :
    Recovers (readGroups lastMax (left + 1)) (b :: back) n ↔
      (b.toNat < 128 ∧ back = [] ∧ n = b.toNat ∧ (left = 0 → n ≤ lastMax)) ∨
        (128 ≤ b.toNat ∧ ∃ high, n = b.toNat - 128 + 128 * high ∧
          Recovers (readGroups lastMax left) back high) := by
  rw [readGroups_succ, recovers_byte_andThen_cons_iff]
  by_cases hb : b.toNat < 128
  · by_cases hlast : left = 0 ∧ lastMax < b.toNat
    · rw [groupOf, if_pos hb, if_pos hlast]
      constructor
      · exact fun h => absurd h not_recovers_fail
      · rintro (⟨-, -, rfl, hle⟩ | ⟨hhigh, -⟩)
        · exact absurd (hle hlast.1) (Nat.not_le.2 hlast.2)
        · exact absurd hb (Nat.not_lt.2 hhigh)
    · rw [groupOf, if_pos hb, if_neg hlast, recovers_succeed_iff]
      constructor
      · rintro ⟨rfl, rfl⟩
        exact .inl ⟨hb, rfl, rfl, fun h => Nat.not_lt.1 fun hlt => hlast ⟨h, hlt⟩⟩
      · rintro (⟨-, rfl, rfl, -⟩ | ⟨hhigh, -⟩)
        · exact ⟨rfl, rfl⟩
        · exact absurd hb (Nat.not_lt.2 hhigh)
  · have hgroups := incremental_readGroups lastMax left
    rw [groupOf, if_neg hb, hgroups.recovers_andThen_iff fun _ => incremental_succeed _]
    simp only [recovers_succeed_iff]
    constructor
    · rintro ⟨high, used, _, rfl, hused, rfl, rfl⟩
      exact .inr ⟨Nat.not_lt.1 hb, high, rfl, by rwa [List.append_nil]⟩
    · rintro (⟨hlow, -⟩ | ⟨-, high, rfl, hback⟩)
      · exact absurd hlow hb
      · exact ⟨high, back, [], (List.append_nil _).symm, hback, rfl, rfl⟩

theorem padded_ne_nil (n k : Nat) : padded n k ≠ [] := by
  have hpos := length_varint_pos n
  have hlength := length_padded n k
  rintro hnil
  rw [hnil, List.length_nil] at hlength
  omega

theorem room_pos (lastMax left : Nat) : 0 < (lastMax + 1) * 128 ^ left :=
  Nat.mul_pos (Nat.succ_pos _) (Nat.pow_pos (by decide))

/-- One byte more is room for 128 times as many numbers. -/
theorem room_succ (lastMax left : Nat) :
    (lastMax + 1) * 128 ^ (left + 1) = (lastMax + 1) * 128 ^ left * 128 := by
  rw [Nat.pow_succ, Nat.mul_assoc]

/-- A number is got back from its padded bytes when there is room for them all and, where
they take all the room, for the last of them. -/
theorem recovers_groups_iff :
    Recovers (readGroups lastMax (left + 1)) bytes n ↔
      n < (lastMax + 1) * 128 ^ left ∧ bytes.length ≤ left + 1 ∧ ∃ k, bytes = padded n k := by
  -- the first byte is taken off on both sides, and with it one byte of the room
  induction bytes generalizing left n with
  | nil =>
      constructor
      · exact fun h => nomatch h []
      · rintro ⟨-, -, k, hk⟩
        exact absurd hk.symm (padded_ne_nil n k)
  | cons b back ih =>
      rw [recovers_groups_cons_iff, exists_padded_cons_iff, List.length_cons]
      cases left with
      | zero =>
          constructor
          · rintro (⟨hb, rfl, rfl, hle⟩ | ⟨-, high, -, hfail⟩)
            · exact ⟨by have := hle rfl; omega, Nat.le_refl _, .inl ⟨hb, rfl, rfl⟩⟩
            · exact absurd hfail not_recovers_fail
          · rintro ⟨hn, hlength, ⟨hb, rfl, rfl⟩ | ⟨-, high, -, k, rfl⟩⟩
            · exact .inl ⟨hb, rfl, rfl, fun _ => by omega⟩
            · have := List.length_pos_iff.2 (padded_ne_nil high k)
              omega
      | succ left =>
          have hpos := room_pos lastMax left
          rw [room_succ]
          constructor
          · rintro (⟨hb, rfl, rfl, -⟩ | ⟨hb, high, rfl, hback⟩)
            · exact ⟨by omega, by simp, .inl ⟨hb, rfl, rfl⟩⟩
            · obtain ⟨hhigh, hlength, hpadded⟩ := ih.1 hback
              have := b.toNat_lt
              exact ⟨by omega, by omega, .inr ⟨hb, high, rfl, hpadded⟩⟩
          · rintro ⟨hn, hlength, ⟨hb, rfl, rfl⟩ | ⟨hb, high, rfl, hpadded⟩⟩
            · exact .inl ⟨hb, rfl, rfl, fun h => absurd h (Nat.succ_ne_zero left)⟩
            · exact .inr ⟨hb, high, rfl, ih.2 ⟨by omega, by omega, hpadded⟩⟩

/-- The room of a width is just what its numbers need. -/
theorem Width.room (w : Width) :
    ∃ left, w.maxBytes = left + 1 ∧ (w.lastMax + 1) * 128 ^ left = 2 ^ w.bits := by
  cases w
  · exact ⟨2, rfl, rfl⟩
  · exact ⟨4, rfl, rfl⟩
  · exact ⟨9, rfl, rfl⟩

theorem recovers_varint_iff : Recovers (readVarint w) bytes n ↔ WrittenNumber w n bytes := by
  obtain ⟨left, hbytes, hroom⟩ := w.room
  rw [readVarint, hbytes, recovers_groups_iff, hroom, ← hbytes]
  constructor
  · rintro ⟨hn, hlength, hpadded⟩
    exact ⟨hn, hlength, hpadded⟩
  · intro h
    exact ⟨h.fits, h.length_le, h.padded⟩

theorem writtenNumber_varint (hn : n < 2 ^ w.bits) : WrittenNumber w n (varint n) := by
  obtain ⟨left, hbytes, hroom⟩ := w.room
  have hlast : w.lastMax + 1 ≤ 128 := by cases w <;> decide
  refine ⟨hn, ?_, 0, rfl⟩
  rw [hbytes]
  apply length_varint_le
  calc n < (w.lastMax + 1) * 128 ^ left := by rwa [hroom]
    _ ≤ 128 * 128 ^ left := Nat.mul_le_mul_right _ hlast
    _ = 128 ^ (left + 1) := by rw [Nat.pow_succ, Nat.mul_comm]

end Numbers

/-! ## Operations -/

/-- The number of an operation. -/
def opNumber : Op → Nat
  | .run .right _ => 0
  | .run .left _ => 1
  | .run .inc _ => 2
  | .run .dec _ => 3
  | .output => 4
  | .input => 5
  | .openLoop => 6
  | .closeLoop => 7
  | .clear => 8

/-- The bytes are a way to write an operation: its number, and behind it the count of a
run. -/
def WrittenOp (op : Op) (bytes : List UInt8) : Prop :=
  ∃ number count, bytes = number ++ count ∧ WrittenNumber .w32 (opNumber op) number ∧
    match op.count? with
    | some n => WrittenNumber .w32 n.toNat count
    | none => count = []

/-- The bytes are a way to write operations, one behind the other. -/
inductive WrittenOps : List Op → List UInt8 → Prop
  | nil : WrittenOps [] []
  | cons {op : Op} {ops : List Op} {front back : List UInt8} :
      WrittenOp op front → WrittenOps ops back → WrittenOps (op :: ops) (front ++ back)

section Ops

variable {op : Op} {ops : List Op} {bytes : List UInt8} {n : Nat}

theorem opBytes_eq (op : Op) :
    opBytes op = varint (opNumber op) ++
      match op.count? with
      | some n => varint n.toNat
      | none => [] := by
  cases op with
  | run kind n => cases kind <;> rfl
  | _ => exact (List.append_nil _).symm

theorem opNumber_lt (op : Op) : opNumber op < 9 := by
  cases op with
  | run kind n => cases kind <;> simp [opNumber]
  | _ => decide

theorem writtenOp_opBytes (op : Op) : WrittenOp op (opBytes op) := by
  rw [opBytes_eq]
  refine ⟨_, _, rfl, writtenNumber_varint (Nat.lt_trans (opNumber_lt op) (by decide)), ?_⟩
  cases op.count? with
  | none => rfl
  | some n => exact writtenNumber_varint n.toNat_lt

theorem writtenOps_flatMap (ops : List Op) : WrittenOps ops (ops.flatMap opBytes) := by
  induction ops with
  | nil => exact .nil
  | cons op ops ih => exact .cons (writtenOp_opBytes op) ih

theorem recovers_run_iff {kind : RunKind} :
    Recovers (readRun kind) bytes op ↔
      ∃ n : UInt32, op = .run kind n ∧ WrittenNumber .w32 n.toNat bytes := by
  have hcount := incremental_readVarint .w32
  rw [readRun_eq, hcount.recovers_andThen_iff fun _ => incremental_succeed _]
  simp only [recovers_varint_iff, recovers_succeed_iff]
  constructor
  · rintro ⟨n, used, _, rfl, hn, rfl, rfl⟩
    have hback : n.toUInt32.toNat = n := Nat.mod_eq_of_lt hn.fits
    exact ⟨n.toUInt32, rfl, by rwa [hback, List.append_nil]⟩
  · rintro ⟨n, rfl, hn⟩
    have hback : n.toNat.toUInt32 = n := UInt32.ofNat_toNat
    exact ⟨n.toNat, bytes, [], (List.append_nil _).symm, hn, rfl, by rw [hback]⟩

/-- Behind the number of an operation stands the count of a run, and nothing otherwise. -/
theorem recovers_opOf_iff :
    Recovers (opOf n) bytes op ↔
      n = opNumber op ∧
        match op.count? with
        | some k => WrittenNumber .w32 k.toNat bytes
        | none => bytes = [] := by
  constructor
  · intro h
    match n with
    | 0 | 1 | 2 | 3 =>
        obtain ⟨k, rfl, hk⟩ := recovers_run_iff.1 h
        exact ⟨rfl, hk⟩
    | 4 | 5 | 6 | 7 | 8 =>
        obtain ⟨rfl, rfl⟩ := recovers_succeed_iff.1 h
        exact ⟨rfl, rfl⟩
    | _ + 9 => exact absurd h not_recovers_fail
  · rintro ⟨rfl, h⟩
    cases op with
    | run kind k => cases kind <;> exact recovers_run_iff.2 ⟨k, rfl, h⟩
    | _ => exact recovers_succeed_iff.2 ⟨h, rfl⟩

theorem recovers_op_iff : Recovers readOp bytes op ↔ WrittenOp op bytes := by
  rw [readOp_eq, (incremental_readVarint .w32).recovers_andThen_iff incremental_opOf]
  simp only [recovers_varint_iff, recovers_opOf_iff]
  constructor
  · rintro ⟨_, number, count, rfl, hnumber, rfl, hcount⟩
    exact ⟨number, count, rfl, hnumber, hcount⟩
  · rintro ⟨number, count, rfl, hnumber, hcount⟩
    exact ⟨_, number, count, rfl, hnumber, rfl, hcount⟩

theorem recovers_ops_iff :
    Recovers (readOps n) bytes ops ↔ ops.length = n ∧ WrittenOps ops bytes := by
  induction n generalizing ops bytes with
  | zero =>
      constructor
      · intro h
        obtain ⟨rfl, rfl⟩ := recovers_succeed_iff.1 h
        exact ⟨rfl, .nil⟩
      · rintro ⟨hlength, hops⟩
        obtain rfl := List.length_eq_zero_iff.1 hlength
        cases hops
        exact recovers_succeed []
  | succ n ih =>
      have hrest : ∀ op, Incremental ((readOps n).andThen fun ops => .succeed (op :: ops)) :=
        fun _ => (incremental_readOps n).andThen fun _ => incremental_succeed _
      rw [readOps_succ, incremental_readOp.recovers_andThen_iff hrest]
      simp only [(incremental_readOps n).recovers_andThen_iff fun _ => incremental_succeed _,
        recovers_op_iff, recovers_succeed_iff, ih]
      constructor
      · rintro ⟨op, front, _, rfl, hop, ops, back, _, rfl, ⟨rfl, hops⟩, rfl, rfl⟩
        rw [List.append_nil]
        exact ⟨rfl, .cons hop hops⟩
      · rintro ⟨hlength, hops⟩
        cases hops with
        | nil => cases hlength
        | @cons op ops front back hop hops =>
            refine ⟨op, front, back, rfl, hop, ops, back, [], ?_, ?_, rfl, rfl⟩
            · rw [List.append_nil]
            · exact ⟨Nat.succ.inj hlength, hops⟩

end Ops

/-! ## The shortest way to write a value -/

/-- `short` is no longer than `bytes`, and as long only where they are the same. -/
structure Shortest (short bytes : List UInt8) : Prop where
  length_le : short.length ≤ bytes.length
  eq_of_length : short.length = bytes.length → bytes = short

section Shortest

variable {short short' bytes bytes' : List UInt8} {w : Width} {n : Nat} {op : Op} {ops : List Op}

theorem Shortest.refl (bytes : List UInt8) : Shortest bytes bytes :=
  ⟨Nat.le_refl _, fun _ => rfl⟩

theorem Shortest.append (h : Shortest short bytes) (h' : Shortest short' bytes') :
    Shortest (short ++ short') (bytes ++ bytes') := by
  have hle := h.length_le
  have hle' := h'.length_le
  constructor
  · simp only [List.length_append]
    omega
  · simp only [List.length_append]
    intro heq
    rw [h.eq_of_length (by omega), h'.eq_of_length (by omega)]

theorem WrittenNumber.shortest (h : WrittenNumber w n bytes) : Shortest (varint n) bytes := by
  obtain ⟨k, rfl⟩ := h.padded
  constructor
  · rw [length_padded]
    exact Nat.le_add_right ..
  · rw [length_padded]
    intro heq
    obtain rfl : k = 0 := by omega
    rfl

theorem WrittenOp.shortest (h : WrittenOp op bytes) : Shortest (opBytes op) bytes := by
  obtain ⟨number, count, rfl, hnumber, hcount⟩ := h
  rw [opBytes_eq]
  refine hnumber.shortest.append ?_
  cases hop : op.count? with
  | none =>
      rw [hop] at hcount
      subst hcount
      exact .refl []
  | some n =>
      rw [hop] at hcount
      exact hcount.shortest

theorem WrittenOps.shortest (h : WrittenOps ops bytes) :
    Shortest (ops.flatMap opBytes) bytes := by
  induction h with
  | nil => exact .refl []
  | cons hop _ ih =>
      rw [List.flatMap_cons]
      exact hop.shortest.append ih

/-- Every operation takes a byte. -/
theorem length_le_length_flatMap (ops : List Op) : ops.length ≤ (ops.flatMap opBytes).length := by
  induction ops with
  | nil => exact Nat.le_refl 0
  | cons op ops ih =>
      have hpos := length_varint_pos (opNumber op)
      rw [List.flatMap_cons, opBytes_eq]
      simp only [List.length_cons, List.length_append]
      omega

end Shortest

end Brainfuck.Wire
