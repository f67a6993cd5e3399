import Brainfuck.Proofs.Wire.Format
import Mathlib.Algebra.BigOperators.Ring.Finset
import Mathlib.Algebra.Order.BigOperators.Group.Finset
import Mathlib.Tactic.Ring

/-!
# Numbers are read exactly

A reader of numbers compares one byte alone with a bound, the last that it may use.  That is enough
to refuse just the numbers that do not fit their width, padded or not.  So the groups may be
gathered in a word of that width, each shifted to its place: no bit of a number that is accepted is
lost.

* `Wire.groupSum` — the number that the groups of some bytes say.
* `Wire.readVarint_of_ended`, `Wire.readVarint_of_unended` — what is read of any bytes.
* `Wire.readWord` — reads the groups of a number into a word.
* `Wire.toNat_readWord` — the word holds the number.
* `Wire.varint_exact` — all together, with the bytes that are written for a number.
-/

namespace Brainfuck.Wire

variable {lastMax left i j n : Nat} {b : UInt8} {bytes rest : List UInt8} {w : Width}

/-! ## The number that bytes say -/

/-- The low seven bits of a byte. -/
def lowBits (b : UInt8) : Nat := b.toNat % 128

theorem lowBits_lt (b : UInt8) : lowBits b < 128 := Nat.mod_lt _ (by decide)

theorem lowBits_of_lt (h : b.toNat < 128) : lowBits b = b.toNat := Nat.mod_eq_of_lt h

theorem lowBits_of_le (h : 128 ≤ b.toNat) : lowBits b = b.toNat - 128 := by
  have hb := b.toNat_lt
  unfold lowBits
  omega

theorem two_pow_groups (i : Nat) : 2 ^ (7 * (i + 1)) = 2 ^ (7 * i) * 128 := by
  rw [Nat.mul_succ, Nat.pow_add]

/-- The sum of the groups up to the byte at `i`, each at its place. -/
def groupSum (bytes : List UInt8) (i : Nat) : Nat :=
  ∑ j ∈ Finset.range (i + 1), lowBits (bytes.getD j 0) * 2 ^ (7 * j)

theorem groupSum_zero (b : UInt8) (rest : List UInt8) : groupSum (b :: rest) 0 = lowBits b := by
  simp [groupSum]

/-- The groups behind the first one count 128 times as much as they do alone. -/
theorem groupSum_succ (b : UInt8) (rest : List UInt8) (i : Nat) :
    groupSum (b :: rest) (i + 1) = lowBits b + 128 * groupSum rest i := by
  have hplace (j : Nat) :
      lowBits (rest.getD j 0) * 2 ^ (7 * (j + 1)) =
        128 * (lowBits (rest.getD j 0) * 2 ^ (7 * j)) := by
    rw [two_pow_groups]
    ring
  rw [groupSum, Finset.sum_range_succ', groupSum, Finset.mul_sum, Nat.add_comm]
  simp only [List.getD_cons_succ, List.getD_cons_zero, hplace, Nat.mul_zero, Nat.pow_zero,
    Nat.mul_one]

theorem group_le_groupSum (h : j ≤ i) :
    lowBits (bytes.getD j 0) * 2 ^ (7 * j) ≤ groupSum bytes i :=
  Finset.single_le_sum (f := fun j => lowBits (bytes.getD j 0) * 2 ^ (7 * j))
    (fun _ _ => Nat.zero_le _) (Finset.mem_range.2 (Nat.lt_succ_of_le h))

/-- Where a number ends: the first byte whose high bit is clear, of as many bytes as there is room
for. -/
def endAt? (room : Nat) (bytes : List UInt8) : Option Nat :=
  (bytes.take room).findIdx? fun b => decide (b.toNat < 128)

theorem endAt?_of_lt (h : b.toNat < 128) : endAt? (left + 1) (b :: rest) = some 0 := by
  simp [endAt?, List.findIdx?_cons, h]

theorem endAt?_of_le (h : 128 ≤ b.toNat) :
    endAt? (left + 1) (b :: rest) = (endAt? left rest).map (· + 1) := by
  simp [endAt?, List.findIdx?_cons, Nat.not_lt.2 h]

/-! ## What is read -/

theorem readGroups_of_lt (h : b.toNat < 128) :
    readGroups lastMax (left + 1) (b :: rest) =
      if b.toNat < (lastMax + 1) * 128 ^ left then .ok (b.toNat, rest)
      else .error .badVarint := by
  rw [readGroups, if_pos h]
  cases left with
  | zero =>
      rw [Nat.pow_zero, Nat.mul_one]
      by_cases hlast : lastMax < b.toNat
      · rw [if_pos ⟨rfl, hlast⟩, if_neg (by omega)]
      · rw [if_neg (fun h => hlast h.2), if_pos (by omega)]
  | succ left =>
      -- with bytes left behind it, one group alone never fills the room
      have hpos := room_pos lastMax left
      rw [room_succ, if_neg (by omega), if_pos (by omega)]

theorem readGroups_of_le (h : 128 ≤ b.toNat) :
    readGroups lastMax (left + 1) (b :: rest) =
      (readGroups lastMax left rest).map (Prod.map (lowBits b + 128 * ·) id) := by
  rw [readGroups, if_neg (Nat.not_lt.2 h), lowBits_of_le h]
  cases readGroups lastMax left rest <;> rfl

/-- Where a byte ends the number in time, the number is read if it keeps within the room. -/
theorem readGroups_of_ended (h : endAt? (left + 1) bytes = some i) :
    readGroups lastMax (left + 1) bytes =
      if groupSum bytes i < (lastMax + 1) * 128 ^ left then
        .ok (groupSum bytes i, bytes.drop (i + 1))
      else .error .badVarint := by
  -- each byte that goes on takes one byte of the room and 128 times the number
  induction bytes generalizing left i with
  | nil => cases h
  | cons b rest ih =>
      by_cases hb : b.toNat < 128
      · rw [endAt?_of_lt hb] at h
        cases h
        rw [readGroups_of_lt hb, groupSum_zero, lowBits_of_lt hb]
        rfl
      · have hgoes := Nat.not_lt.1 hb
        rw [endAt?_of_le hgoes, Option.map_eq_some_iff] at h
        obtain ⟨k, hk, rfl⟩ := h
        cases left with
        | zero => cases hk
        | succ left =>
            have hroom : groupSum (b :: rest) (k + 1) < (lastMax + 1) * 128 ^ (left + 1) ↔
                groupSum rest k < (lastMax + 1) * 128 ^ left := by
              have hlow := lowBits_lt b
              rw [groupSum_succ, room_succ]
              omega
            rw [readGroups_of_le hgoes, ih hk]
            simp only [hroom]
            split
            · rw [groupSum_succ]
              rfl
            · rfl

/-- Where none ends it, there are too many bytes or too few. -/
theorem readGroups_of_unended (h : endAt? left bytes = none) :
    readGroups lastMax left bytes =
      if left ≤ bytes.length then .error .badVarint else .error .endOfBuffer := by
  induction bytes generalizing left with
  | nil => cases left <;> rfl
  | cons b rest ih =>
      cases left with
      | zero => rfl
      | succ left =>
          by_cases hb : b.toNat < 128
          · rw [endAt?_of_lt hb] at h
            cases h
          · rw [endAt?_of_le (Nat.not_lt.1 hb), Option.map_eq_none_iff] at h
            rw [readGroups_of_le (Nat.not_lt.1 hb), ih h]
            simp only [List.length_cons, Nat.add_le_add_iff_right]
            split <;> rfl

theorem readVarint_of_ended (h : endAt? w.maxBytes bytes = some i) :
    readVarint w bytes =
      if groupSum bytes i < 2 ^ w.bits then .ok (groupSum bytes i, bytes.drop (i + 1))
      else .error .badVarint := by
  obtain ⟨left, hbytes, hroom⟩ := w.room
  rw [hbytes] at h
  rw [readVarint, hbytes, readGroups_of_ended h, hroom]

theorem readVarint_of_unended (h : endAt? w.maxBytes bytes = none) :
    readVarint w bytes =
      if w.maxBytes ≤ bytes.length then .error .badVarint else .error .endOfBuffer :=
  readGroups_of_unended h

theorem lt_of_readVarint (h : readVarint w bytes = .ok (n, rest)) : n < 2 ^ w.bits := by
  obtain ⟨used, -, hused⟩ := (incremental_readVarint w).ok_iff.1 h
  exact (recovers_varint_iff.1 hused).fits

/-! ## Gathering groups in a word -/

/-- The low seven bits of a byte, shifted by `i` groups in a word. -/
def Width.shifted (w : Width) (i : Nat) (b : UInt8) : BitVec w.bits :=
  BitVec.ofNat w.bits (lowBits b) <<< (7 * i)

/-- Reads the groups of a number from at most `left` bytes into a word in which `i` groups have been
gathered. -/
def readWordFrom (w : Width) : Nat → Nat → BitVec w.bits → Reader (BitVec w.bits)
  | 0, _, _, _ => .error .badVarint
  | _ + 1, _, _, [] => .error .endOfBuffer
  | left + 1, i, word, b :: rest =>
      if b.toNat < 128 then
        if left = 0 ∧ w.lastMax < b.toNat then .error .badVarint
        else .ok (word ||| w.shifted i b, rest)
      else readWordFrom w left (i + 1) (word ||| w.shifted i b) rest

/-- Reads a number into a word of its width. -/
def readWord (w : Width) : Reader (BitVec w.bits) := readWordFrom w w.maxBytes 0 0

/-- A group stands above all that was gathered before it. -/
theorem ofNat_or_shifted (h : n < 2 ^ (7 * i)) :
    BitVec.ofNat w.bits n ||| w.shifted i b =
      BitVec.ofNat w.bits (n + 2 ^ (7 * i) * lowBits b) := by
  have hshift : w.shifted i b = BitVec.ofNat w.bits (2 ^ (7 * i) * lowBits b) := by
    apply BitVec.eq_of_toNat_eq
    rw [Width.shifted, BitVec.toNat_shiftLeft, BitVec.toNat_ofNat, BitVec.toNat_ofNat,
      Nat.shiftLeft_eq, Nat.mod_mul_mod, Nat.mul_comm]
  rw [hshift, ← BitVec.ofNat_or, Nat.or_comm, ← Nat.two_pow_add_eq_or_of_lt h, Nat.add_comm]

/-- With one group more, what was gathered keeps below the next group. -/
theorem gathered_lt (h : n < 2 ^ (7 * i)) (b : UInt8) :
    n + 2 ^ (7 * i) * lowBits b < 2 ^ (7 * (i + 1)) :=
  calc n + 2 ^ (7 * i) * lowBits b
      < 2 ^ (7 * i) + 2 ^ (7 * i) * lowBits b := Nat.add_lt_add_right h _
    _ = 2 ^ (7 * i) * (lowBits b + 1) := by ring
    _ ≤ 2 ^ (7 * i) * 128 := Nat.mul_le_mul_left _ (lowBits_lt b)
    _ = 2 ^ (7 * (i + 1)) := (two_pow_groups i).symm

/-- The word holds what was gathered before, and above it the number that is read. -/
theorem readWordFrom_eq (h : n < 2 ^ (7 * i)) :
    readWordFrom w left i (BitVec.ofNat w.bits n) bytes =
      (readGroups w.lastMax left bytes).map
        (Prod.map (fun high => BitVec.ofNat w.bits (n + 2 ^ (7 * i) * high)) id) := by
  -- the word is known modulo its width only; that nothing was cut off is shown at the end
  induction left generalizing i n bytes with
  | zero => rfl
  | succ left ih =>
      cases bytes with
      | nil => rfl
      | cons b rest =>
          by_cases hb : b.toNat < 128
          · rw [readWordFrom, readGroups, if_pos hb, if_pos hb, ofNat_or_shifted h,
              lowBits_of_lt hb]
            split <;> rfl
          · have hnumber (high : Nat) : n + 2 ^ (7 * i) * (lowBits b + 128 * high) =
                n + 2 ^ (7 * i) * lowBits b + 2 ^ (7 * (i + 1)) * high := by
              rw [two_pow_groups]
              ring
            rw [readWordFrom, if_neg hb, ofNat_or_shifted h, ih (gathered_lt h b),
              readGroups_of_le (Nat.not_lt.1 hb)]
            cases readGroups w.lastMax left rest with
            | error e => rfl
            | ok x =>
                exact congrArg (fun m => Except.ok (BitVec.ofNat w.bits m, x.2)) (hnumber x.1).symm

/-- A word holds every number that is read at its width, and is refused where the number is. -/
theorem toNat_readWord (w : Width) (bytes : List UInt8) :
    (readWord w bytes).map (Prod.map BitVec.toNat id) = readVarint w bytes := by
  have hword : readWordFrom w w.maxBytes 0 (BitVec.ofNat w.bits 0) bytes = _ :=
    readWordFrom_eq (by decide)
  rw [readWord, show (0 : BitVec w.bits) = BitVec.ofNat w.bits 0 from rfl, hword, ← readVarint]
  cases hread : readVarint w bytes with
  | error e => rfl
  | ok x =>
      have hnumber : (BitVec.ofNat w.bits (0 + 2 ^ (7 * 0) * x.1)).toNat = x.1 := by
        rw [BitVec.toNat_ofNat, Nat.zero_add, Nat.mul_zero, Nat.pow_zero, Nat.one_mul,
          Nat.mod_eq_of_lt (lt_of_readVarint hread)]
      exact congrArg (fun m => Except.ok (m, x.2)) hnumber

theorem toNat_shifted (h : lowBits b * 2 ^ (7 * j) < 2 ^ w.bits) :
    (w.shifted j b).toNat = lowBits b * 2 ^ (7 * j) := by
  rw [Width.shifted, BitVec.toNat_shiftLeft, BitVec.toNat_ofNat, Nat.shiftLeft_eq,
    Nat.mod_mul_mod, Nat.mod_eq_of_lt h]

/-- **Numbers are read exactly.**  Where a byte with its high bit clear stands among the bytes that
may be used, the groups up to the first such byte are read as the number they sum up to, and the
bytes behind it are left, exactly when the number fits its width; no shift of a group in a word of
that width loses a bit then.  Where there is no such byte, there are too many bytes or too few.  A
reader that gathers the groups in a word gets the same answer on all bytes.  And the bytes that are
written for a number are the shortest from which it is read. -/
theorem varint_exact (w : Width) :
    (∀ bytes i, endAt? w.maxBytes bytes = some i →
      (groupSum bytes i < 2 ^ w.bits →
        readVarint w bytes = .ok (groupSum bytes i, bytes.drop (i + 1)) ∧
        ∀ j ≤ i, (w.shifted j (bytes.getD j 0)).toNat =
          lowBits (bytes.getD j 0) * 2 ^ (7 * j)) ∧
      (2 ^ w.bits ≤ groupSum bytes i → readVarint w bytes = .error .badVarint)) ∧
    (∀ bytes, endAt? w.maxBytes bytes = none →
      (w.maxBytes ≤ bytes.length → readVarint w bytes = .error .badVarint) ∧
      (bytes.length < w.maxBytes → readVarint w bytes = .error .endOfBuffer)) ∧
    (∀ bytes, (readWord w bytes).map (Prod.map BitVec.toNat id) = readVarint w bytes) ∧
    ∀ v < 2 ^ w.bits,
      (∀ rest, readVarint w (varint v ++ rest) = .ok (v, rest)) ∧
      ∀ bytes rest, readVarint w bytes = .ok (v, rest) →
        ∃ used, bytes = used ++ rest ∧ Shortest (varint v) used := by
  refine ⟨?_, ?_, toNat_readWord w, ?_⟩
  · intro bytes i hend
    rw [readVarint_of_ended hend]
    refine ⟨fun hfits => ⟨if_pos hfits, ?_⟩, fun hlarge => if_neg (Nat.not_lt.2 hlarge)⟩
    intro j hj
    exact toNat_shifted (Nat.lt_of_le_of_lt (group_le_groupSum hj) hfits)
  · intro bytes hend
    rw [readVarint_of_unended hend]
    exact ⟨fun hlong => if_pos hlong, fun hshort => if_neg (Nat.not_le.2 hshort)⟩
  · intro v hv
    refine ⟨recovers_varint_iff.2 (writtenNumber_varint hv), ?_⟩
    intro bytes rest hread
    obtain ⟨used, rfl, hused⟩ := (incremental_readVarint w).ok_iff.1 hread
    exact ⟨used, rfl, (recovers_varint_iff.1 hused).shortest⟩

/-- At a width of 16 bits three bytes may be used.  They are read where they say 65535 and refused
where their last group is one larger; and the two bytes of 128 are shorter than the three they may
be padded to. -/
theorem varint_exact_sixteen_bits :
    endAt? 3 [255, 255, 3, 9] = some 2 ∧
      readVarint .w16 [255, 255, 3, 9] = .ok (65535, [9]) ∧
      (Width.w16.shifted 2 3).toNat = 3 * 2 ^ 14 ∧
      endAt? 3 [255, 255, 4, 9] = some 2 ∧
      readVarint .w16 [255, 255, 4, 9] = .error .badVarint ∧
      readVarint .w16 [128, 128, 128, 0] = .error .badVarint ∧
      readVarint .w16 [128, 128] = .error .endOfBuffer ∧
      readVarint .w16 [128, 129, 0] = .ok (128, []) ∧
      ∃ used, [128, 129, 0] = used ++ [] ∧ Shortest (varint 128) used := by
  obtain ⟨hended, hunended, -, hwritten⟩ := varint_exact .w16
  have hsum : groupSum [255, 255, 3, 9] 2 = 65535 := by decide
  have hlarge : groupSum [255, 255, 4, 9] 2 = 81919 := by decide
  obtain ⟨hread, hshift⟩ := (hended [255, 255, 3, 9] 2 rfl).1 (by rw [hsum]; decide)
  have hpadded : readVarint .w16 [128, 129, 0] = .ok (128, []) := rfl
  rw [hsum] at hread
  exact ⟨rfl, hread, hshift 2 (Nat.le_refl 2), rfl,
    (hended [255, 255, 4, 9] 2 rfl).2 (by rw [hlarge]; decide),
    (hunended [128, 128, 128, 0] rfl).1 (by decide), (hunended [128, 128] rfl).2 (by decide),
    hpadded, (hwritten 128 (by decide)).2 _ _ hpadded⟩

end Brainfuck.Wire
