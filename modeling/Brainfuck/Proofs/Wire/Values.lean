import Brainfuck.Proofs.Wire.Reader
import Brainfuck.Wire.Op
import Brainfuck.Wire.Scalar

/-!
# The readers of values

Every reader of the format is put together from smaller ones, and settles its answer on the
bytes it takes.

* `boolOf`, `groupOf`, `opOf` — what a reader goes on with, once its first byte or number is
  read.
* `readBool_eq`, `readGroups_succ`, `readOp_eq`, `readOps_succ` — the readers as such parts.
* `incremental_readVarint`, `incremental_readBool`, `incremental_readOps` — no reader
  answers before it has to, and none looks past its answer.
-/

namespace Brainfuck.Wire

/-! ## Bytes and truth values -/

theorem recovers_byte (b : UInt8) : Recovers readByte [b] b := fun _ => rfl

theorem incremental_readByte : Incremental readByte := by
  intro bytes hbytes
  cases bytes with
  | nil => exact absurd rfl hbytes
  | cons b rest =>
      refine ⟨[b], .ok b, List.prefix_append [b] rest, recovers_byte b, ?_⟩
      intro p hp hne
      rcases List.prefix_cons_iff.1 hp with rfl | ⟨q, rfl, hq⟩
      · rfl
      · rw [List.prefix_nil.1 hq] at hne
        exact absurd rfl hne

/-- The truth value of a byte. -/
def boolOf (b : UInt8) : Reader Bool :=
  if b = 0 then .succeed false else if b = 1 then .succeed true else .fail .badBool

theorem readBool_eq : readBool = readByte.andThen boolOf := by
  funext bytes
  cases bytes with
  | nil => rfl
  | cons b rest =>
      change readBool (b :: rest) = boolOf b rest
      rw [readBool, boolOf]
      split
      · rfl
      · split <;> rfl

theorem incremental_readBool : Incremental readBool := by
  rw [readBool_eq]
  refine incremental_readByte.andThen fun b => ?_
  unfold boolOf
  split
  · exact incremental_succeed false
  · split
    · exact incremental_succeed true
    · exact incremental_fail .badBool

/-! ## Numbers -/

section Numbers

variable {lastMax left : Nat}

/-- What a byte of a number says, with room for `left` bytes behind it. -/
def groupOf (lastMax left : Nat) (b : UInt8) : Reader Nat :=
  if b.toNat < 128 then
    if left = 0 ∧ lastMax < b.toNat then .fail .badVarint else .succeed b.toNat
  else (readGroups lastMax left).andThen fun high => .succeed (b.toNat - 128 + 128 * high)

theorem readGroups_succ (lastMax left : Nat) :
    readGroups lastMax (left + 1) = readByte.andThen (groupOf lastMax left) := by
  funext bytes
  cases bytes with
  | nil => rfl
  | cons b rest =>
      change readGroups lastMax (left + 1) (b :: rest) = groupOf lastMax left b rest
      rw [readGroups, groupOf]
      split
      · split <;> rfl
      · unfold Reader.andThen
        cases readGroups lastMax left rest <;> rfl

theorem incremental_groupOf (h : Incremental (readGroups lastMax left)) (b : UInt8) :
    Incremental (groupOf lastMax left b) := by
  unfold groupOf
  split
  · split
    · exact incremental_fail .badVarint
    · exact incremental_succeed _
  · exact h.andThen fun _ => incremental_succeed _

theorem incremental_readGroups (lastMax left : Nat) : Incremental (readGroups lastMax left) := by
  induction left with
  | zero => exact incremental_fail .badVarint
  | succ left ih =>
      rw [readGroups_succ]
      exact incremental_readByte.andThen (incremental_groupOf ih)

theorem incremental_readVarint (w : Width) : Incremental (readVarint w) :=
  incremental_readGroups w.lastMax w.maxBytes

end Numbers

/-! ## Operations -/

/-- What the number of an operation stands for. -/
def opOf : Nat → Reader Op
  | 0 => readRun .right
  | 1 => readRun .left
  | 2 => readRun .inc
  | 3 => readRun .dec
  | 4 => .succeed .output
  | 5 => .succeed .input
  | 6 => .succeed .openLoop
  | 7 => .succeed .closeLoop
  | 8 => .succeed .clear
  | _ => .fail .badVariant

theorem readRun_eq (kind : RunKind) :
    readRun kind = (readVarint .w32).andThen fun n => .succeed (.run kind n.toUInt32) := rfl

theorem readOp_eq : readOp = (readVarint .w32).andThen opOf := by
  funext bytes
  cases h : readVarint .w32 bytes with
  | error e =>
      rw [Reader.andThen_of_error h, readOp, h]
      rfl
  | ok x =>
      obtain ⟨number, rest⟩ := x
      rw [Reader.andThen_of_ok h, readOp, h]
      match number with
      | 0 | 1 | 2 | 3 | 4 | 5 | 6 | 7 | 8 => rfl
      | _ + 9 => rfl

theorem readOps_succ (n : Nat) :
    readOps (n + 1) =
      readOp.andThen fun op => (readOps n).andThen fun ops => .succeed (op :: ops) := rfl

theorem incremental_readRun (kind : RunKind) : Incremental (readRun kind) := by
  rw [readRun_eq]
  exact (incremental_readVarint .w32).andThen fun _ => incremental_succeed _

theorem incremental_opOf (number : Nat) : Incremental (opOf number) := by
  match number with
  | 0 | 1 | 2 | 3 => exact incremental_readRun _
  | 4 | 5 | 6 | 7 | 8 => exact incremental_succeed _
  | _ + 9 => exact incremental_fail _

theorem incremental_readOp : Incremental readOp := by
  rw [readOp_eq]
  exact (incremental_readVarint .w32).andThen incremental_opOf

theorem incremental_readOps (n : Nat) : Incremental (readOps n) := by
  induction n with
  | zero => exact incremental_succeed []
  | succ n ih =>
      rw [readOps_succ]
      exact incremental_readOp.andThen fun _ => ih.andThen fun _ => incremental_succeed _

end Brainfuck.Wire
