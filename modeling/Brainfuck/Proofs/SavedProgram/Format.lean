import Brainfuck.Proofs.SavedProgram.RoundTrip

/-!
# The format of saved programs

Which bytes load, and as what.  A program loads from the bytes it can be written in, with
anything behind them: the mark of the format, the version, whether the program has been
shortened, the number of operations and the operations, where every number may be padded.

* `SavedProgram.Written` — the ways to write a saved program.
* `SavedProgram.recovers_envelope_iff` — an envelope with the right mark and version is read
  back from just these.
* `SavedProgram.Written.shortest` — the bytes that are saved are the shortest of them.
* `SavedProgram.decode_ok_iff_written` — loading accepts exactly the format.
-/

namespace Brainfuck.SavedProgram

open Wire

/-- The bytes are a way to write a saved program. -/
def Written (s : SavedProgram) (bytes : List UInt8) : Prop :=
  ∃ number length ops, bytes = magic ++ number ++ boolByte s.shortened ++ length ++ ops ∧
    WrittenNumber .w16 version number ∧ WrittenNumber .w64 s.ops.length length ∧
    WrittenOps s.ops ops

variable {s : SavedProgram} {bytes used rest : List UInt8}

/-- An envelope with the right mark and version is read back from just the bytes its program
can be written in. -/
theorem recovers_envelope_iff :
    Recovers readEnvelope bytes ⟨magic, version, s⟩ ↔ Written s bytes := by
  constructor
  · intro h
    -- the readers behind the mark, from the last one to the first
    have hops (m v f) (n : Nat) :=
      (incremental_readOps n).andThen fun ops => incremental_succeed (⟨m, v, ⟨f, ops⟩⟩ : Envelope)
    have hlength (m v f) := (incremental_readVarint .w64).andThen (hops m v f)
    have hflag (m v) := incremental_readBool.andThen (hlength m v)
    simp only [readEnvelope_eq, recovers_byte_andThen_iff] at h
    obtain ⟨m₀, _, rfl, m₁, _, rfl, m₂, _, rfl, m₃, _, rfl, h⟩ := h
    rw [(incremental_readVarint .w16).recovers_andThen_iff (hflag _)] at h
    obtain ⟨v, number, _, rfl, hnumber, h⟩ := h
    rw [incremental_readBool.recovers_andThen_iff (hlength _ _)] at h
    obtain ⟨f, _, _, rfl, hf, h⟩ := h
    rw [(incremental_readVarint .w64).recovers_andThen_iff (hops _ _ _)] at h
    obtain ⟨n, length, _, rfl, hn, h⟩ := h
    rw [(incremental_readOps n).recovers_andThen_iff fun _ => incremental_succeed _] at h
    obtain ⟨ops, back, _, rfl, hback, h⟩ := h
    obtain ⟨rfl, heq⟩ := recovers_succeed_iff.1 h
    cases heq
    obtain ⟨rfl, hwritten⟩ := recovers_ops_iff.1 hback
    refine ⟨number, length, back, ?_, recovers_varint_iff.1 hnumber, recovers_varint_iff.1 hn,
      hwritten⟩
    rw [recovers_bool_iff.1 hf]
    simp [magic]
  · rintro ⟨number, length, back, rfl, hnumber, hlength, hback⟩
    exact recovers_envelope_of_parts (recovers_varint_iff.2 hnumber)
      (recovers_varint_iff.2 hlength) (recovers_ops_iff.2 ⟨rfl, hback⟩)

theorem written_encode (h : s.ops.length < 2 ^ 64) : Written s s.encode :=
  recovers_envelope_iff.1 (recovers_envelope s h)

theorem Written.length_ops_lt (h : Written s bytes) : s.ops.length < 2 ^ 64 := by
  obtain ⟨_, _, _, _, _, hlength, _⟩ := h
  exact hlength.fits

/-- The bytes that are saved are the shortest of all that load as the program. -/
theorem Written.shortest (h : Written s bytes) : Shortest s.encode bytes := by
  obtain ⟨number, length, ops, rfl, hnumber, hlength, hops⟩ := h
  refine (Shortest.append ?_ hlength.shortest).append hops.shortest
  exact ((Shortest.refl magic).append hnumber.shortest).append (.refl _)

/-- The mark, three bytes and one for every operation. -/
theorem length_le_length_encode (s : SavedProgram) : s.ops.length + 7 ≤ s.encode.length := by
  have hversion := length_varint_pos version
  have hlength := length_varint_pos s.ops.length
  have hops := length_le_length_flatMap s.ops
  have hmagic : magic.length = 4 := rfl
  have hflag : (boolByte s.shortened).length = 1 := rfl
  simp only [encode, List.length_append]
  omega

theorem unwrap_eq_ok_iff {e : Envelope} : e.unwrap = .ok s ↔ e = ⟨magic, version, s⟩ := by
  constructor
  · intro h
    obtain ⟨mark, number, program⟩ := e
    unfold Envelope.unwrap at h
    split at h
    · cases h
    · split at h
      · cases h
      · simp_all
  · rintro rfl
    rfl

theorem decode_eq_ok_iff :
    decode bytes = .ok s ↔ ∃ rest, readEnvelope bytes = .ok (⟨magic, version, s⟩, rest) := by
  unfold decode
  cases readEnvelope bytes with
  | error cause => simp
  | ok x =>
      obtain ⟨e, rest⟩ := x
      simp [unwrap_eq_ok_iff]

theorem readEnvelope_eq_ok_iff :
    readEnvelope bytes = .ok (⟨magic, version, s⟩, rest) ↔
      ∃ used, bytes = used ++ rest ∧ Written s used := by
  simp only [incremental_readEnvelope.ok_iff, recovers_envelope_iff]

/-- **Loading accepts exactly the format**, and what is saved is its only shortest form.  The
bytes `used` of a program that loads are those that the reader takes; there are at least
seven of them and one for every operation, and no fewer than are saved for the program.
With as many they are the bytes that are saved, and these load as the program. -/
theorem decode_ok_iff_written (bytes : List UInt8) (s : SavedProgram) :
    (decode bytes = .ok s ↔ ∃ used rest, bytes = used ++ rest ∧ Written s used) ∧
    ∀ used rest, bytes = used ++ rest → Written s used →
      readEnvelope bytes = .ok (⟨magic, version, s⟩, rest) ∧
      s.ops.length + 7 ≤ used.length ∧ used.length ≤ bytes.length ∧
      s.encode.length ≤ used.length ∧ (s.encode.length = used.length → used = s.encode) ∧
      decode s.encode = .ok s := by
  constructor
  · simp only [decode_eq_ok_iff, readEnvelope_eq_ok_iff]
    exact exists_comm
  · rintro used rest rfl hused
    have hshort := hused.shortest
    refine ⟨readEnvelope_eq_ok_iff.2 ⟨used, rfl, hused⟩, ?_, ?_, hshort.length_le,
      hshort.eq_of_length, ?_⟩
    · exact Nat.le_trans (length_le_length_encode s) hshort.length_le
    · simp
    · rw [decode_eq_ok_iff]
      refine ⟨[], readEnvelope_eq_ok_iff.2 ⟨s.encode, ?_, written_encode hused.length_ops_lt⟩⟩
      rw [List.append_nil]

/-- A version and an operation that are written too long, and junk behind the program. -/
theorem decode_ok_iff_written_padded :
    decode [66, 70, 71, 79, 129, 128, 0, 1, 2, 130, 0, 3, 4, 255] =
        .ok ⟨true, [.run .inc 3, .output]⟩ ∧
      encode ⟨true, [.run .inc 3, .output]⟩ = [66, 70, 71, 79, 1, 1, 2, 2, 3, 4] ∧
      decode [66, 70, 71, 79, 1, 1, 2, 2, 3, 4] = .ok ⟨true, [.run .inc 3, .output]⟩ := by
  obtain ⟨hiff, hused⟩ := decode_ok_iff_written
    [66, 70, 71, 79, 129, 128, 0, 1, 2, 130, 0, 3, 4, 255] ⟨true, [.run .inc 3, .output]⟩
  have hload : decode [66, 70, 71, 79, 129, 128, 0, 1, 2, 130, 0, 3, 4, 255] =
      .ok ⟨true, [.run .inc 3, .output]⟩ := by cbv
  have hbytes : encode ⟨true, [.run .inc 3, .output]⟩ = [66, 70, 71, 79, 1, 1, 2, 2, 3, 4] := by
    simp [encode, magic, version, boolByte, opBytes, varint]
  obtain ⟨used, rest, happend, hwritten⟩ := hiff.1 hload
  obtain ⟨-, -, -, -, -, hback⟩ := hused used rest happend hwritten
  rw [hbytes] at hback
  exact ⟨hload, hbytes, hback⟩

end Brainfuck.SavedProgram
