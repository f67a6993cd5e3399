import Brainfuck.Proofs.Wire.Format
import Brainfuck.SavedProgram

/-!
# Saved programs load back

What is saved is loaded back, and what loads, or is refused, does so because of the bytes
at its front alone.

* `SavedProgram.recovers_envelope` — an envelope is read back from the bytes of a saved
  program.
* `SavedProgram.incremental_readEnvelope` — the reader of envelopes is incremental.
* `SavedProgram.decode_encode_append` — the round trip, with anything behind the bytes.
* `SavedProgram.decode_settled` — every answer is settled by a definite prefix, and short
  of it the bytes end too early.
-/

namespace Brainfuck.SavedProgram

open Wire

/-! ## Envelopes -/

theorem readEnvelope_eq :
    readEnvelope =
      readByte.andThen fun m₀ => readByte.andThen fun m₁ =>
      readByte.andThen fun m₂ => readByte.andThen fun m₃ =>
      (readVarint .w16).andThen fun version => readBool.andThen fun shortened =>
      (readVarint .w64).andThen fun length => (readOps length).andThen fun ops =>
      .succeed ⟨[m₀, m₁, m₂, m₃], version, ⟨shortened, ops⟩⟩ := rfl

/-- An envelope is read back when its version, its length and its operations are. -/
theorem recovers_envelope_of_parts {s : SavedProgram} {number length ops : List UInt8}
    (hnumber : Recovers (readVarint .w16) number version)
    (hlength : Recovers (readVarint .w64) length s.ops.length)
    (hops : Recovers (readOps s.ops.length) ops s.ops) :
    Recovers readEnvelope (magic ++ number ++ boolByte s.shortened ++ length ++ ops)
      ⟨magic, version, s⟩ := by
  have hbytes : magic ++ number ++ boolByte s.shortened ++ length ++ ops =
      [66] ++ ([70] ++ ([71] ++ ([79] ++ (number ++ (boolByte s.shortened ++
        (length ++ (ops ++ []))))))) := by
    simp [magic]
  rw [hbytes, readEnvelope_eq]
  refine (recovers_byte 66).andThen ((recovers_byte 70).andThen ?_)
  refine (recovers_byte 71).andThen ((recovers_byte 79).andThen ?_)
  refine hnumber.andThen ((recovers_bool_iff.2 rfl).andThen ?_)
  exact hlength.andThen (hops.andThen (recovers_succeed _))

theorem recovers_envelope (s : SavedProgram) (h : s.ops.length < 2 ^ 64) :
    Recovers readEnvelope s.encode ⟨magic, version, s⟩ :=
  recovers_envelope_of_parts (recovers_varint_iff.2 (writtenNumber_varint (by decide)))
    (recovers_varint_iff.2 (writtenNumber_varint h))
    (recovers_ops_iff.2 ⟨rfl, writtenOps_flatMap s.ops⟩)

theorem incremental_readEnvelope : Incremental readEnvelope := by
  rw [readEnvelope_eq]
  refine incremental_readByte.andThen fun _ => incremental_readByte.andThen fun _ => ?_
  refine incremental_readByte.andThen fun _ => incremental_readByte.andThen fun _ => ?_
  refine (incremental_readVarint .w16).andThen fun _ => incremental_readBool.andThen fun _ => ?_
  refine (incremental_readVarint .w64).andThen fun n => (incremental_readOps n).andThen fun _ => ?_
  exact incremental_succeed _

/-! ## Loading -/

theorem decode_of_ok {bytes rest : List UInt8} {e : Envelope}
    (h : readEnvelope bytes = .ok (e, rest)) : decode bytes = e.unwrap := by
  rw [decode, h]

theorem decode_of_error {bytes : List UInt8} {cause : Malformed}
    (h : readEnvelope bytes = .error cause) : decode bytes = .error (.malformed cause) := by
  rw [decode, h]

/-- **A saved program loads back**, whatever operations it has and whatever stands behind
its bytes. -/
theorem decode_encode_append (s : SavedProgram) (h : s.ops.length < 2 ^ 64)
    (rest : List UInt8) : decode (s.encode ++ rest) = .ok s := by
  rw [decode_of_ok (recovers_envelope s h rest)]
  rfl

/-- Counts at both ends of their range, with a byte behind the program. -/
theorem decode_encode_append_extreme_counts :
    [Op.run .inc 0, .run .left 4294967295, .clear].length < 2 ^ 64 ∧
      decode (encode ⟨true, [.run .inc 0, .run .left 4294967295, .clear]⟩ ++ [255]) =
        .ok ⟨true, [.run .inc 0, .run .left 4294967295, .clear]⟩ :=
  ⟨by decide, decode_encode_append _ (by decide) _⟩

/-! ## Truncation -/

section Settled

variable {used p : List UInt8} {answer : Except Malformed Envelope}

theorem decode_append_of_settles (h : Settles readEnvelope used answer) (rest : List UInt8) :
    decode (used ++ rest) = decode used := by
  have halone := h.decided []
  rw [List.append_nil] at halone
  cases answer with
  | error cause => rw [decode_of_error (h.decided rest), decode_of_error halone]
  | ok e => rw [decode_of_ok (h.decided rest), decode_of_ok halone]

theorem decode_short_of_settles (h : Settles readEnvelope used answer) (hp : p <+: used)
    (hne : p ≠ used) : decode p = .error (.malformed .endOfBuffer) :=
  decode_of_error (h.waits p hp hne)

end Settled

/-- **Loading decides on a definite prefix.**  Whatever the answer, short of the end of the
buffer: some bytes at the front give it with anything behind them, and with fewer of them
the bytes end too early.  For a saved program those are all its bytes, so that it never
loads as a shorter one. -/
theorem decode_settled :
    (∀ bytes, decode bytes ≠ .error (.malformed .endOfBuffer) →
      ∃ c ≤ bytes.length,
        (∀ other, bytes.take c <+: other → decode other = decode bytes) ∧
        ∀ p, p <+: bytes.take c → p ≠ bytes.take c →
          decode p = .error (.malformed .endOfBuffer)) ∧
    ∀ s : SavedProgram, s.ops.length < 2 ^ 64 → ∀ p, p <+: s.encode → p ≠ s.encode →
      decode p = .error (.malformed .endOfBuffer) := by
  constructor
  · intro bytes hbytes
    have hread : readEnvelope bytes ≠ .error .endOfBuffer := by
      intro h
      exact hbytes (decode_of_error h)
    obtain ⟨used, answer, ⟨rest, rfl⟩, hused⟩ := incremental_readEnvelope bytes hread
    refine ⟨used.length, by simp, ?_⟩
    rw [List.take_left]
    constructor
    · rintro _ ⟨rest', rfl⟩
      rw [decode_append_of_settles hused rest', decode_append_of_settles hused rest]
    · intro p hp hne
      exact decode_short_of_settles hused hp hne
  · intro s hs p hp hne
    have hall := incremental_readEnvelope.settles (recovers_envelope s hs)
    exact decode_short_of_settles hall hp hne

/-- Bytes of version 2, written longer than needed and with junk behind them, and a program
cut off inside its second operation. -/
theorem decode_settled_other_version :
    decode [66, 70, 71, 79, 130, 0, 0, 1, 4, 255, 255] = .error (.unsupportedVersion 2) ∧
    (∃ c ≤ 11, ∀ other, [66, 70, 71, 79, 130, 0, 0, 1, 4, 255, 255].take c <+: other →
      decode other = .error (.unsupportedVersion 2)) ∧
    [66, 70, 71, 79, 1, 1, 2, 4, 2, 172] <+: encode ⟨true, [.output, .run .inc 300]⟩ ∧
    decode [66, 70, 71, 79, 1, 1, 2, 4, 2, 172] = .error (.malformed .endOfBuffer) := by
  obtain ⟨hanswer, hcut⟩ := decode_settled
  have hversion : decode [66, 70, 71, 79, 130, 0, 0, 1, 4, 255, 255] =
      .error (.unsupportedVersion 2) := by cbv
  have hbytes : encode ⟨true, [.output, .run .inc 300]⟩ =
      [66, 70, 71, 79, 1, 1, 2, 4, 2, 172, 2] := by
    simp [encode, magic, version, boolByte, opBytes, varint]
  have hp : [66, 70, 71, 79, 1, 1, 2, 4, 2, 172] <+: encode ⟨true, [.output, .run .inc 300]⟩ := by
    rw [hbytes]
    exact ⟨[2], rfl⟩
  obtain ⟨c, hc, hsame, -⟩ :=
    hanswer [66, 70, 71, 79, 130, 0, 0, 1, 4, 255, 255] (by simp [hversion])
  refine ⟨hversion, ⟨c, hc, ?_⟩, hp, hcut _ (by decide) _ hp (by rw [hbytes]; decide)⟩
  intro other hother
  rw [hsame other hother, hversion]

end Brainfuck.SavedProgram
