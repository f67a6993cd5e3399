import Brainfuck.Proofs.Wire.Format
import Brainfuck.Wire.Settings

/-!
# Settings are read back

The settings of the Go writer and of a machine are a few fields one behind the other: numbers,
texts, and a number that may be missing.  They are read back from their bytes, and a part of the
bytes is never taken for more than a part.  The bytes of a text may end inside a character; the
length in front of them tells, before they are looked at as characters, that some are missing.

* `Wire.textOf`, `Wire.optionOf` — what a reader goes on with, once a length or a mark is read.
* `Wire.WrittenText`, `Wire.WrittenOption` — the ways to write a text and an optional number.
* `Wire.recovers_text_iff`, `Wire.recovers_option_iff` — a reader gets a value back from exactly
  these bytes.
* `Wire.settings_read_back` — the settings that fit their format are those that are read back, and
  short of their bytes the bytes end too early.
-/

namespace Brainfuck

namespace Wire

variable {bytes used rest : List UInt8} {text : String} {length : Nat} {value : Option Nat}

/-! ## Text -/

theorem ofUtf8?_eq_some_iff : ofUtf8? bytes = some text ↔ bytes = utf8 text := by
  unfold ofUtf8? String.fromUTF8?
  constructor
  · intro h
    split at h
    · cases h
      rfl
    · cases h
  · rintro rfl
    exact dif_pos text.isValidUTF8

/-- What is read of a text once its length is known. -/
def textOf (length : Nat) : Reader String := fun bytes =>
  if length ≤ bytes.length then
    match ofUtf8? (bytes.take length) with
    | some s => .ok (s, bytes.drop length)
    | none => .error .badUtf8
  else .error .endOfBuffer

theorem readText_eq : readText = (readVarint .w64).andThen textOf := rfl

/-- What bytes say that are as many as their text has. -/
def textAnswer (used : List UInt8) : Except Malformed String :=
  match ofUtf8? used with
  | some s => .ok s
  | none => .error .badUtf8

theorem textOf_append (used rest : List UInt8) :
    textOf used.length (used ++ rest) = (textAnswer used).map fun s => (s, rest) := by
  rw [textOf, if_pos (by simp), List.take_left, List.drop_left, textAnswer]
  cases ofUtf8? used <;> rfl

theorem textOf_short (h : bytes.length < length) : textOf length bytes = .error .endOfBuffer :=
  if_neg (Nat.not_le.2 h)

/-- The bytes of a text are counted before they are read, so that fewer of them are never found to
be no text. -/
theorem settles_textOf (used : List UInt8) :
    Settles (textOf used.length) used (textAnswer used) := by
  refine ⟨textOf_append used, ?_⟩
  intro p hp hne
  apply textOf_short
  exact Nat.lt_of_le_of_ne hp.length_le fun heq => hne (hp.eq_of_length heq)

theorem incremental_textOf (length : Nat) : Incremental (textOf length) := by
  intro bytes hbytes
  have hle : length ≤ bytes.length := by
    apply Nat.le_of_not_lt
    intro hlt
    exact hbytes (textOf_short hlt)
  have hsettles := settles_textOf (bytes.take length)
  rw [List.length_take, Nat.min_eq_left hle] at hsettles
  exact ⟨bytes.take length, _, List.take_prefix length bytes, hsettles⟩

theorem incremental_readText : Incremental readText := by
  rw [readText_eq]
  exact (incremental_readVarint .w64).andThen incremental_textOf

theorem recovers_textOf_iff :
    Recovers (textOf length) bytes text ↔ bytes = utf8 text ∧ length = bytes.length := by
  constructor
  · intro h
    have halone := h []
    rw [List.append_nil] at halone
    by_cases hle : length ≤ bytes.length
    · rw [textOf, if_pos hle] at halone
      cases hutf : ofUtf8? (bytes.take length) with
      | none =>
          rw [hutf] at halone
          cases halone
      | some s =>
          -- nothing is left behind the text
          simp only [hutf, Except.ok.injEq, Prod.mk.injEq, List.drop_eq_nil_iff] at halone
          obtain ⟨rfl, hge⟩ := halone
          rw [List.take_of_length_le hge] at hutf
          exact ⟨ofUtf8?_eq_some_iff.1 hutf, Nat.le_antisymm hle hge⟩
    · rw [textOf_short (Nat.lt_of_not_le hle)] at halone
      cases halone
  · rintro ⟨rfl, rfl⟩
    intro rest
    rw [textOf_append, textAnswer, ofUtf8?_eq_some_iff.2 rfl]
    rfl

/-- The bytes are a way to write a text: a number of bytes, and as many bytes of UTF-8. -/
def WrittenText (text : String) (bytes : List UInt8) : Prop :=
  ∃ number, bytes = number ++ utf8 text ∧ WrittenNumber .w64 (utf8 text).length number

theorem recovers_text_iff : Recovers readText bytes text ↔ WrittenText text bytes := by
  rw [readText_eq, (incremental_readVarint .w64).recovers_andThen_iff incremental_textOf]
  constructor
  · rintro ⟨length, number, back, rfl, hnumber, hback⟩
    obtain ⟨rfl, rfl⟩ := recovers_textOf_iff.1 hback
    exact ⟨number, rfl, recovers_varint_iff.1 hnumber⟩
  · rintro ⟨number, rfl, hnumber⟩
    exact ⟨_, number, utf8 text, rfl, recovers_varint_iff.2 hnumber,
      recovers_textOf_iff.2 ⟨rfl, rfl⟩⟩

theorem writtenText_textBytes (h : (utf8 text).length < 2 ^ 64) :
    WrittenText text (textBytes text) :=
  ⟨varint (utf8 text).length, rfl, writtenNumber_varint h⟩

/-! ## Optional numbers -/

/-- What is read of an optional number once its mark is known. -/
def optionOf (b : UInt8) : Reader (Option Nat) :=
  if b = 0 then .succeed none
  else if b = 1 then (readVarint .w64).andThen fun n => .succeed (some n)
  else .fail .badOption

theorem readOption_eq : readOption = readByte.andThen optionOf := by
  funext bytes
  cases bytes with
  | nil => rfl
  | cons b rest =>
      change readOption (b :: rest) = optionOf b rest
      rw [readOption, optionOf]
      split
      · rfl
      · split
        · unfold Reader.andThen
          cases readVarint .w64 rest <;> rfl
        · rfl

theorem incremental_optionOf (b : UInt8) : Incremental (optionOf b) := by
  unfold optionOf
  split
  · exact incremental_succeed none
  · split
    · exact (incremental_readVarint .w64).andThen fun _ => incremental_succeed _
    · exact incremental_fail .badOption

theorem incremental_readOption : Incremental readOption := by
  rw [readOption_eq]
  exact incremental_readByte.andThen incremental_optionOf

/-- The bytes are a way to write an optional number: a mark, and the number if there is one. -/
def WrittenOption : Option Nat → List UInt8 → Prop
  | none, bytes => bytes = [0]
  | some n, bytes => ∃ number, bytes = 1 :: number ∧ WrittenNumber .w64 n number

theorem recovers_option_iff : Recovers readOption bytes value ↔ WrittenOption value bytes := by
  have hnumber (back : List UInt8) :
      Recovers ((readVarint .w64).andThen fun n => .succeed (some n)) back value ↔
        ∃ n, value = some n ∧ WrittenNumber .w64 n back := by
    rw [(incremental_readVarint .w64).recovers_andThen_iff fun _ => incremental_succeed _]
    constructor
    · rintro ⟨n, number, none, rfl, hn, hnone⟩
      obtain ⟨rfl, rfl⟩ := recovers_succeed_iff.1 hnone
      rw [List.append_nil]
      exact ⟨n, rfl, recovers_varint_iff.1 hn⟩
    · rintro ⟨n, rfl, hn⟩
      exact ⟨n, back, [], (List.append_nil back).symm, recovers_varint_iff.2 hn,
        recovers_succeed _⟩
  rw [readOption_eq, recovers_byte_andThen_iff]
  constructor
  · rintro ⟨b, back, rfl, hback⟩
    unfold optionOf at hback
    split at hback
    · obtain ⟨rfl, rfl⟩ := recovers_succeed_iff.1 hback
      simp_all [WrittenOption]
    · split at hback
      · obtain ⟨n, rfl, hn⟩ := (hnumber back).1 hback
        simp_all [WrittenOption]
      · exact absurd hback not_recovers_fail
  · cases value with
    | none =>
        rintro rfl
        exact ⟨0, [], rfl, recovers_succeed none⟩
    | some n =>
        rintro ⟨number, rfl, hn⟩
        exact ⟨1, number, rfl, (hnumber number).2 ⟨n, rfl, hn⟩⟩

theorem writtenOption_optionBytes (h : ∀ n, value = some n → n < 2 ^ 64) :
    WrittenOption value (optionBytes value) := by
  cases value with
  | none => rfl
  | some n => exact ⟨varint n, rfl, writtenNumber_varint (h n rfl)⟩

end Wire

open Wire

/-! ## Settings of the Go writer -/

namespace Go.Settings

variable {s : Settings} {bytes : List UInt8}

/-- The size of the tape and the numbers of bytes of the texts are below 2^64, as all sizes are. -/
structure Representable (s : Settings) : Prop where
  tapeSize : s.tapeSize < 2 ^ 64
  indent : (utf8 s.indent).length < 2 ^ 64
  packageName : (utf8 s.packageName).length < 2 ^ 64

theorem read_eq :
    Settings.read =
      (readVarint .w64).andThen fun tapeSize => readText.andThen fun indent =>
      readText.andThen fun packageName => .succeed ⟨tapeSize, indent, packageName⟩ := rfl

theorem incremental_name (tapeSize : Nat) (indent : String) :
    Incremental (readText.andThen fun packageName =>
      .succeed (Settings.mk tapeSize indent packageName)) :=
  incremental_readText.andThen fun _ => incremental_succeed _

theorem incremental_texts (tapeSize : Nat) :
    Incremental (readText.andThen fun indent => readText.andThen fun packageName =>
      .succeed (Settings.mk tapeSize indent packageName)) :=
  incremental_readText.andThen (incremental_name tapeSize)

theorem incremental_read : Incremental Settings.read := by
  rw [read_eq]
  exact (incremental_readVarint .w64).andThen incremental_texts

/-- Only settings that are representable are read back from bytes. -/
theorem representable_of_recovers (h : Recovers Settings.read bytes s) : s.Representable := by
  rw [read_eq, (incremental_readVarint .w64).recovers_andThen_iff incremental_texts] at h
  obtain ⟨tapeSize, _, _, -, hsize, h⟩ := h
  rw [incremental_readText.recovers_andThen_iff (incremental_name tapeSize)] at h
  obtain ⟨indent, _, _, -, hindent, h⟩ := h
  rw [incremental_readText.recovers_andThen_iff fun _ => incremental_succeed _] at h
  obtain ⟨packageName, _, _, -, hname, h⟩ := h
  obtain ⟨-, rfl⟩ := recovers_succeed_iff.1 h
  obtain ⟨_, -, hindent⟩ := recovers_text_iff.1 hindent
  obtain ⟨_, -, hname⟩ := recovers_text_iff.1 hname
  exact ⟨(recovers_varint_iff.1 hsize).fits, hindent.fits, hname.fits⟩

theorem recovers_encode (h : s.Representable) : Recovers Settings.read s.encode s := by
  have hbytes : s.encode =
      varint s.tapeSize ++ (textBytes s.indent ++ (textBytes s.packageName ++ [])) := by
    rw [encode, List.append_nil, List.append_assoc]
  rw [hbytes, read_eq]
  refine (recovers_varint_iff.2 (writtenNumber_varint h.tapeSize)).andThen ?_
  refine (recovers_text_iff.2 (writtenText_textBytes h.indent)).andThen ?_
  refine (recovers_text_iff.2 (writtenText_textBytes h.packageName)).andThen ?_
  exact recovers_succeed s

end Go.Settings

/-! ## Settings of a machine -/

namespace Machine.Settings

variable {s : Settings} {bytes : List UInt8}

/-- The size of the tape and the limit of steps, if there is one, are below 2^64. -/
structure Representable (s : Settings) : Prop where
  tapeSize : s.tapeSize < 2 ^ 64
  maxSteps : ∀ n, s.maxSteps = some n → n < 2 ^ 64

theorem read_eq :
    Settings.read =
      (readVarint .w64).andThen fun tapeSize => readOption.andThen fun maxSteps =>
      .succeed ⟨tapeSize, maxSteps⟩ := rfl

theorem incremental_limit (tapeSize : Nat) :
    Incremental (readOption.andThen fun maxSteps => .succeed (Settings.mk tapeSize maxSteps)) :=
  incremental_readOption.andThen fun _ => incremental_succeed _

theorem incremental_read : Incremental Settings.read := by
  rw [read_eq]
  exact (incremental_readVarint .w64).andThen incremental_limit

theorem representable_of_recovers (h : Recovers Settings.read bytes s) : s.Representable := by
  rw [read_eq, (incremental_readVarint .w64).recovers_andThen_iff incremental_limit] at h
  obtain ⟨tapeSize, _, _, -, hsize, h⟩ := h
  rw [incremental_readOption.recovers_andThen_iff fun _ => incremental_succeed _] at h
  obtain ⟨maxSteps, _, _, -, hlimit, h⟩ := h
  obtain ⟨-, rfl⟩ := recovers_succeed_iff.1 h
  refine ⟨(recovers_varint_iff.1 hsize).fits, ?_⟩
  rintro n rfl
  obtain ⟨_, -, hn⟩ := recovers_option_iff.1 hlimit
  exact hn.fits

theorem recovers_encode (h : s.Representable) : Recovers Settings.read s.encode s := by
  have hbytes : s.encode = varint s.tapeSize ++ (optionBytes s.maxSteps ++ []) := by
    rw [encode, List.append_nil]
  rw [hbytes, read_eq]
  refine (recovers_varint_iff.2 (writtenNumber_varint h.tapeSize)).andThen ?_
  refine (recovers_option_iff.2 (writtenOption_optionBytes h.maxSteps)).andThen ?_
  exact recovers_succeed s

end Machine.Settings

/-- **Settings are read back**, whatever stands behind their bytes, exactly when their sizes are
below 2^64; and then any part of their bytes that is not all of them ends too early.  So it is for
the settings of the Go writer, whatever characters their texts have, and for those of a machine,
with a limit or without. -/
theorem Wire.settings_read_back :
    (∀ s : Go.Settings, s.Representable ↔
      ∀ rest, Go.Settings.read (s.encode ++ rest) = .ok (s, rest)) ∧
    (∀ s : Go.Settings, s.Representable → ∀ p, p <+: s.encode → p ≠ s.encode →
      Go.Settings.read p = .error .endOfBuffer) ∧
    (∀ s : Machine.Settings, s.Representable ↔
      ∀ rest, Machine.Settings.read (s.encode ++ rest) = .ok (s, rest)) ∧
    ∀ s : Machine.Settings, s.Representable → ∀ p, p <+: s.encode → p ≠ s.encode →
      Machine.Settings.read p = .error .endOfBuffer := by
  refine ⟨?_, ?_, ?_, ?_⟩
  · intro s
    exact ⟨Go.Settings.recovers_encode, Go.Settings.representable_of_recovers⟩
  · intro s hs
    exact (Go.Settings.incremental_read.settles (Go.Settings.recovers_encode hs)).waits
  · intro s
    exact ⟨Machine.Settings.recovers_encode, Machine.Settings.representable_of_recovers⟩
  · intro s hs
    exact (Machine.Settings.incremental_read.settles (Machine.Settings.recovers_encode hs)).waits

/-- Bytes that end between the two bytes of a character end too early, and the largest limit there
is is read back. -/
theorem Wire.settings_read_back_inside_character :
    (Go.Settings.mk 300 "é" "main").Representable ∧
      [172, 2, 2, 195] <+: (Go.Settings.mk 300 "é" "main").encode ∧
      Go.Settings.read [172, 2, 2, 195] = .error .endOfBuffer ∧
      (Machine.Settings.mk 1 (some 18446744073709551615)).Representable ∧
      Machine.Settings.read ((Machine.Settings.mk 1 (some 18446744073709551615)).encode ++ [7]) =
        .ok (⟨1, some 18446744073709551615⟩, [7]) := by
  obtain ⟨-, hcut, hback, -⟩ := Wire.settings_read_back
  have hindent : utf8 "é" = [195, 169] := by rfl
  have hname : utf8 "main" = [109, 97, 105, 110] := by rfl
  have hbytes : (Go.Settings.mk 300 "é" "main").encode =
      [172, 2, 2, 195, 169, 4, 109, 97, 105, 110] := by
    simp [Go.Settings.encode, textBytes, hindent, hname, varint]
  have hgo : (Go.Settings.mk 300 "é" "main").Representable :=
    ⟨by decide, by rw [hindent]; decide, by rw [hname]; decide⟩
  have hfront : [172, 2, 2, 195] <+: (Go.Settings.mk 300 "é" "main").encode := by
    rw [hbytes]
    exact ⟨[169, 4, 109, 97, 105, 110], rfl⟩
  have hmachine : (Machine.Settings.mk 1 (some 18446744073709551615)).Representable := by
    refine ⟨by decide, ?_⟩
    rintro n ⟨⟩
    decide
  refine ⟨hgo, hfront, hcut _ hgo _ hfront ?_, hmachine, (hback _).1 hmachine [7]⟩
  rw [hbytes]
  decide

end Brainfuck
