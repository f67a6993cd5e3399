import Brainfuck.Proofs.Abbreviation.Simulation
import Brainfuck.Proofs.Source.Direct

/-!
# The program of a text means what the text says

Reading merges repetitions, shortening replaces loops, and the machine jumps by a table.
None of it changes what a balanced text does: interpreted directly, the text and its
shortened program come to the same end, and the program is not slower.

* `Source.interpret_iff_observed` — the two compared, without a limit and under one.
-/

namespace Brainfuck.Source

open Machine Abbreviation Direct

/-! ## Ends that are seen alike -/

section Alike

variable {ps : List Piece} {o o' : Observation}

theorem fault_eq_none_of_seenAlike (h : SeenAlike ps o o') :
    o.fault? = none ↔ o'.fault? = none := by
  rw [h.fault, Option.map_eq_none_iff]

theorem memory_of_seenAlike (h : SeenAlike ps o o') (hfault : o.fault? = none) :
    o.memory = o'.memory := by
  rw [Observation.memory, Observation.memory, h.tape, h.console, h.ptr (.inr hfault)]

/-- Runs that are seen alike leave the tape both or neither. -/
theorem outOfTape_of_seenAlike (h : SeenAlike ps o o') :
    (∃ i k, o.fault? = some (.outOfTape i k)) ↔ ∃ i k, o'.fault? = some (.outOfTape i k) := by
  rw [h.fault]
  cases o'.fault? with
  | none => simp
  | some fault => cases fault <;> simp [relabel]

end Alike

/-! ## The program and the instructions of a text -/

section Program

variable {text : String} {size : Nat} {around : Surroundings} {limit? : Option Nat}
  {o : Observation} {m : Memory} {tape output : Array UInt8}

theorem program_of_units (h : Observed ⟨size, limit?⟩ (units text) around o)
    (hlimit : ∀ limit, limit? = some limit → o.fault? ≠ some (.stepLimit limit)) :
    ∃ o', Observed ⟨size, limit?⟩ (Peephole.shorten (read text)) around o' ∧
      SeenAlike (pieces text) o' o := by
  rw [← long_pieces_read] at h
  rw [← short_pieces_read]
  exact observed_short_of_long sound_of_mem_pieces h hlimit

theorem units_of_program (h : Observed ⟨size, none⟩ (Peephole.shorten (read text)) around o) :
    ∃ o', Observed ⟨size, none⟩ (units text) around o' ∧ SeenAlike (pieces text) o o' := by
  rw [← short_pieces_read] at h
  rw [← long_pieces_read]
  exact observed_long_of_short sound_of_mem_pieces h

/-- The program of a text comes to its end where its instructions do, also under a limit
that leaves the instructions time to do so. -/
theorem program_halted_of_units
    (h : ∃ o, Observed ⟨size, limit?⟩ (units text) around o ∧ o.fault? = none ∧ o.memory = m) :
    ∃ o, Observed ⟨size, limit?⟩ (Peephole.shorten (read text)) around o ∧ o.fault? = none ∧
      o.memory = m := by
  obtain ⟨o, ho, hfault, rfl⟩ := h
  obtain ⟨o', ho', halike⟩ := program_of_units ho (by rw [hfault]; nofun)
  have hfault' := (fault_eq_none_of_seenAlike halike).2 hfault
  exact ⟨o', ho', hfault', memory_of_seenAlike halike hfault'⟩

theorem units_halted_of_program
    (h : ∃ o, Observed ⟨size, none⟩ (Peephole.shorten (read text)) around o ∧ o.fault? = none ∧
      o.memory = m) :
    ∃ o, Observed ⟨size, none⟩ (units text) around o ∧ o.fault? = none ∧ o.memory = m := by
  obtain ⟨o, ho, hfault, rfl⟩ := h
  obtain ⟨o', ho', halike⟩ := units_of_program ho
  exact ⟨o', ho', (fault_eq_none_of_seenAlike halike).1 hfault,
    (memory_of_seenAlike halike hfault).symm⟩

/-- The program of a text leaves the tape where its instructions do. -/
theorem outOfTape_units_iff :
    (∃ o i k, Observed ⟨size, none⟩ (units text) around o ∧ o.fault? = some (.outOfTape i k) ∧
        o.tape = tape ∧ o.console.output = output) ↔
      ∃ o i k, Observed ⟨size, none⟩ (Peephole.shorten (read text)) around o ∧
        o.fault? = some (.outOfTape i k) ∧ o.tape = tape ∧ o.console.output = output := by
  constructor
  · rintro ⟨o, i, k, ho, hfault, rfl, rfl⟩
    obtain ⟨o', ho', halike⟩ := program_of_units ho nofun
    obtain ⟨i', k', hfault'⟩ := (outOfTape_of_seenAlike halike).2 ⟨i, k, hfault⟩
    exact ⟨o', i', k', ho', hfault', halike.tape.symm, by rw [halike.console]⟩
  · rintro ⟨o, i, k, ho, hfault, rfl, rfl⟩
    obtain ⟨o', ho', halike⟩ := units_of_program ho
    obtain ⟨i', k', hfault'⟩ := (outOfTape_of_seenAlike halike).1 ⟨i, k, hfault⟩
    exact ⟨o', i', k', ho', hfault', halike.tape, by rw [halike.console]⟩

end Program

/-! ## The program and the text -/

/-- **The shortened program of a balanced text does what the text says.** Without a
limit, the direct interpretation comes to its end if and only if the machine does, with
the same tape, pointer, output and number of bytes read, and it leaves the tape if and
only if the machine does, with the same tape and output.  A limit that is enough for the
characters of the text is enough for the program. -/
theorem interpret_iff_observed {text : String} (hbalanced : Balanced text) (size : Nat)
    (input : Array UInt8) :
    (∀ m, (∃ budget, interpret text size input budget = some (.halted m)) ↔
      ∃ o, Observed ⟨size, none⟩ (Peephole.shorten (read text)) { input } o ∧
        o.fault? = none ∧ o.memory = m) ∧
    (∀ tape output,
      (∃ budget m, interpret text size input budget = some (.offTape m) ∧
        m.tape = tape ∧ m.output = output) ↔
      ∃ o i k, Observed ⟨size, none⟩ (Peephole.shorten (read text)) { input } o ∧
        o.fault? = some (.outOfTape i k) ∧ o.tape = tape ∧ o.console.output = output) ∧
    ∀ limit m, interpret text size input limit = some (.halted m) →
      ∃ o, Observed ⟨size, some limit⟩ (Peephole.shorten (read text)) { input } o ∧
        o.fault? = none ∧ o.memory = m := by
  obtain ⟨jumps, hjumps⟩ := ofProgram_units hbalanced
  have hfollow : ∀ budget, interpret text size input budget =
      follow (units text).toArray jumps input budget 0 (.blank size) :=
    fun budget => run_eq_follow (spells_units text) hjumps
  simp only [hfollow]
  refine ⟨fun m => ?_, fun tape output => ?_, fun limit m h => ?_⟩
  · rw [exists_follow_halted_iff hjumps]
    exact ⟨program_halted_of_units, units_halted_of_program⟩
  · rw [exists_follow_offTape_iff hjumps, outOfTape_units_iff]
  · exact program_halted_of_units ((follow_halted_iff hjumps).1 h)

/-- A multiplication with a comment in it, on a tape that is just long enough: the inner
loops are carried out character by character on one side and partly at once on the
other. -/
theorem interpret_iff_observed_product :
    Balanced ",[-] x +++[>++<-]>." ∧
      ∃ o, Observed ⟨2, some 40⟩ (Peephole.shorten (read ",[-] x +++[>++<-]>."))
          { input := #[7] } o ∧
        o.fault? = none ∧ o.memory = ⟨#[0, 6], 1, #[6], 1⟩ := by
  have hbalanced : Balanced ",[-] x +++[>++<-]>." := by decide
  exact ⟨hbalanced, (interpret_iff_observed hbalanced 2 #[7]).2.2 40 _ (by decide)⟩

end Brainfuck.Source
