import Brainfuck.Proofs.Loops.Matching
import Brainfuck.Proofs.Machine.Undisturbed
import Brainfuck.Proofs.Source.Expansion

/-!
# Interpreting a text directly

The plainest meaning of a text: its instruction characters are carried out one at a
time, and a bracket looks for its partner among the characters each time it is needed.
No program is built, nothing is merged and no table of partners is kept.

* `Direct.act`, `Direct.goto` — what a character does, and which one comes next.
* `Direct.run` — the characters of a text, at most `budget` of them.
* `Direct.goto_eq_target` — a search among balanced characters finds what the machine
  keeps in its table.
* `Direct.run_eq_follow` — the machine executes the instructions of a text, one
  operation each, in lock step with the direct interpretation.
-/

namespace Brainfuck.Direct

open Loops Machine

/-- The characters that are instructions. -/
def instructions : List Char := ['>', '<', '+', '-', '.', ',', '[', ']']

/-- The instruction characters of a text. -/
def code (text : String) : List Char := text.toList.filter (instructions.contains ·)

/-- What an instruction does; `none` when it needs a cell outside the tape.  Cells count
modulo 256, and a read at the end of the input leaves the cell as it is. -/
def act (input : Array UInt8) (m : Memory) : Char → Option Memory
  | '>' => if m.ptr + 1 < m.tape.size then some { m with ptr := m.ptr + 1 } else none
  | '<' => if 0 < m.ptr then some { m with ptr := m.ptr - 1 } else none
  | '+' => m.tape[m.ptr]?.map fun v => { m with tape := m.tape.setIfInBounds m.ptr (v + 1) }
  | '-' => m.tape[m.ptr]?.map fun v => { m with tape := m.tape.setIfInBounds m.ptr (v - 1) }
  | '.' => m.tape[m.ptr]?.map fun v => { m with output := m.output.push v }
  | ',' =>
      match input[m.consumed]? with
      | none => some m
      | some b => m.tape[m.ptr]?.map fun _ =>
          { m with tape := m.tape.setIfInBounds m.ptr b, consumed := m.consumed + 1 }
  | _ => m.tape[m.ptr]?.map fun _ => m

/-- How many characters stand before the bracket `closes` that is the partner of one
that stands before all of them, when `depth` more have been opened since. -/
def distance (opens closes : Char) : Nat → List Char → Nat
  | _, [] => 0
  | depth, c :: cs =>
      if c = opens then distance opens closes (depth + 1) cs + 1
      else if c = closes then
        match depth with
        | 0 => 0
        | depth + 1 => distance opens closes depth cs + 1
      else distance opens closes depth cs + 1

/-- Where the instruction stands that follows the one at `pc`.  A bracket that jumps
looks for its partner forwards or backwards and goes on behind it. -/
def goto (code : List Char) (pc : Nat) (m : Memory) : Char → Nat
  | '[' =>
      if m.tape[m.ptr]? = some 0 then pc + 1 + distance '[' ']' 0 (code.drop (pc + 1)) + 1
      else pc + 1
  | ']' =>
      if m.tape[m.ptr]? = some 0 then pc + 1
      else pc - distance ']' '[' 0 (code.take pc).reverse
  | _ => pc + 1

/-- Carries out the instructions from `pc` on, at most `budget` of them; `none` when
that is not the end. -/
def run (code : List Char) (input : Array UInt8) : Nat → Nat → Memory → Option Ending
  | 0, pc, m => if pc < code.length then none else some (.halted m)
  | budget + 1, pc, m =>
      match code[pc]? with
      | none => some (.halted m)
      | some c =>
          match act input m c with
          | some m' => run code input budget (goto code pc m c) m'
          | none => some (.offTape m)

/-- The whole text, from blank memory. -/
def interpret (text : String) (size : Nat) (input : Array UInt8) (budget : Nat) : Option Ending :=
  run (code text) input budget 0 (.blank size)

/-- No prefix of the text closes more brackets than it opens, and at the end all are
closed. -/
def Balanced (text : String) : Prop :=
  (∀ k ≤ text.toList.length, (text.toList.take k).count ']' ≤ (text.toList.take k).count '[') ∧
    text.toList.count '[' = text.toList.count ']'

instance (text : String) : Decidable (Balanced text) := inferInstanceAs (Decidable (_ ∧ _))

/-! ## Characters and operations -/

/-- The characters are the operations, one by one. -/
def Spells (cs : List Char) (ops : List Op) : Prop := cs.map Op.ofChar? = ops.map some

theorem contains_instructions (c : Char) :
    instructions.contains c = (Op.ofChar? c).isSome := by
  unfold Op.ofChar?
  split <;> simp_all [instructions]

/-- The instruction characters of a text spell its instructions. -/
theorem spells_units (text : String) : Spells (code text) (Source.units text) := by
  unfold Spells code Source.units
  induction text.toList with
  | nil => rfl
  | cons c cs ih =>
      cases hop : Op.ofChar? c with
      | none =>
          rw [List.filterMap_cons_none hop, List.filter_cons_of_neg, ih]
          rw [contains_instructions, hop]
          exact Bool.false_ne_true
      | some op =>
          rw [List.filterMap_cons_some hop, List.filter_cons_of_pos, List.map_cons,
            List.map_cons, ih, hop]
          rw [contains_instructions, hop]
          rfl

theorem Spells.getElem? {cs : List Char} {ops : List Op} (h : Spells cs ops) (i : Nat) :
    cs[i]?.map Op.ofChar? = ops[i]?.map some := by
  rw [← List.getElem?_map, ← List.getElem?_map, h]

theorem Spells.length {cs : List Char} {ops : List Op} (h : Spells cs ops) :
    cs.length = ops.length := by
  have := congrArg List.length h
  simpa using this

theorem Spells.nil {cs : List Char} (h : Spells cs []) : cs = [] := by
  simpa [Spells] using h

theorem Spells.cons {cs : List Char} {op : Op} {ops : List Op} (h : Spells cs (op :: ops)) :
    ∃ c cs', cs = c :: cs' ∧ Op.ofChar? c = some op ∧ Spells cs' ops := by
  obtain ⟨c, cs', rfl, hc, hcs⟩ := List.map_eq_cons_iff.1 h
  exact ⟨c, cs', rfl, hc, hcs⟩

theorem Spells.append {cs : List Char} {ops ops' : List Op} (h : Spells cs (ops ++ ops')) :
    ∃ as bs, cs = as ++ bs ∧ Spells as ops ∧ Spells bs ops' := by
  unfold Spells at h
  rw [List.map_append] at h
  obtain ⟨as, bs, rfl, has, hbs⟩ := List.map_eq_append_iff.1 h
  exact ⟨as, bs, rfl, has, hbs⟩

theorem eq_open_of_ofChar {c : Char} (h : Op.ofChar? c = some .openLoop) : c = '[' := by
  unfold Op.ofChar? at h
  split at h <;> first | rfl | cases h

theorem eq_close_of_ofChar {c : Char} (h : Op.ofChar? c = some .closeLoop) : c = ']' := by
  unfold Op.ofChar? at h
  split at h <;> first | rfl | cases h

theorem ne_of_ofChar_plain {c : Char} {op : Op} (h : Op.ofChar? c = some op)
    (hop : op.isBracket = false) : c ≠ '[' ∧ c ≠ ']' := by
  constructor
  · rintro rfl
    cases h
    cases hop
  · rintro rfl
    cases h
    cases hop

/-! ## Looking for a partner -/

/-- A search passes over the characters whatever depth it is at. -/
def Skips (opens closes : Char) (cs : List Char) : Prop :=
  ∀ depth rest, distance opens closes depth (cs ++ rest) =
    cs.length + distance opens closes depth rest

section Skips

variable {opens closes : Char} {cs ds : List Char}

theorem distance_partner (hne : closes ≠ opens) (rest : List Char) :
    distance opens closes 0 (closes :: rest) = 0 := by
  simp [distance, hne]

theorem skips_nil : Skips opens closes [] := by
  intro depth rest
  simp

theorem Skips.append (h : Skips opens closes cs) (h' : Skips opens closes ds) :
    Skips opens closes (cs ++ ds) := by
  intro depth rest
  rw [List.append_assoc, h, h', List.length_append, Nat.add_assoc]

theorem skips_plain {c : Char} (ho : c ≠ opens) (hc : c ≠ closes) : Skips opens closes [c] := by
  intro depth rest
  simp [distance, ho, hc, Nat.add_comm]

theorem Skips.loop (hne : closes ≠ opens) (h : Skips opens closes cs) :
    Skips opens closes (opens :: cs ++ [closes]) := by
  intro depth rest
  have hopen : distance opens closes depth (opens :: (cs ++ (closes :: rest))) =
      distance opens closes (depth + 1) (cs ++ (closes :: rest)) + 1 := by
    simp [distance]
  have hclose : distance opens closes (depth + 1) (closes :: rest) =
      distance opens closes depth rest + 1 := by
    simp [distance, hne]
  have happ : opens :: cs ++ [closes] ++ rest = opens :: (cs ++ (closes :: rest)) := by simp
  rw [happ, hopen, h, hclose]
  simp only [List.length_append, List.length_cons, List.length_nil]
  omega

/-- A search in either direction passes over balanced characters. -/
theorem skips_of_nested {ops : List Op} (hops : Nested ops) :
    ∀ {cs : List Char}, Spells cs ops → Skips '[' ']' cs ∧ Skips ']' '[' cs.reverse := by
  induction hops with
  | nil =>
      intro cs hcs
      rw [hcs.nil]
      exact ⟨skips_nil, skips_nil⟩
  | plain hop _ ih =>
      intro cs hcs
      obtain ⟨c, cs, rfl, hc, hrest⟩ := hcs.cons
      obtain ⟨ho, hcl⟩ := ne_of_ofChar_plain hc hop
      obtain ⟨hfwd, hback⟩ := ih hrest
      rw [List.reverse_cons]
      exact ⟨(skips_plain ho hcl).append hfwd, hback.append (skips_plain hcl ho)⟩
  | loop _ _ ihbody ihrest =>
      intro cs hcs
      obtain ⟨c, cs, rfl, hc, hcs⟩ := hcs.cons
      obtain ⟨body, cs, rfl, hbody, hcs⟩ := hcs.append
      obtain ⟨d, rest, rfl, hd, hrest⟩ := hcs.cons
      cases eq_open_of_ofChar hc
      cases eq_close_of_ofChar hd
      obtain ⟨hfwd, hback⟩ := ihbody hbody
      obtain ⟨hfwd', hback'⟩ := ihrest hrest
      constructor
      · have h := (hfwd.loop (by decide)).append hfwd'
        simpa using h
      · have h := hback'.append (hback.loop (by decide))
        simpa using h

/-- From either bracket of a loop the search ends at the other one. -/
theorem distance_of_encloses {ops : List Op} {i j : Nat} (h : Encloses ops i j)
    (hcs : Spells cs ops) :
    i + 1 + distance '[' ']' 0 (cs.drop (i + 1)) = j ∧
      j - distance ']' '[' 0 (cs.take j).reverse = i + 1 := by
  obtain ⟨before, body, after, rfl, hbody, rfl, rfl⟩ := h
  obtain ⟨as, cs, rfl, has, hcs⟩ := hcs.append
  obtain ⟨c, cs, rfl, hc, hcs⟩ := hcs.cons
  obtain ⟨bs, cs, rfl, hbs, hcs⟩ := hcs.append
  obtain ⟨d, rest, rfl, hd, -⟩ := hcs.cons
  cases eq_open_of_ofChar hc
  cases eq_close_of_ofChar hd
  obtain ⟨hfwd, hback⟩ := skips_of_nested hbody hbs
  rw [← has.length, ← hbs.length]
  constructor
  · have hdrop : (as ++ '[' :: (bs ++ ']' :: rest)).drop (as.length + 1) = bs ++ ']' :: rest := by
      rw [← List.drop_drop, List.drop_left, List.drop_one, List.tail_cons]
    rw [hdrop, hfwd, distance_partner (by decide)]
    omega
  · have htake : (as ++ '[' :: (bs ++ ']' :: rest)).take (as.length + bs.length + 1) =
        as ++ '[' :: bs := by
      have happ : as ++ '[' :: (bs ++ ']' :: rest) = (as ++ '[' :: bs) ++ (']' :: rest) := by simp
      rw [happ]
      exact List.take_left' (by simp; omega)
    have hreverse : (as ++ '[' :: bs).reverse = bs.reverse ++ '[' :: as.reverse := by simp
    rw [htake, hreverse, hback, distance_partner (by decide), List.length_reverse]
    omega

end Skips

/-! ## Lock step with the machine -/

variable {input : Array UInt8} {cs : List Char} {ops : List Op} {jumps : Jumps} {c : Char}
  {op : Op} {pc budget : Nat} {m : Memory}

theorem act_eq_perform (hop : Op.ofChar? c = some op) : act input m c = perform input m op := by
  unfold Op.ofChar? at hop
  split at hop <;> cases hop <;> rfl

/-- A bracket finds what the machine keeps in its table. -/
theorem goto_eq_target (hcs : Spells cs ops) (hjumps : Jumps.ofProgram ops = .ok jumps)
    (hc : Op.ofChar? c = some op) (hop : ops[pc]? = some op) :
    goto cs pc m c = target jumps pc m.tape m.ptr op := by
  have hmatched := unmatched_of_ofProgram hjumps
  cases op with
  | openLoop =>
      cases eq_open_of_ofChar hc
      obtain ⟨j, hj⟩ := exists_partner hmatched hop rfl
      rw [goto, target, jumps_getD hjumps hj]
      rcases hj with hj | hj
      · rw [(distance_of_encloses (encloses_of_mem_pairs hj) hcs).1]
        by_cases hzero : m.tape[m.ptr]? = some 0
        · simp [hzero]
        · simp [hzero]
      · cases hop.symm.trans (encloses_of_mem_pairs hj).getElem?_right
  | closeLoop =>
      cases eq_close_of_ofChar hc
      obtain ⟨j, hj⟩ := exists_partner hmatched hop rfl
      rw [goto, target, jumps_getD hjumps hj]
      rcases hj with hj | hj
      · cases hop.symm.trans (encloses_of_mem_pairs hj).getElem?_left
      · rw [(distance_of_encloses (encloses_of_mem_pairs hj) hcs).2]
        by_cases hzero : m.tape[m.ptr]? = some 0
        · simp [hzero]
        · simp [hzero]
  | _ =>
      unfold Op.ofChar? at hc
      split at hc <;> cases hc <;> rfl

/-- The machine executes the operations that characters spell in lock step with the
direct interpretation of the characters. -/
theorem run_eq_follow (hcs : Spells cs ops) (hjumps : Jumps.ofProgram ops = .ok jumps) :
    run cs input budget pc m = follow ops.toArray jumps input budget pc m := by
  induction budget generalizing pc m with
  | zero => rw [run, follow, hcs.length, List.size_toArray]
  | succ budget ih =>
      have hget := hcs.getElem? pc
      rw [run, follow, List.getElem?_toArray]
      cases hop : ops[pc]? with
      | none =>
          rw [hop, Option.map_none, Option.map_eq_none_iff] at hget
          rw [hget]
      | some op =>
          rw [hop, Option.map_some, Option.map_eq_some_iff] at hget
          obtain ⟨c, hc, hofChar⟩ := hget
          rw [hc]
          simp only [act_eq_perform hofChar, goto_eq_target hcs hjumps hofChar hop]
          cases perform input m op with
          | none => rfl
          | some m' => exact ih

/-! ## Balance -/

theorem count_units (cs : List Char) :
    (cs.filterMap Op.ofChar?).count .openLoop = cs.count '[' ∧
      (cs.filterMap Op.ofChar?).count .closeLoop = cs.count ']' := by
  induction cs with
  | nil => exact ⟨rfl, rfl⟩
  | cons c cs ih =>
      cases hop : Op.ofChar? c with
      | none =>
          have hopen : c ≠ '[' := by rintro rfl; cases hop
          have hclose : c ≠ ']' := by rintro rfl; cases hop
          rw [List.filterMap_cons_none hop, List.count_cons_of_ne hopen,
            List.count_cons_of_ne hclose]
          exact ih
      | some op =>
          rw [List.filterMap_cons_some hop]
          cases hbracket : op.isBracket with
          | false =>
              obtain ⟨hopen, hclose⟩ := ne_of_ofChar_plain hop hbracket
              rw [(count_plain hbracket _).1, (count_plain hbracket _).2,
                List.count_cons_of_ne hopen, List.count_cons_of_ne hclose]
              exact ih
          | true =>
              rcases Op.eq_of_isBracket hbracket with rfl | rfl
              · cases eq_open_of_ofChar hop
                rw [(count_open _).1, (count_open _).2, ih.1, ih.2]
                exact ⟨by simp, by simp⟩
              · cases eq_close_of_ofChar hop
                rw [(count_close _).1, (count_close _).2, ih.1, ih.2]
                exact ⟨by simp, by simp⟩

/-- The brackets of a text are balanced as those of its instructions are. -/
theorem balanced_units_iff {text : String} :
    Loops.Balanced (Source.units text) ↔ Balanced text := by
  constructor
  · rintro ⟨hclosed, htotal⟩
    rw [Source.units, (count_units _).1, (count_units _).2] at htotal
    refine ⟨?_, htotal⟩
    intro k _
    have hk := hclosed _ ((List.take_prefix k text.toList).filterMap _)
    rwa [(count_units _).1, (count_units _).2] at hk
  · intro h
    constructor
    · intro p hp
      obtain ⟨q, hq, rfl⟩ := List.prefix_filterMap_iff.1 hp
      rw [(count_units q).1, (count_units q).2, List.prefix_iff_eq_take.1 hq]
      exact h.1 q.length hq.length_le
    · rw [Source.units, (count_units _).1, (count_units _).2]
      exact h.2

/-- A balanced text has instructions the machine takes. -/
theorem ofProgram_units {text : String} (h : Balanced text) :
    ∃ jumps, Jumps.ofProgram (Source.units text) = .ok jumps :=
  ofProgram_ok_iff.2 (balanced_iff_unmatched_eq_none.1 (balanced_units_iff.2 h))

end Brainfuck.Direct
