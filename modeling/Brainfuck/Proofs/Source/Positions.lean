import Brainfuck.Proofs.Source.Direct
import Mathlib.Algebra.GroupWithZero.Nat

/-!
# Where operations stand in a text

Each operation that is read keeps the position of its first character.  The position is
counted along while the text is read, and an operation is handed out long after it has been
taken, behind comments, line feeds and all repetitions of a run.  It is still the place at
which the characters of the text can be counted.

* `Position.behind` — the place behind some characters, by counting.
* `Source.InstructionAt` — the instruction that has so many others before it.
* `Source.Placed` — each operation stands at the first of the instructions it stands for.
* `Source.placed_readFrom` — reading keeps to this, whatever run is growing.
* `Source.position_readLocated` — the positions of a text, and their order.
-/

namespace Brainfuck

/-- How many instructions of a text an operation stands for. -/
def Op.weight (op : Op) : Nat := op.count?.elim 1 UInt32.toNat

theorem Op.weight_pos {op : Op} (h : op.Counted) : 0 < op.weight := by
  cases op with
  | run kind n =>
      refine Nat.pos_of_ne_zero fun hzero => h ?_
      exact congrArg some (UInt32.toNat_inj.1 hzero)
  | _ => exact Nat.one_pos

theorem Op.weight_ofChar {c : Char} {op : Op} (h : Op.ofChar? c = some op) : op.weight = 1 := by
  unfold Op.ofChar? at h
  split at h <;> cases h <;> rfl

/-- A run that grows stands for one instruction more, and stays where it is. -/
theorem Located.weight_grow {run longer : Located} {op : Op} (h : run.grow? op = some longer) :
    longer.op.weight = run.op.weight + 1 ∧ longer.position = run.position := by
  unfold Located.grow? at h
  split at h
  · obtain ⟨more, hmore, rfl⟩ := Option.map_eq_some_iff.1 h
    refine ⟨?_, rfl⟩
    cases hrun : run.op with
    | run kind n =>
        simp only [hrun, Op.extend?] at hmore
        split at hmore
        · cases hmore
        · rename_i hfull
          cases hmore
          exact toNat_succ hfull
    | _ => simp [hrun, Op.extend?] at hmore
  · cases h

/-! ## Counting lines and columns -/

namespace Position

/-- The place behind the characters `before`: its line is told by the line feeds among them,
its column by what stands behind the last of these. -/
def behind (before : List Char) : Position :=
  ⟨1 + before.count '\n', 1 + (before.reverse.takeWhile (· ≠ '\n')).length⟩

/-- `p` comes before `q`, in the order of reading. -/
def Precedes (p q : Position) : Prop := p.line < q.line ∨ p.line = q.line ∧ p.column < q.column

variable {p q r : Position}

theorem Precedes.trans (h : p.Precedes q) (h' : q.Precedes r) : p.Precedes r := by
  unfold Precedes at *
  omega

theorem precedes_after (p : Position) (c : Char) : p.Precedes (p.after c) := by
  unfold after
  split
  · exact .inl (Nat.lt_succ_self p.line)
  · exact .inr ⟨rfl, Nat.lt_succ_self p.column⟩

/-- Counting along gives the same as counting. -/
theorem after_behind (before : List Char) (c : Char) :
    (behind before).after c = behind (before ++ [c]) := by
  unfold after behind
  split
  · rename_i hc
    subst hc
    simp [Nat.add_assoc]
  · rename_i hc
    have hcount : (before ++ [c]).count '\n' = before.count '\n' := by
      rw [List.count_append, List.count_singleton, if_neg (by simpa using hc), Nat.add_zero]
    simp [hcount, hc, Nat.add_assoc]

theorem precedes_behind_append {more : List Char} (hmore : more ≠ []) (before : List Char) :
    (behind before).Precedes (behind (before ++ more)) := by
  induction more generalizing before with
  | nil => exact absurd rfl hmore
  | cons c more ih =>
      have hfirst : (behind before).Precedes (behind (before ++ [c])) := by
        rw [← after_behind]
        exact precedes_after _ c
      cases more with
      | nil => exact hfirst
      | cons d more =>
          have hrest := ih (List.cons_ne_nil d more) (before ++ [c])
          rw [List.append_assoc] at hrest
          exact hfirst.trans hrest

end Position

namespace Source

/-! ## The instructions of a text by number -/

variable {cs : List Char} {w v p q : Nat} {pos : Position}

/-- The character at the index `p` is an instruction, and has `w` others before it. -/
structure InstructionAt (cs : List Char) (w p : Nat) : Prop where
  char : ∃ c ∈ Direct.instructions, cs[p]? = some c
  before : (cs.take p).countP (Direct.instructions.contains ·) = w

/-- `pos` is the place of the instruction that has `w` others before it. -/
def StandsAt (cs : List Char) (w : Nat) (pos : Position) : Prop :=
  ∃ p, InstructionAt cs w p ∧ pos = .behind (cs.take p)

namespace InstructionAt

theorem count_lt (hp : InstructionAt cs w p) (hq : InstructionAt cs v q) (h : p < q) : w < v := by
  obtain ⟨c, hc, hget⟩ := hp.char
  have hnext : (cs.take (p + 1)).countP (Direct.instructions.contains ·) = w + 1 := by
    rw [List.take_add_one, hget, List.countP_append, hp.before]
    simp [hc]
  have hle : (cs.take (p + 1)).countP (Direct.instructions.contains ·) ≤ v := by
    rw [← hq.before]
    exact (List.take_prefix_take_left h).sublist.countP_le
  omega

/-- An instruction is told by how many others stand before it. -/
theorem unique (hp : InstructionAt cs w p) (hq : InstructionAt cs w q) : p = q := by
  rcases Nat.lt_trichotomy p q with h | h | h
  · exact absurd (hp.count_lt hq h) (Nat.lt_irrefl w)
  · exact h
  · exact absurd (hq.count_lt hp h) (Nat.lt_irrefl w)

/-- Instructions are in order when they are so by number. -/
theorem index_lt (hp : InstructionAt cs w p) (hq : InstructionAt cs v q) (h : w < v) : p < q := by
  rcases Nat.lt_trichotomy p q with hlt | rfl | hlt
  · exact hlt
  · have := hp.before.symm.trans hq.before
    omega
  · have := hq.count_lt hp hlt
    omega

/-- The next character of a text, if it is an instruction, has those before it in front. -/
theorem of_append {c : Char} {op : Op} (hop : Op.ofChar? c = some op) (before after : List Char) :
    InstructionAt (before ++ c :: after) (before.countP (Direct.instructions.contains ·))
      before.length where
  char := by
    refine ⟨c, ?_, by simp⟩
    rw [← List.contains_iff_mem, Direct.contains_instructions, hop]
    rfl
  before := by rw [List.take_left]

end InstructionAt

theorem StandsAt.precedes {pos' : Position} (h : StandsAt cs w pos) (h' : StandsAt cs v pos')
    (hlt : w < v) : pos.Precedes pos' := by
  obtain ⟨p, hp, rfl⟩ := h
  obtain ⟨q, hq, rfl⟩ := h'
  have hpq := hp.index_lt hq hlt
  obtain ⟨c, -, hget⟩ := hq.char
  have hlength : q < cs.length := (List.getElem?_eq_some_iff.1 hget).1
  have hsplit : cs.take q = cs.take p ++ (cs.drop p).take (q - p) := by
    rw [← List.take_add, Nat.add_sub_cancel' (Nat.le_of_lt hpq)]
  rw [hsplit]
  refine Position.precedes_behind_append ?_ (cs.take p)
  intro hnil
  have := congrArg List.length hnil
  rw [List.length_take, List.length_drop, List.length_nil] at this
  omega

/-! ## Operations in their places -/

/-- The operations stand for the instructions of a text from the one that has `w` others
before it on, and each has the place of the first that it stands for. -/
inductive Placed (cs : List Char) : Nat → List Located → Prop
  | nil {w : Nat} : Placed cs w []
  | cons {w : Nat} {l : Located} {rest : List Located} : StandsAt cs w l.position →
      Placed cs (w + l.op.weight) rest → Placed cs w (l :: rest)

variable {ls : List Located} {l : Located}

theorem Placed.getElem? (h : Placed cs w ls) {k : Nat} (hl : ls[k]? = some l) :
    StandsAt cs (w + ((ls.take k).map (·.op.weight)).sum) l.position := by
  induction h generalizing k with
  | nil => simp at hl
  | @cons w first rest hfirst _ ih =>
      cases k with
      | zero =>
          cases hl
          exact hfirst
      | succ k =>
          have hrest := ih (List.getElem?_cons_succ.symm.trans hl)
          rwa [Nat.add_assoc] at hrest

theorem Placed.exists_standsAt (h : Placed cs w ls) :
    ∀ l ∈ ls, ∃ v, w ≤ v ∧ StandsAt cs v l.position := by
  induction h with
  | nil => simp
  | @cons w first rest hfirst _ ih =>
      refine List.forall_mem_cons.2 ⟨⟨w, Nat.le_refl w, hfirst⟩, ?_⟩
      intro l hl
      obtain ⟨v, hv, hstands⟩ := ih l hl
      exact ⟨v, by omega, hstands⟩

/-- Operations that are in their places are in the order of reading. -/
theorem Placed.pairwise (h : Placed cs w ls) (hcounted : ∀ l ∈ ls, l.op.Counted) :
    ls.Pairwise fun a b => a.position.Precedes b.position := by
  induction h with
  | nil => exact .nil
  | @cons w first rest hfirst hrest ih =>
      obtain ⟨hc, hcs⟩ := List.forall_mem_cons.1 hcounted
      refine .cons ?_ (ih hcs)
      intro l hl
      obtain ⟨v, hv, hstands⟩ := hrest.exists_standsAt l hl
      have := Op.weight_pos hc
      exact hfirst.precedes hstands (by omega)

/-- The growing run is in its place if what follows it is. -/
theorem Placed.append_run {run : Option Located} (hrun : ∀ r ∈ run, StandsAt cs w r.position)
    (h : Placed cs (w + run.elim 0 (·.op.weight)) ls) : Placed cs w (run.toList ++ ls) := by
  cases run with
  | none => exact h
  | some r => exact .cons (hrun r rfl) h

/-- Reading puts operations in their places.  `before` has been read, and the growing run
stands for its last instructions. -/
theorem placed_readFrom {run : Option Located} {before after : List Char}
    (hrun : ∀ r ∈ run, StandsAt (before ++ after) w r.position)
    (hw : w + run.elim 0 (·.op.weight) = before.countP (Direct.instructions.contains ·)) :
    Placed (before ++ after) w (readFrom run (.behind before) after) := by
  induction after generalizing run before w with
  | nil =>
      rw [readFrom, ← List.append_nil run.toList]
      exact .append_run hrun .nil
  | cons c after ih =>
      have hsplit : before ++ c :: after = (before ++ [c]) ++ after := by simp
      have hcount : (before ++ [c]).countP (Direct.instructions.contains ·) =
          before.countP (Direct.instructions.contains ·) +
            if (Op.ofChar? c).isSome then 1 else 0 := by
        rw [List.countP_append, List.countP_singleton, Direct.contains_instructions]
      rw [readFrom, Position.after_behind]
      cases hop : Op.ofChar? c with
      | none =>
          rw [hop] at hcount
          rw [hsplit] at hrun ⊢
          exact ih hrun (hw.trans hcount.symm)
      | some op =>
          have hnew : StandsAt (before ++ c :: after)
              (before.countP (Direct.instructions.contains ·)) (.behind before) :=
            ⟨_, .of_append hop before after, by rw [List.take_left]⟩
          have hweight := Op.weight_ofChar hop
          rw [hop] at hcount
          dsimp only
          split
          · cases hgrow : run.bind (·.grow? op) with
            | some longer =>
                -- the run grows: it keeps its place and takes this instruction in
                obtain ⟨r, rfl, hr⟩ := Option.bind_eq_some_iff.1 hgrow
                obtain ⟨hlonger, hpos⟩ := Located.weight_grow hr
                rw [hsplit] at hrun ⊢
                refine ih ?_ ?_
                · rintro _ ⟨⟩
                  rw [hpos]
                  exact hrun r rfl
                · rw [hcount, ← hw]
                  simp [hlonger, Nat.add_assoc]
            | none =>
                -- the run is handed out, and another one starts at this instruction
                refine .append_run hrun ?_
                rw [hw]
                rw [hsplit] at hnew ⊢
                refine ih ?_ ?_
                · rintro _ ⟨⟩
                  exact hnew
                · rw [hcount]
                  simp [hweight]
          · refine .append_run hrun (.cons (hw ▸ hnew) ?_)
            rw [hw, hsplit]
            refine ih (by simp) ?_
            rw [hcount]
            simp [hweight]

theorem placed_readLocated (text : String) : Placed text.toList 0 (readLocated text) :=
  @placed_readFrom 0 none [] text.toList (by simp) rfl

/-- **Every operation keeps the position of its first character.**  Let `w` be the number of
instructions that the operations before it stand for.  Then the text has one instruction with
`w` others before it; the line of the operation is told by the line feeds before that
character, and its column by what stands between the last of them, or the start of the text,
and that character.  So positions increase from one operation to the next. -/
theorem position_readLocated (text : String) :
    (∀ k l, (readLocated text)[k]? = some l →
      let w := (((readLocated text).take k).map (·.op.weight)).sum
      ∃ p, InstructionAt text.toList w p ∧ (∀ q, InstructionAt text.toList w q → q = p) ∧
        l.position.line = 1 + (text.toList.take p).count '\n' ∧
        l.position.column = 1 + ((text.toList.take p).reverse.takeWhile (· ≠ '\n')).length) ∧
    (readLocated text).Pairwise fun a b => a.position.Precedes b.position := by
  have hplaced := placed_readLocated text
  constructor
  · intro k l hl
    obtain ⟨p, hp, hpos⟩ := hplaced.getElem? hl
    rw [Nat.zero_add] at hp
    refine ⟨p, hp, fun q hq => hq.unique hp, ?_, ?_⟩
    · rw [hpos, Position.behind]
    · rw [hpos, Position.behind]
  · refine hplaced.pairwise ?_
    intro l hl
    exact counted_of_mem_read l.op (List.mem_map_of_mem hl)

/-- The run of `+` is interrupted by a line feed and a comment, and what follows it stands on
the third line. -/
theorem position_readLocated_third_line :
    (readLocated "x+\n+ é\n >.")[1]? = some ⟨.run .right 1, ⟨3, 2⟩⟩ ∧
      ∃ p, InstructionAt "x+\n+ é\n >.".toList 2 p ∧
        3 = 1 + ("x+\n+ é\n >.".toList.take p).count '\n' ∧
        2 = 1 + (("x+\n+ é\n >.".toList.take p).reverse.takeWhile (· ≠ '\n')).length := by
  have hread : (readLocated "x+\n+ é\n >.")[1]? = some ⟨.run .right 1, ⟨3, 2⟩⟩ := by
    decide +kernel
  have hweights : (((readLocated "x+\n+ é\n >.").take 1).map (·.op.weight)).sum = 2 := by
    decide +kernel
  obtain ⟨p, hp, -, hline, hcolumn⟩ := (position_readLocated "x+\n+ é\n >.").1 1 _ hread
  rw [hweights] at hp
  exact ⟨hread, p, hp, hline, hcolumn⟩

end Source

end Brainfuck
