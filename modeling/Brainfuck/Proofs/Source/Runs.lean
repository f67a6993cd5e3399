import Brainfuck.Proofs.Source.Direct
import Mathlib.Data.List.Chain

/-!
# Runs are as long as they can be

Reading a text is run-length compression of its instructions, and there is only one way
to do it.  A run ends where another instruction follows, where the text ends, or where
its count is full; in the last case the same instruction may go on right behind it.

* `Op.singles` — the repetitions of a run, one operation each.
* `MaximalRuns` — what it is for operations to be the longest runs of some instructions.
* `Source.maximalRuns_read` — a text is read into the longest runs.
* `MaximalRuns.eq` — instructions have no other longest runs.
* `Source.maximalRuns_iff_eq_read` — both together, and what follows for two texts.
-/

namespace Brainfuck

/-! ## The longest runs of some instructions -/

/-- The repetitions of a run, one operation each; any other operation stands alone. -/
def Op.singles : Op → List Op
  | .run kind n => List.replicate n.toNat (.run kind 1)
  | op => [op]

/-- `op` does not end too early before `next`: if `next` repeats its instruction, its
count is full. -/
def Op.EndsBefore (op next : Op) : Prop :=
  op.sameKind next = true → op.count? = some Op.fullCount

/-- The operations are the longest runs of the instructions `units`. -/
structure MaximalRuns (units ops : List Op) : Prop where
  /-- Written out, they are the instructions. -/
  singles : ops.flatMap Op.singles = units
  /-- No run is empty, and none is longer than a count can tell. -/
  counts : ∀ op ∈ ops, ∀ n, op.count? = some n → 1 ≤ n.toNat ∧ n.toNat ≤ Op.fullCount.toNat
  /-- Nothing has been shortened. -/
  noClear : .clear ∉ ops
  /-- No run goes on in the next one unless its count is full. -/
  apart : ops.IsChain Op.EndsBefore

namespace Op

theorem expand_eq_singles {op : Op} (h : op ≠ .clear) : op.expand = op.singles := by
  cases op with
  | clear => exact absurd rfl h
  | _ => rfl

/-- The first of the repetitions of an operation. -/
def single : Op → Op
  | .run kind _ => .run kind 1
  | op => op

theorem exists_singles_eq_cons {op : Op} (h : op.Counted) :
    ∃ more, op.singles = op.single :: more := by
  cases op with
  | run kind n =>
      have hn : n.toNat ≠ 0 := fun hzero => h (congrArg some (UInt32.toNat_inj.1 hzero))
      obtain ⟨m, hm⟩ := Nat.exists_eq_succ_of_ne_zero hn
      exact ⟨List.replicate m (.run kind 1), by rw [singles, hm]; rfl⟩
  | _ => exact ⟨[], rfl⟩

theorem sameKind_eq_true_iff {op next : Op} :
    op.sameKind next = true ↔ ∃ kind n m, op = .run kind n ∧ next = .run kind m := by
  cases op <;> cases next <;> simp [sameKind, eq_comm]

theorem counted_iff_one_le {op : Op} :
    op.Counted ↔ ∀ n, op.count? = some n → 1 ≤ n.toNat ∧ n.toNat ≤ fullCount.toNat := by
  cases op with
  | run kind n =>
      have hle : n.toNat ≤ fullCount.toNat := Nat.le_of_lt_succ n.toNat_lt
      have hzero : n = 0 ↔ n.toNat = 0 := UInt32.toNat_inj.symm
      simp only [Counted, count?, Option.some.injEq, Ne, hzero, forall_eq']
      omega
  | _ => simp [Counted, count?]

end Op

namespace Source

/-! ## A text is read into them -/

theorem sameKind_of_grow {run longer : Located} {op : Op} (h : run.grow? op = some longer)
    (a : Op) : a.sameKind longer.op = a.sameKind run.op := by
  unfold Located.grow? at h
  split at h
  · obtain ⟨more, hmore, rfl⟩ := Option.map_eq_some_iff.1 h
    cases hrun : run.op with
    | run kind n =>
        simp only [hrun, Op.extend?] at hmore
        split at hmore
        · cases hmore
        · cases hmore
          cases a <;> rfl
    | _ => simp [hrun, Op.extend?] at hmore
  · cases h

/-- A run that does not grow with a repetition of its instruction is full. -/
theorem endsBefore_of_not_grow {run : Located} {op : Op} (h : run.grow? op = none) :
    run.op.EndsBefore op := by
  intro hsame
  obtain ⟨kind, n, -, hrun, -⟩ := Op.sameKind_eq_true_iff.1 hsame
  rw [Located.grow?, if_pos hsame, Option.map_eq_none_iff, hrun, Op.extend?] at h
  split at h
  · rename_i hfull
    rw [hrun, hfull]
    rfl
  · cases h

theorem ne_clear_of_mem_readFrom (pos : Position) (cs : List Char) :
    ∀ r ∈ readFrom none pos cs, r.op ≠ .clear := by
  have hnone : ∀ r ∈ (none : Option Located), r.op ≠ .clear := by simp
  refine forall_mem_readFrom (P := (· ≠ .clear)) ?_ ?_ hnone pos cs
  · rintro c op hop rfl
    unfold Op.ofChar? at hop
    split at hop <;> cases hop
  · rintro run longer c op - hgrow hclear
    unfold Located.grow? at hgrow
    split at hgrow
    · obtain ⟨more, hmore, rfl⟩ := Option.map_eq_some_iff.1 hgrow
      cases hrun : run.op <;> grind [Op.extend?]
    · cases hgrow

/-- The growing run is handed out first, whatever its count has become by then. -/
theorem exists_readFrom_some (run : Located) (pos : Position) (cs : List Char) :
    ∃ first rest, readFrom (some run) pos cs = first :: rest ∧
      ∀ a, Op.sameKind a first.op = Op.sameKind a run.op := by
  induction cs generalizing run pos with
  | nil => exact ⟨run, [], rfl, fun _ => rfl⟩
  | cons c cs ih =>
      rw [readFrom]
      cases hop : Op.ofChar? c with
      | none => exact ih run _
      | some op =>
          dsimp only
          split
          · rw [Option.bind_some]
            cases hgrow : run.grow? op with
            | none => exact ⟨run, _, rfl, fun _ => rfl⟩
            | some longer =>
                obtain ⟨first, rest, heq, hsame⟩ := ih longer (pos.after c)
                exact ⟨first, rest, heq, fun a => (hsame a).trans (sameKind_of_grow hgrow a)⟩
          · exact ⟨run, _, rfl, fun _ => rfl⟩

theorem isChain_readFrom (run : Option Located) (pos : Position) (cs : List Char) :
    ((readFrom run pos cs).map (·.op)).IsChain Op.EndsBefore := by
  induction cs generalizing run pos with
  | nil => cases run <;> simp [readFrom]
  | cons c cs ih =>
      rw [readFrom]
      cases hop : Op.ofChar? c with
      | none => exact ih run _
      | some op =>
          dsimp only
          split
          · cases hgrow : run.bind (·.grow? op) with
            | some longer => exact ih (some longer) _
            | none =>
                -- the old run is followed by one that starts with `op`
                have hrest := ih (some ⟨op, pos⟩) (pos.after c)
                obtain ⟨first, rest, heq, hsame⟩ := exists_readFrom_some ⟨op, pos⟩ (pos.after c) cs
                cases run with
                | none => simpa using hrest
                | some r =>
                    rw [heq] at hrest ⊢
                    simp only [Option.toList_some, List.cons_append, List.nil_append,
                      List.map_cons] at hrest ⊢
                    refine List.isChain_cons_cons.2 ⟨?_, hrest⟩
                    intro hr
                    rw [hsame] at hr
                    exact endsBefore_of_not_grow hgrow hr
          · rename_i hrun
            have hsingle : ∀ a, ¬ Op.sameKind op a = true ∧ ¬ Op.sameKind a op = true := by
              intro a
              cases op <;> cases a <;> simp_all [Op.isRun, Op.count?, Op.sameKind]
            have hrest := ih none (pos.after c)
            have hnew : (op :: (readFrom none (pos.after c) cs).map (·.op)).IsChain
                Op.EndsBefore :=
              List.isChain_cons.2 ⟨fun next _ h => absurd h (hsingle next).1, hrest⟩
            cases run with
            | none => simpa using hnew
            | some r =>
                simp only [Option.toList_some, List.cons_append, List.nil_append, List.map_cons]
                exact List.isChain_cons_cons.2 ⟨fun h => absurd h (hsingle r.op).2, hnew⟩

/-- A text is read into the longest runs of its instructions. -/
theorem maximalRuns_read (text : String) : MaximalRuns (units text) (read text) := by
  have hclear : ∀ op ∈ read text, op ≠ .clear := by
    intro op hop
    obtain ⟨r, hr, rfl⟩ := List.mem_map.1 hop
    exact ne_clear_of_mem_readFrom .start text.toList r hr
  refine ⟨?_, ?_, fun h => hclear _ h rfl, isChain_readFrom none .start text.toList⟩
  · rw [← expand_read]
    exact List.flatMap_congr fun op hop => (Op.expand_eq_singles (hclear op hop)).symm
  · exact fun op hop => Op.counted_iff_one_le.1 (counted_of_mem_read op hop)

end Source

/-! ## There are no others -/

namespace MaximalRuns

variable {units ops ops' : List Op}

theorem counted (h : MaximalRuns units ops) : ∀ op ∈ ops, op.Counted :=
  fun op hop => Op.counted_iff_one_le.2 (h.counts op hop)

theorem tail {op : Op} (h : MaximalRuns units (op :: ops)) :
    MaximalRuns (ops.flatMap Op.singles) ops where
  singles := rfl
  counts := fun next hnext => h.counts next (List.mem_cons_of_mem op hnext)
  noClear := fun hclear => h.noClear (List.mem_cons_of_mem op hclear)
  apart := h.apart.of_cons

/-- How many repetitions of one instruction the instructions start with. -/
def lead (kind : RunKind) (units : List Op) : Nat :=
  (units.takeWhile (· = .run kind 1)).length

/-- What stands behind a run that is not full starts with another instruction. -/
theorem lead_tail {kind : RunKind} {n : UInt32} (h : MaximalRuns units (.run kind n :: ops))
    (hn : n ≠ Op.fullCount) : lead kind (ops.flatMap Op.singles) = 0 := by
  cases ops with
  | nil => rfl
  | cons next rest =>
      have hnext : (Op.run kind n).EndsBefore next := (List.isChain_cons_cons.1 h.apart).1
      obtain ⟨more, hmore⟩ := Op.exists_singles_eq_cons (h.counted next (by simp))
      have hne : next.single ≠ .run kind 1 := by
        intro heq
        cases next with
        | run kind' m =>
            cases heq
            have hfull := hnext (by simp [Op.sameKind])
            exact hn (Option.some.inj hfull)
        | _ => cases heq
      simp [lead, hmore, hne]

/-- The first run takes in as many repetitions as there are, up to a full count. -/
theorem count_eq {kind : RunKind} {n : UInt32} (h : MaximalRuns units (.run kind n :: ops)) :
    n.toNat = min (lead kind units) Op.fullCount.toNat := by
  have hle : n.toNat ≤ Op.fullCount.toNat := Nat.le_of_lt_succ n.toNat_lt
  have hlead : lead kind units = n.toNat + lead kind (ops.flatMap Op.singles) := by
    rw [← h.singles, List.flatMap_cons, Op.singles, lead, List.takeWhile_append_of_pos (by simp),
      List.length_append, List.length_replicate, lead]
  by_cases hn : n = Op.fullCount
  · rw [hlead, hn]
    omega
  · rw [hlead, lead_tail h hn]
    omega

/-- Longest runs of the same instructions start with the same operation. -/
theorem head_eq {op op' : Op} (h : MaximalRuns units (op :: ops))
    (h' : MaximalRuns units (op' :: ops')) : op = op' := by
  obtain ⟨more, hmore⟩ := Op.exists_singles_eq_cons (h.counted op (by simp))
  obtain ⟨more', hmore'⟩ := Op.exists_singles_eq_cons (h'.counted op' (by simp))
  have hsingle : op.single = op'.single := by
    have hunits := h.singles.trans h'.singles.symm
    simp only [List.flatMap_cons, hmore, hmore', List.cons_append, List.cons.injEq] at hunits
    exact hunits.1
  cases op with
  | run kind n =>
      cases op' with
      | run kind' n' =>
          cases hsingle
          rw [UInt32.toNat_inj.1 (h.count_eq.trans h'.count_eq.symm)]
      | _ => cases hsingle
  | _ =>
      cases op' with
      | run kind' n' => cases hsingle
      | _ => exact hsingle

/-- Instructions have only one list of longest runs. -/
theorem eq (h : MaximalRuns units ops) (h' : MaximalRuns units ops') : ops = ops' := by
  induction ops generalizing units ops' with
  | nil =>
      cases ops' with
      | nil => rfl
      | cons op' rest' =>
          obtain ⟨more, hmore⟩ := Op.exists_singles_eq_cons (h'.counted op' (by simp))
          have hunits := h.singles.trans h'.singles.symm
          simp [hmore] at hunits
  | cons op rest ih =>
      cases ops' with
      | nil =>
          obtain ⟨more, hmore⟩ := Op.exists_singles_eq_cons (h.counted op (by simp))
          have hunits := h.singles.trans h'.singles.symm
          simp [hmore] at hunits
      | cons op' rest' =>
          obtain rfl := h.head_eq h'
          have hrest : rest.flatMap Op.singles = rest'.flatMap Op.singles := by
            have hunits := h.singles.trans h'.singles.symm
            simpa using hunits
          have htail := h'.tail
          rw [← hrest] at htail
          rw [ih h.tail htail]

end MaximalRuns

namespace Source

/-! ## Texts with the same instructions -/

theorem eq_of_ofChar {c d : Char} {op : Op} (hc : Op.ofChar? c = some op)
    (hd : Op.ofChar? d = some op) : c = d := by
  unfold Op.ofChar? at hc hd
  split at hc <;> cases hc <;> split at hd <;> cases hd <;> rfl

/-- Operations are spelled in one way only. -/
theorem eq_of_spells {cs ds : List Char} {ops : List Op} (hcs : Direct.Spells cs ops)
    (hds : Direct.Spells ds ops) : cs = ds := by
  induction ops generalizing cs ds with
  | nil => rw [hcs.nil, hds.nil]
  | cons op ops ih =>
      obtain ⟨c, cs, rfl, hc, hcs⟩ := hcs.cons
      obtain ⟨d, ds, rfl, hd, hds⟩ := hds.cons
      rw [eq_of_ofChar hc hd, ih hcs hds]

/-- Texts have the same instructions if and only if they have the same instruction
characters. -/
theorem units_eq_iff_code_eq (text text' : String) :
    units text = units text' ↔ Direct.code text = Direct.code text' := by
  have hspells := Direct.spells_units text
  have hspells' := Direct.spells_units text'
  constructor
  · intro h
    rw [← h] at hspells'
    exact eq_of_spells hspells hspells'
  · intro h
    rw [← h] at hspells'
    exact (List.map_inj_right fun _ _ => Option.some.inj).1 (hspells.symm.trans hspells')

/-- **Reading is run-length compression, and the only one.**  Of all lists of operations
exactly the one that is read has the longest runs of the instructions of the text.  So
two texts are read alike if and only if they have the same instruction characters,
whatever comments stand between them. -/
theorem maximalRuns_iff_eq_read (text : String) :
    (∀ ops, MaximalRuns (units text) ops ↔ ops = read text) ∧
    ∀ text', read text = read text' ↔ Direct.code text = Direct.code text' := by
  constructor
  · intro ops
    constructor
    · exact fun h => h.eq (maximalRuns_read text)
    · rintro rfl
      exact maximalRuns_read text
  · intro text'
    rw [← units_eq_iff_code_eq]
    constructor
    · intro h
      rw [← (maximalRuns_read text).singles, h, (maximalRuns_read text').singles]
    · intro h
      have hread := maximalRuns_read text'
      rw [← h] at hread
      exact (maximalRuns_read text).eq hread

end Source

end Brainfuck
