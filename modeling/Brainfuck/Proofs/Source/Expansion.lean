import Brainfuck.Peephole
import Brainfuck.Proofs.Abbreviation.Layout
import Brainfuck.Source

/-!
# What a text is read into

Reading merges repetitions and shortening replaces loops, and both can be undone:
written out operation by operation, the program of a text is the sequence of its
instructions.

* `Op.expand` — the instructions an operation stands for.
* `Source.units` — the instructions of a text, one operation each.
* `Source.expand_readFrom` — reading keeps the instructions, whatever comments stand
  between them and wherever a full run is split.
* `Source.long_pieces_read` — so does reading followed by shortening.
-/

namespace Brainfuck

/-! ## Operations written out -/

/-- The instructions an operation stands for, one operation each. -/
def Op.expand : Op → List Op
  | .run kind n => List.replicate n.toNat (.run kind 1)
  | .clear => [.openLoop, .run .dec 1, .closeLoop]
  | op => [op]

theorem Op.expand_ofChar {c : Char} {op : Op} (h : Op.ofChar? c = some op) : op.expand = [op] := by
  unfold Op.ofChar? at h
  split at h <;> cases h <;> rfl

theorem Op.counted_ofChar {c : Char} {op : Op} (h : Op.ofChar? c = some op) : op.Counted := by
  unfold Op.ofChar? at h
  unfold Op.Counted
  split at h <;> cases h <;> decide

/-- An operation that is not a run of length zero is a sound abbreviation. -/
theorem Op.sound_expand {op : Op} (h : op.Counted) :
    (⟨op, op.expand⟩ : Abbreviation.Piece).Sound := by
  cases op with
  | run kind n => exact .repeated kind fun hn => h (congrArg some hn)
  | clear => exact .exact .clear
  | _ => exact .exact (.itself _)

/-! ## Growing a run -/

theorem toNat_succ {n : UInt32} (h : n ≠ Op.fullCount) : (n + 1).toNat = n.toNat + 1 := by
  have hlt : n.toNat < 4294967295 := by
    have hle := n.toNat_lt
    have hne : n.toNat ≠ 4294967295 := fun heq => h (UInt32.toNat_inj.1 heq)
    omega
  rw [UInt32.toNat_add]
  exact Nat.mod_eq_of_lt (by simpa using Nat.succ_lt_succ hlt)

/-- A run that grows stands for one instruction more. -/
theorem Located.expand_grow {run longer : Located} {c : Char} {op : Op}
    (hop : Op.ofChar? c = some op) (h : run.grow? op = some longer) :
    longer.op.expand = run.op.expand ++ [op] ∧ longer.op.Counted := by
  obtain ⟨runOp, pos⟩ := run
  unfold Located.grow? at h
  split at h
  · rename_i hsame
    cases runOp with
    | run kind n =>
        cases op with
        | run kind' n' =>
            have hone : n' = 1 := by
              have hexpand := Op.expand_ofChar hop
              have hlength := congrArg List.length hexpand
              simp only [Op.expand, List.length_replicate, List.length_singleton] at hlength
              exact UInt32.toNat_inj.1 hlength
            have hkind : kind = kind' := by simpa [Op.sameKind] using hsame
            subst hone hkind
            by_cases hfull : n = Op.fullCount
            · simp [Op.extend?, hfull] at h
            · simp only [Op.extend?, hfull, if_false, Option.map_some, Option.some.injEq] at h
              subst h
              have hsucc := toNat_succ hfull
              refine ⟨?_, fun hzero => ?_⟩
              · simp only [Op.expand, hsucc, List.replicate_succ']
              · rw [Op.count?, Option.some.injEq] at hzero
                rw [hzero] at hsucc
                cases hsucc
        | _ => simp [Op.sameKind] at hsame
    | _ => simp [Op.extend?] at h
  · cases h

namespace Source

/-! ## Reading -/

/-- The instructions of a text, one operation each. -/
def units (text : String) : List Op := text.toList.filterMap Op.ofChar?

/-- Reading keeps the instructions: written out, what is read is the growing run
followed by the instructions of the characters. -/
theorem expand_readFrom (run : Option Located) (pos : Position) (cs : List Char) :
    (readFrom run pos cs).flatMap (·.op.expand) =
      run.toList.flatMap (·.op.expand) ++ cs.filterMap Op.ofChar? := by
  induction cs generalizing run pos with
  | nil => simp [readFrom]
  | cons c cs ih =>
      rw [readFrom]
      cases hop : Op.ofChar? c with
      | none =>
          rw [List.filterMap_cons_none hop]
          exact ih run _
      | some op =>
          rw [List.filterMap_cons_some hop]
          dsimp only
          split
          · cases hgrow : run.bind (·.grow? op) with
            | none => simp [ih, Op.expand_ofChar hop]
            | some longer =>
                obtain ⟨r, rfl, hr⟩ := Option.bind_eq_some_iff.1 hgrow
                have hlonger := (Located.expand_grow hop hr).1
                simp [ih, hlonger]
          · simp [ih, Op.expand_ofChar hop]

/-- What holds of the operation of every character and of every run that has grown holds
of all that is read. -/
theorem forall_mem_readFrom {P : Op → Prop}
    (char : ∀ c op, Op.ofChar? c = some op → P op)
    (grown : ∀ (run longer : Located) c op, Op.ofChar? c = some op →
      run.grow? op = some longer → P longer.op)
    {run : Option Located} (hrun : ∀ r ∈ run, P r.op) (pos : Position) (cs : List Char) :
    ∀ r ∈ readFrom run pos cs, P r.op := by
  induction cs generalizing run pos with
  | nil => simpa [readFrom] using hrun
  | cons c cs ih =>
      have hrun' : ∀ r ∈ run.toList, P r.op := fun r hr => hrun r (Option.mem_toList.1 hr)
      rw [readFrom]
      cases hop : Op.ofChar? c with
      | none => exact ih hrun _
      | some op =>
          have hnew : P (⟨op, pos⟩ : Located).op := char c op hop
          dsimp only
          split
          · cases hgrow : run.bind (·.grow? op) with
            | none =>
                refine List.forall_mem_append.2 ⟨hrun', ih ?_ _⟩
                rintro r ⟨⟩
                exact hnew
            | some longer =>
                obtain ⟨r, rfl, hr⟩ := Option.bind_eq_some_iff.1 hgrow
                refine ih ?_ _
                rintro r ⟨⟩
                exact grown _ _ c op hop hr
          · refine List.forall_mem_append.2 ⟨hrun', List.forall_mem_cons.2 ⟨hnew, ih ?_ _⟩⟩
            nofun

theorem expand_read (text : String) : (read text).flatMap Op.expand = units text := by
  have h := expand_readFrom none .start text.toList
  rw [read, readLocated, List.flatMap_map, h]
  rfl

theorem counted_of_mem_read {text : String} : ∀ op ∈ read text, op.Counted := by
  intro op hop
  obtain ⟨r, hr, rfl⟩ := List.mem_map.1 hop
  have hnone : ∀ r ∈ (none : Option Located), r.op.Counted := by simp
  exact forall_mem_readFrom (fun _ _ => Op.counted_ofChar)
    (fun _ _ _ _ hop hgrow => (Located.expand_grow hop hgrow).2) hnone _ _ r hr

end Source

/-! ## Shortening -/

namespace Peephole

theorem expand_shorten (ops : List Op) :
    (shorten ops).flatMap Op.expand = ops.flatMap Op.expand := by
  induction ops using shorten.induct with
  | case1 => rfl
  | case2 rest ih =>
      rw [shorten, List.flatMap_cons, ih]
      rfl
  | case3 op rest hne ih => rw [shorten.eq_3 _ _ hne, List.flatMap_cons, List.flatMap_cons, ih]

theorem counted_of_mem_shorten {ops : List Op} (h : ∀ op ∈ ops, op.Counted) :
    ∀ op ∈ shorten ops, op.Counted := by
  induction ops using shorten.induct with
  | case1 => exact List.forall_mem_nil _
  | case2 rest ih =>
      have hclear : Op.clear.Counted := (Option.some_ne_none 0).symm
      rw [shorten]
      refine List.forall_mem_cons.2 ⟨hclear, ih fun op hop => h op ?_⟩
      simp [hop]
  | case3 op rest hne ih =>
      rw [shorten.eq_3 _ _ hne]
      obtain ⟨hop, hrest⟩ := List.forall_mem_cons.1 h
      exact List.forall_mem_cons.2 ⟨hop, ih hrest⟩

end Peephole

namespace Source

/-- The shortened program of a text, each operation with the instructions it stands
for. -/
def pieces (text : String) : List Abbreviation.Piece :=
  (Peephole.shorten (read text)).map fun op => ⟨op, op.expand⟩

theorem short_pieces_read (text : String) :
    Abbreviation.short (pieces text) = Peephole.shorten (read text) := by
  rw [Abbreviation.short, pieces, List.map_map]
  exact List.map_id _

theorem long_pieces_read (text : String) : Abbreviation.long (pieces text) = units text := by
  rw [Abbreviation.long, pieces, List.flatMap_map, Peephole.expand_shorten, expand_read]

theorem sound_of_mem_pieces {text : String} : ∀ p ∈ pieces text, p.Sound := by
  intro p hp
  obtain ⟨op, hop, rfl⟩ := List.mem_map.1 hp
  exact Op.sound_expand (Peephole.counted_of_mem_shorten counted_of_mem_read op hop)

end Source

end Brainfuck
