import Brainfuck.Proofs.Statistics.Table
import Std.Data.HashMap
import Mathlib.Algebra.GroupWithZero.Nat
import Mathlib.Data.List.Induction
import Mathlib.Data.List.Nodup

/-!
# The rows of the table of operations

The operations of a program are counted in a table that may hand out its entries in any order, and
in another one each time.  The rows do not show it: no two of them are equal in the order they are
sorted by, so there is one way to sort them.

* `Statistics.Gathers` — the entries of such a table, in any order.
* `Statistics.gathers_tally`, `Statistics.gathers_hashed` — entries that are kept in a list, and
  those of a hash table.
* `Statistics.Gathers.sort_eq` — all of them are sorted into the same rows.
* `Statistics.listed_render` — the table of a program says these rows and no others.
* `Statistics.rows_well_defined` — what these rows are.
-/

namespace Brainfuck.Statistics

variable {ops other : List Op} {entries entries' : List Row} {a b : Row} {k n : Nat}
  {m name : String}

/-! ## Counting -/

/-- How many operations of a program have a mnemonic. -/
def countOf (ops : List Op) (name : String) : Nat :=
  ops.countP fun op => decide (op.mnemonic = name)

/-- The entries of a table that has each mnemonic of a program once, with the number of operations
that have it. -/
structure Gathers (ops : List Op) (entries : List Row) : Prop where
  nodup : (entries.map Row.mnemonic).Nodup
  mem_iff : ∀ row, row ∈ entries ↔ row.count = countOf ops row.mnemonic ∧ 0 < row.count

/-- What a table says of a mnemonic that was counted `n` times. -/
def counted (n : Nat) : Option Nat := if n = 0 then none else some n

theorem counted_eq_some_iff : counted n = some k ↔ k = n ∧ 0 < k := by
  unfold counted
  split
  · simp only [reduceCtorEq, false_iff]
    omega
  · simp only [Option.some.injEq]
    omega

theorem counted_getD (n : Nat) : (counted n).getD 0 = n := by
  unfold counted
  split
  · rename_i h
    exact h.symm
  · rfl

theorem countOf_concat (ops : List Op) (op : Op) (name : String) :
    countOf (ops ++ [op]) name = countOf ops name + if op.mnemonic = name then 1 else 0 := by
  simp [countOf, List.countP_append, List.countP_singleton]

/-- One more operation is one more for its mnemonic. -/
theorem counted_concat (ops : List Op) (op : Op) (name : String) :
    counted (countOf (ops ++ [op]) name) =
      if op.mnemonic = name then some ((counted (countOf ops name)).getD 0 + 1)
      else counted (countOf ops name) := by
  rw [countOf_concat, counted_getD]
  split
  · exact if_neg (Nat.succ_ne_zero _)
  · rfl

/-! ## Entries in a list -/

/-- The count that rows have for a mnemonic. -/
def countIn? (name : String) (rows : List Row) : Option Nat :=
  (rows.find? fun row => decide (row.mnemonic = name)).map Row.count

theorem countIn?_of_eq (h : a.mnemonic = m) : countIn? m (a :: entries) = some a.count := by
  simp [countIn?, h]

theorem countIn?_of_ne (h : a.mnemonic ≠ m) : countIn? m (a :: entries) = countIn? m entries := by
  simp [countIn?, h]

theorem countIn?_bump (m name : String) (rows : List Row) :
    countIn? m (bump name rows) =
      if name = m then some ((countIn? m rows).getD 0 + 1) else countIn? m rows := by
  induction rows with
  | nil => by_cases h : name = m <;> simp [bump, countIn?, h]
  | cons row rows ih =>
      rw [bump]
      by_cases hname : row.mnemonic = name
      · -- this row is counted up, and the rows behind it are not looked at
        rw [if_pos hname]
        subst hname
        by_cases hm : row.mnemonic = m
        · rw [if_pos hm, countIn?_of_eq (a := row) hm]
          exact countIn?_of_eq hm
        · rw [if_neg hm, countIn?_of_ne (a := row) hm]
          exact countIn?_of_ne hm
      · rw [if_neg hname]
        by_cases hm : row.mnemonic = m
        · rw [countIn?_of_eq hm, countIn?_of_eq hm, if_neg]
          rintro rfl
          exact hname hm
        · rw [countIn?_of_ne hm, countIn?_of_ne hm, ih]

theorem mem_map_bump (m name : String) (rows : List Row) :
    m ∈ (bump name rows).map Row.mnemonic ↔ m = name ∨ m ∈ rows.map Row.mnemonic := by
  induction rows with
  | nil => simp [bump]
  | cons row rows ih =>
      rw [bump]
      split
      · rename_i h
        simp [h]
      · simp only [List.map_cons, List.mem_cons, ih]
        exact or_left_comm

theorem nodup_bump (h : (entries.map Row.mnemonic).Nodup) :
    ((bump name entries).map Row.mnemonic).Nodup := by
  induction entries with
  | nil => simp [bump]
  | cons row rows ih =>
      rw [List.map_cons, List.nodup_cons] at h
      rw [bump]
      split
      · simpa using h
      · rename_i hne
        rw [List.map_cons, List.nodup_cons, mem_map_bump]
        refine ⟨?_, ih h.2⟩
        rintro (hname | hmem)
        · exact hne hname
        · exact h.1 hmem

theorem mem_iff_countIn? (h : (entries.map Row.mnemonic).Nodup) :
    a ∈ entries ↔ countIn? a.mnemonic entries = some a.count := by
  induction entries with
  | nil => simp [countIn?]
  | cons row rows ih =>
      rw [List.map_cons, List.nodup_cons] at h
      rw [List.mem_cons]
      by_cases hname : row.mnemonic = a.mnemonic
      · rw [countIn?_of_eq hname, Option.some.injEq]
        constructor
        · rintro (rfl | hmem)
          · rfl
          · -- its mnemonic would stand in the rows a second time
            exact absurd (List.mem_map.2 ⟨a, hmem, hname.symm⟩) h.1
        · intro hcount
          obtain ⟨_, _⟩ := a
          obtain ⟨_, _⟩ := row
          cases hname
          cases hcount
          exact .inl rfl
      · rw [countIn?_of_ne hname, ← ih h.2, or_iff_right]
        rintro rfl
        exact hname rfl

theorem tally_concat (ops : List Op) (op : Op) :
    tally (ops ++ [op]) = bump op.mnemonic (tally ops) := by
  simp [tally]

theorem nodup_tally (ops : List Op) : ((tally ops).map Row.mnemonic).Nodup := by
  induction ops using List.reverseRecOn with
  | nil => exact List.nodup_nil
  | append_singleton ops op ih =>
      rw [tally_concat]
      exact nodup_bump ih

theorem countIn?_tally (ops : List Op) (name : String) :
    countIn? name (tally ops) = counted (countOf ops name) := by
  induction ops using List.reverseRecOn with
  | nil => rfl
  | append_singleton ops op ih => rw [tally_concat, countIn?_bump, ih, counted_concat]

theorem gathers_tally (ops : List Op) : Gathers ops (tally ops) := by
  refine ⟨nodup_tally ops, ?_⟩
  intro row
  rw [mem_iff_countIn? (nodup_tally ops), countIn?_tally, counted_eq_some_iff]

theorem sum_bump (name : String) (rows : List Row) :
    ((bump name rows).map Row.count).sum = (rows.map Row.count).sum + 1 := by
  induction rows with
  | nil => rfl
  | cons row rows ih =>
      rw [bump]
      split
      · simp only [List.map_cons, List.sum_cons]
        omega
      · simp only [List.map_cons, List.sum_cons, ih]
        omega

theorem sum_tally (ops : List Op) : ((tally ops).map Row.count).sum = ops.length := by
  induction ops using List.reverseRecOn with
  | nil => rfl
  | append_singleton ops op ih =>
      rw [tally_concat, sum_bump, ih, List.length_append, List.length_singleton]

/-! ## Entries of a hash table -/

/-- The mnemonics of a program in a hash table. -/
def hashed (ops : List Op) : Std.HashMap String Nat :=
  ops.foldl (fun table op => table.insert op.mnemonic (table.getD op.mnemonic 0 + 1)) ∅

theorem getElem?_hashed (ops : List Op) (name : String) :
    (hashed ops)[name]? = counted (countOf ops name) := by
  induction ops using List.reverseRecOn with
  | nil => exact Std.HashMap.getElem?_empty
  | append_singleton ops op ih =>
      have hstep : hashed (ops ++ [op]) =
          (hashed ops).insert op.mnemonic ((hashed ops).getD op.mnemonic 0 + 1) := by
        simp [hashed]
      rw [hstep, Std.HashMap.getElem?_insert, counted_concat, ← ih]
      simp only [beq_iff_eq]
      split
      · rename_i h
        rw [Std.HashMap.getD_eq_getD_getElem?, h]
      · rfl

theorem gathers_hashed (ops : List Op) :
    Gathers ops ((hashed ops).toList.map fun entry => ⟨entry.1, entry.2⟩) := by
  constructor
  · rw [List.map_map, List.nodup_iff_pairwise_ne, List.pairwise_map]
    exact Std.HashMap.distinct_keys_toList.imp fun h => by simpa using h
  · intro row
    rw [← counted_eq_some_iff, ← getElem?_hashed, ← Std.HashMap.mem_toList_iff_getElem?_eq_some,
      List.mem_map]
    constructor
    · rintro ⟨entry, hentry, rfl⟩
      exact hentry
    · intro hentry
      exact ⟨_, hentry, rfl⟩

/-! ## The order of the rows -/

theorem Row.precedes_iff :
    a.precedes b = true ↔ b.count < a.count ∨ (a.count = b.count ∧ a.mnemonic ≤ b.mnemonic) := by
  simp [Row.precedes]

theorem Row.precedes_trans (a b c : Row) (hab : a.precedes b = true) (hbc : b.precedes c = true) :
    a.precedes c = true := by
  rw [precedes_iff] at hab hbc ⊢
  rcases hab with hab | ⟨hab, hname⟩
  · rcases hbc with hbc | ⟨hbc, -⟩ <;> exact .inl (by omega)
  · rcases hbc with hbc | ⟨hbc, hname'⟩
    · exact .inl (by omega)
    · exact .inr ⟨hab.trans hbc, String.le_trans hname hname'⟩

theorem Row.precedes_total (a b : Row) : (a.precedes b || b.precedes a) = true := by
  rw [Bool.or_eq_true, precedes_iff, precedes_iff]
  rcases Nat.lt_trichotomy a.count b.count with hlt | heq | hlt
  · exact .inr (.inl hlt)
  · rcases String.le_total a.mnemonic b.mnemonic with hname | hname
    · exact .inl (.inr ⟨heq, hname⟩)
    · exact .inr (.inr ⟨heq.symm, hname⟩)
  · exact .inl (.inl hlt)

/-- Only equal rows stand on both sides of each other. -/
theorem Row.eq_of_precedes (hab : a.precedes b = true) (hba : b.precedes a = true) : a = b := by
  rw [precedes_iff] at hab hba
  rcases hab with hab | ⟨hcount, hname⟩
  · omega
  · rcases hba with hba | ⟨-, hname'⟩
    · omega
    · cases a
      cases b
      cases hcount
      cases String.le_antisymm hname hname'
      rfl

theorem sort_eq_of_perm (h : entries.Perm entries') :
    entries.mergeSort Row.precedes = entries'.mergeSort Row.precedes := by
  have hperm : (entries.mergeSort Row.precedes).Perm (entries'.mergeSort Row.precedes) :=
    (List.mergeSort_perm _ _).trans (h.trans (List.mergeSort_perm _ _).symm)
  exact hperm.eq_of_pairwise (fun _ _ _ _ => Row.eq_of_precedes)
    (List.pairwise_mergeSort Row.precedes_trans Row.precedes_total _)
    (List.pairwise_mergeSort Row.precedes_trans Row.precedes_total _)

/-- Two ways to gather the mnemonics of a program differ in their order alone. -/
theorem Gathers.perm (h : Gathers ops entries) (h' : Gathers ops entries') :
    entries.Perm entries' := by
  rw [List.perm_ext_iff_of_nodup (List.Nodup.of_map _ h.nodup) (List.Nodup.of_map _ h'.nodup)]
  intro row
  rw [h.mem_iff, h'.mem_iff]

theorem Gathers.of_perm (h : Gathers ops entries) (hperm : entries'.Perm entries) :
    Gathers ops entries' := by
  refine ⟨(hperm.map _).nodup_iff.2 h.nodup, ?_⟩
  intro row
  rw [hperm.mem_iff, h.mem_iff]

theorem Gathers.of_perm_ops (h : Gathers ops entries) (hperm : other.Perm ops) :
    Gathers other entries := by
  refine ⟨h.nodup, ?_⟩
  intro row
  rw [h.mem_iff, countOf, countOf, hperm.countP_eq]

/-- The mnemonics in a table are those of the operations. -/
theorem Gathers.mem_map_iff (h : Gathers ops entries) (name : String) :
    name ∈ entries.map Row.mnemonic ↔ ∃ op ∈ ops, op.mnemonic = name := by
  have hpos : 0 < countOf ops name ↔ ∃ op ∈ ops, op.mnemonic = name := by
    simp [countOf, List.countP_pos_iff]
  rw [← hpos, List.mem_map]
  constructor
  · rintro ⟨row, hrow, rfl⟩
    obtain ⟨hcount, hlt⟩ := (h.mem_iff row).1 hrow
    rwa [hcount] at hlt
  · intro hlt
    exact ⟨⟨name, countOf ops name⟩, (h.mem_iff _).2 ⟨rfl, hlt⟩, rfl⟩

theorem Gathers.sort_eq (h : Gathers ops entries) : entries.mergeSort Row.precedes = rows ops :=
  sort_eq_of_perm (h.perm (gathers_tally ops))

theorem gathers_rows (ops : List Op) : Gathers ops (rows ops) :=
  (gathers_tally ops).of_perm (List.mergeSort_perm _ _)

theorem sum_rows (ops : List Op) : ((rows ops).map Row.count).sum = ops.length := by
  rw [← sum_tally ops]
  exact ((List.mergeSort_perm (tally ops) Row.precedes).map Row.count).sum_nat

theorem rows_eq_of_perm (h : other.Perm ops) : rows other = rows ops :=
  ((gathers_tally other).of_perm_ops h.symm).sort_eq

theorem plain_of_mem_rows (h : a ∈ rows ops) : a.Plain := by
  obtain ⟨op, -, hop⟩ := ((gathers_rows ops).mem_map_iff a.mnemonic).1 (List.mem_map_of_mem h)
  have hplain := plain_mnemonic op a.count
  rwa [hop] at hplain

/-- The table of a program says its rows. -/
theorem listed_render (ops : List Op) : listed (render ops) = rows ops :=
  listed_table (fun _ => plain_of_mem_rows) ops.length

theorem render_eq_of_perm (h : other.Perm ops) : render other = render ops := by
  unfold render
  rw [rows_eq_of_perm h, h.length_eq]

/-- `a` stands before `b`, and not at the same place: it has the larger count, or the same and the
smaller mnemonic. -/
def Row.Before (a b : Row) : Prop :=
  b.count < a.count ∨ (a.count = b.count ∧ a.mnemonic < b.mnemonic)

theorem Row.before_of_precedes (h : a.precedes b = true) (hne : a.mnemonic ≠ b.mnemonic) :
    a.Before b := by
  rw [precedes_iff] at h
  rcases h with hcount | ⟨hcount, hname⟩
  · exact .inl hcount
  · -- two rows of the same count are apart by their mnemonics
    refine .inr ⟨hcount, ?_⟩
    by_contra hlt
    exact hne (String.le_antisymm hname hlt)

theorem pairwise_rows (ops : List Op) : (rows ops).Pairwise Row.Before := by
  have hsorted : (rows ops).Pairwise fun a b => a.precedes b = true :=
    List.pairwise_mergeSort Row.precedes_trans Row.precedes_total _
  have hnames : (rows ops).Pairwise fun a b => a.mnemonic ≠ b.mnemonic :=
    List.pairwise_map.1 (gathers_rows ops).nodup
  exact (hsorted.and hnames).imp fun h => Row.before_of_precedes h.1 h.2

/-- **The rows are a function of the operations, whatever their order.**  The mnemonics may be
counted in a list or in a hash table, and the entries may be handed out in every order: they are
sorted into the same rows, and make the same table.  The table has one line for each row below its
headings, and says these rows when it is read.  There is one row for each mnemonic of the program,
with the number of operations that have it; the rows stand strictly in their order, and their counts
sum up to the number of operations.  And the operations may be permuted without a change of the
rows, nor of the text of the table. -/
theorem rows_well_defined (ops : List Op) :
    (∀ entries : List Row, entries.Perm (tally ops) → entries.mergeSort Row.precedes = rows ops) ∧
    (∀ entries : List Row, entries.Perm ((hashed ops).toList.map fun e => ⟨e.1, e.2⟩) →
      entries.mergeSort Row.precedes = rows ops ∧
        table ops.length (entries.mergeSort Row.precedes) = render ops) ∧
    Text.lineFeedPieces (render ops).toList =
      headings ops.length ++ (rows ops).map (Row.line ops.length) ++ [[]] ∧
    listed (render ops) = rows ops ∧
    ((rows ops).map Row.mnemonic).Nodup ∧
    (∀ name, name ∈ (rows ops).map Row.mnemonic ↔ ∃ op ∈ ops, op.mnemonic = name) ∧
    (∀ row ∈ rows ops, row.count = ops.countP fun op => decide (op.mnemonic = row.mnemonic)) ∧
    (rows ops).Pairwise Row.Before ∧
    ((rows ops).map Row.count).sum = ops.length ∧
    ∀ other : List Op, other.Perm ops → rows other = rows ops ∧ render other = render ops := by
  have hrows := gathers_rows ops
  refine ⟨?_, ?_, lineFeedPieces_table (fun _ => plain_of_mem_rows) _, listed_render ops,
    hrows.nodup, hrows.mem_map_iff, ?_, pairwise_rows ops, sum_rows ops, ?_⟩
  · intro entries h
    exact ((gathers_tally ops).of_perm h).sort_eq
  · intro entries h
    have hsort := ((gathers_hashed ops).of_perm h).sort_eq
    exact ⟨hsort, by rw [hsort, render]⟩
  · intro row hrow
    exact ((hrows.mem_iff row).1 hrow).1
  · intro other hperm
    exact ⟨rows_eq_of_perm hperm, render_eq_of_perm hperm⟩

/-- Of three mnemonics that occur once each, the smallest comes first, whatever order the entries
are in.  The count of a run does not matter. -/
theorem rows_well_defined_ties :
    [⟨"INC", 1⟩, ⟨"CLEAR", 1⟩, ⟨"OUT", 2⟩, ⟨"IN", 1⟩].mergeSort Row.precedes =
        rows [.run .inc 7, .output, .input, .output, .clear] ∧
      rows [.run .inc 7, .output, .input, .output, .clear] =
        [⟨"OUT", 2⟩, ⟨"CLEAR", 1⟩, ⟨"IN", 1⟩, ⟨"INC", 1⟩] ∧
      rows [.clear, .output, .output, .run .inc 7, .input] =
        rows [.run .inc 7, .output, .input, .output, .clear] := by
  obtain ⟨hsort, -, -, -, -, -, -, -, -, hperm⟩ :=
    rows_well_defined [.run .inc 7, .output, .input, .output, .clear]
  refine ⟨hsort _ (by decide), ?_, (hperm _ (by decide)).1⟩
  rw [← hsort [⟨"OUT", 2⟩, ⟨"CLEAR", 1⟩, ⟨"IN", 1⟩, ⟨"INC", 1⟩] (by decide)]
  exact List.mergeSort_of_pairwise (by decide)

end Brainfuck.Statistics
