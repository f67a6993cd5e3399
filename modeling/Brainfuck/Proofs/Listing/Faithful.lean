import Brainfuck.Listing
import Brainfuck.Proofs.Loops.Stack
import Brainfuck.Proofs.Text.Lines

/-!
# A listing says what it lists

Each line of a listing is indented by the number of loops that its operation stands in, and that
number is kept by a counter which never goes below zero.  It is the height of the stack of open
brackets, also behind close brackets that have nothing to close, so it can be told from the
matching.  And a listing can be read back.

* `Listing.enclosing` — the loops an operation stands in, counted in the matching.
* `Listing.enclosing_eq` — they are as many as the counter says.
* `Listing.read` — the program that a listing says.
* `Listing.read_listing` — it is the program that was listed.
* `Listing.listing_faithful` — both together, line by line.
-/

namespace Brainfuck.Listing

open Loops

variable {ip depth k n : Nat} {op : Op} {ops : List Op} {stack : List Nat} {text : List Char}
  {partner : Nat → Option Nat}

/-! ## Depth -/

/-- How many loops the operation at `ip` stands in: of the brackets that open before it, those that
have no partner or have it further on. -/
def enclosing (ops : List Op) (ip : Nat) : Nat :=
  (List.range ip).countP fun j =>
    decide (ops[j]? = some .openLoop) && (matching ops)[j]?.all fun k => decide (ip < k)

/-- The counter is the height of the stack. -/
theorem foldl_depthAfter (ip : Nat) (stack : List Nat) (ops : List Op) :
    ops.foldl depthAfter stack.length = (stackAfter ip stack ops).length := by
  induction ops generalizing ip stack with
  | nil => rfl
  | cons op ops ih =>
      cases op with
      | openLoop => exact ih (ip + 1) (ip :: stack)
      | closeLoop =>
          rw [List.foldl_cons, depthAfter, ← List.length_tail]
          exact ih (ip + 1) stack.tail
      | _ => exact ih (ip + 1) stack

/-- The brackets around an operation: those that are open when it is reached, without the one that
it closes. -/
def around (ops : List Op) (ip : Nat) : Op → List Nat
  | .closeLoop => (stackAt ops ip).tail
  | _ => stackAt ops ip

theorem length_around (ops : List Op) (ip : Nat) (op : Op) :
    (around ops ip op).length = depthAt (stackAt ops ip).length op := by
  cases op <;> simp [around, depthAt]

theorem nodup_around (ops : List Op) (ip : Nat) (op : Op) : (around ops ip op).Nodup := by
  have h := (stackBefore_stackAt ops ip).nodup
  cases op with
  | closeLoop => exact h.sublist (List.tail_sublist _)
  | _ => exact h

/-- They are the brackets from before the operation that are still open behind it. -/
theorem mem_around_iff (h : ops[ip]? = some op) :
    k ∈ around ops ip op ↔ k < ip ∧ k ∈ stackAt ops (ip + 1) := by
  have hlt := (stackBefore_stackAt ops ip).lt
  rw [stackAt_succ h]
  cases op with
  | openLoop =>
      simp only [around, stackAfter, List.mem_cons]
      constructor
      · intro hk
        exact ⟨hlt k hk, .inr hk⟩
      · rintro ⟨hk, rfl | hmem⟩
        · exact absurd hk (Nat.lt_irrefl _)
        · exact hmem
  | closeLoop =>
      simp only [around, stackAfter]
      constructor
      · intro hk
        exact ⟨hlt k (List.mem_of_mem_tail hk), hk⟩
      · exact And.right
  | _ =>
      simp only [around, stackAfter]
      constructor
      · intro hk
        exact ⟨hlt k hk, hk⟩
      · exact And.right

/-- The loops an operation stands in are as many as the counter says. -/
theorem enclosing_eq (h : ops[ip]? = some op) :
    enclosing ops ip = depthAt (stackAt ops ip).length op := by
  rw [enclosing, List.countP_eq_length_filter, ← length_around]
  apply List.Perm.length_eq
  rw [List.perm_ext_iff_of_nodup (List.nodup_range.filter _) (nodup_around ops ip op)]
  intro j
  rw [mem_around_iff h, mem_stackAt_iff, List.mem_filter, List.mem_range]
  simp only [Bool.and_eq_true, decide_eq_true_eq, Option.all_eq_true, matching_getElem?]
  constructor
  · rintro ⟨hj, hopen, hpartner⟩
    exact ⟨hj, Nat.lt_succ_of_lt hj, hopen, hpartner⟩
  · rintro ⟨hj, -, hopen, hpartner⟩
    exact ⟨hj, hopen, hpartner⟩

/-! ## Lines -/

theorem length_linesFrom (partner : Nat → Option Nat) (ip depth : Nat) (ops : List Op) :
    (linesFrom partner ip depth ops).length = ops.length := by
  induction ops generalizing ip depth with
  | nil => rfl
  | cons op ops ih => simp [linesFrom, ih]

theorem linesFrom_getElem? :
    (linesFrom partner ip depth ops)[k]? =
      ops[k]?.map fun op =>
        line (ip + k) (depthAt ((ops.take k).foldl depthAfter depth) op) op (partner (ip + k)) := by
  induction ops generalizing ip depth k with
  | nil => rfl
  | cons op ops ih =>
      cases k with
      | zero => rfl
      | succ k =>
          rw [linesFrom, List.getElem?_cons_succ, ih, List.getElem?_cons_succ, List.take_succ_cons,
            List.foldl_cons, show ip + 1 + k = ip + (k + 1) by omega]

/-- The line of an operation. -/
theorem lines_getElem? (h : ops[ip]? = some op) :
    (lines ops)[ip]? = some (line ip (enclosing ops ip) op (matching ops)[ip]?) := by
  have hdepth : (ops.take ip).foldl depthAfter 0 = (stackAt ops ip).length :=
    foldl_depthAfter 0 [] (ops.take ip)
  rw [lines, linesFrom_getElem?, h, hdepth, Option.map_some, ← enclosing_eq h, Nat.zero_add]

theorem isDigit_of_mem_zeroPadded {c : Char} {width : Nat} (h : c ∈ zeroPadded width n) :
    c.isDigit = true := by
  rw [zeroPadded, List.leftpad, List.mem_append] at h
  rcases h with h | h
  · rw [List.eq_of_mem_replicate h]
    rfl
  · exact Nat.isDigit_of_mem_toDigits (by decide) (by decide) h

/-- The name of a run does not depend on its count. -/
theorem nameColumn_run (kind : RunKind) (n : UInt32) :
    nameColumn (.run kind n) = nameColumn (.run kind 0) := by
  cases kind <;> rfl

theorem newline_notMem_zeroPadded (width n : Nat) : '\n' ∉ zeroPadded width n := by
  intro h
  cases isDigit_of_mem_zeroPadded h

theorem newline_notMem_describe (op : Op) (partner : Option Nat) :
    '\n' ∉ describe op partner := by
  cases op with
  | run kind n =>
      rw [describe, nameColumn_run, List.mem_append, List.mem_cons]
      rintro (h | h | h)
      · revert h
        cases kind <;> decide
      · cases h
      · exact Text.newline_notMem_toDigits _ h
  | openLoop | closeLoop =>
      cases partner with
      | none => decide
      | some j =>
          simp only [describe, List.mem_append, not_or]
          exact ⟨⟨⟨by decide, by decide⟩, newline_notMem_zeroPadded 4 j⟩, by decide⟩
  | output => exact (by decide : '\n' ∉ describe .output none)
  | input => exact (by decide : '\n' ∉ describe .input none)
  | clear => exact (by decide : '\n' ∉ describe .clear none)

theorem newline_notMem_line (ip depth : Nat) (op : Op) (partner : Option Nat) :
    '\n' ∉ line ip depth op partner := by
  simp [line, newline_notMem_zeroPadded, newline_notMem_describe]

theorem head?_describe (op : Op) (partner : Option Nat) :
    (describe op partner).head? ≠ some ' ' := by
  cases op with
  | run kind n =>
      rw [describe, nameColumn_run]
      cases kind <;> (intro h; cases h)
  | openLoop | closeLoop => cases partner <;> (intro h; cases h)
  | _ =>
      intro h
      cases h

/-! ## Reading a listing back -/

/-- The operations by the names they are listed under.  A run takes the count that is listed. -/
def namedOps : List (List Char × (Nat → Op)) :=
  [("FWD".toList, fun n => .run .right n.toUInt32),
   ("BACK".toList, fun n => .run .left n.toUInt32),
   ("INC".toList, fun n => .run .inc n.toUInt32),
   ("DEC".toList, fun n => .run .dec n.toUInt32),
   ("OUT".toList, fun _ => .output),
   ("IN".toList, fun _ => .input),
   ("LOOP".toList, fun _ => .openLoop),
   ("END".toList, fun _ => .closeLoop),
   ("CLEAR".toList, fun _ => .clear)]

/-- The operation that is described by a text: a name, and behind seven characters a count. -/
def described? (text : List Char) : Option Op :=
  (namedOps.lookup (text.takeWhile (· != ' '))).map fun op =>
    op (Nat.ofDigitChars 10 (text.drop 7) 0)

/-- The operation that is listed on a line, behind the index and the blanks. -/
def listed? (line : List Char) : Option Op :=
  described? ((line.dropWhile (· != ' ')).dropWhile (· == ' '))

/-- The operations that are listed in a text. -/
def read (text : String) : List Op := (Text.lineFeedPieces text.toList).filterMap listed?

theorem count_toDigits (n : UInt32) :
    (Nat.ofDigitChars 10 (Nat.toDigits 10 n.toNat) 0).toUInt32 = n := by
  rw [Nat.ofDigitChars_ten_toDigits]
  exact UInt32.ofNat_toNat

theorem described?_describe (op : Op) (partner : Option Nat) :
    described? (describe op partner) = some op := by
  cases op with
  | run kind n =>
      have hread (digits : List Char) :
          described? (nameColumn (.run kind 0) ++ ' ' :: digits) =
            some (.run kind (Nat.ofDigitChars 10 digits 0).toUInt32) := by
        cases kind <;> rfl
      rw [describe, nameColumn_run, hread, count_toDigits]
  | openLoop | closeLoop => cases partner <;> rfl
  | _ => rfl

theorem listed?_line (ip depth : Nat) (op : Op) (partner : Option Nat) :
    listed? (line ip depth op partner) = some op := by
  have hindex : ∀ c ∈ zeroPadded 4 ip, (c != ' ') = true := by
    intro c hc
    rw [bne_iff_ne]
    rintro rfl
    cases isDigit_of_mem_zeroPadded hc
  have hblanks : ∀ c ∈ List.replicate (2 * depth) ' ', (c == ' ') = true := by
    intro c hc
    rw [List.eq_of_mem_replicate hc]
    rfl
  have hstart : (describe op partner).dropWhile (· == ' ') = describe op partner := by
    have hhead := head?_describe op partner
    cases h : describe op partner with
    | nil => rfl
    | cons c rest =>
        rw [h, List.head?_cons] at hhead
        exact List.dropWhile_cons_of_neg (by simpa using hhead)
  rw [listed?, line, List.dropWhile_append_of_pos hindex, List.dropWhile_cons_of_neg (by simp),
    List.dropWhile_cons_of_pos (by simp), List.dropWhile_append_of_pos hblanks, hstart,
    described?_describe]

theorem filterMap_linesFrom (partner : Nat → Option Nat) (ip depth : Nat) (ops : List Op) :
    (linesFrom partner ip depth ops).filterMap listed? = ops := by
  induction ops generalizing ip depth with
  | nil => rfl
  | cons op ops ih => rw [linesFrom, List.filterMap_cons_some (listed?_line _ _ _ _), ih]

theorem newline_notMem_linesFrom :
    ∀ line ∈ linesFrom partner ip depth ops, '\n' ∉ line := by
  induction ops generalizing ip depth with
  | nil => simp [linesFrom]
  | cons op ops ih =>
      rw [linesFrom, List.forall_mem_cons]
      exact ⟨newline_notMem_line _ _ _ _, ih⟩

theorem lineFeedPieces_listing (ops : List Op) :
    Text.lineFeedPieces (listing ops).toList = lines ops ++ [[]] := by
  rw [listing, String.toList_ofList]
  exact Text.lineFeedPieces_flatMap newline_notMem_linesFrom

/-- A listing is read back. -/
theorem read_listing (ops : List Op) : read (listing ops) = ops := by
  rw [read, lineFeedPieces_listing, List.filterMap_append, lines, filterMap_linesFrom]
  exact List.append_nil ops

/-- **A listing says what it lists.**  It has one line for each operation, cut at its line feeds.
The line of an operation is its index, two blanks for each loop that the operation stands in, and a
text that starts with no blank; for a bracket it names the partner that the matching gives, or says
that there is none.  And no other program has the same listing. -/
theorem listing_faithful (ops : List Op) :
    Text.lineFeedPieces (listing ops).toList = lines ops ++ [[]] ∧
    (lines ops).length = ops.length ∧
    (∀ ip op, ops[ip]? = some op → ∃ text,
      (lines ops)[ip]? = some (zeroPadded 4 ip ++ ' ' ::
        (List.replicate (2 * enclosing ops ip) ' ' ++ text)) ∧
      text.head? ≠ some ' ' ∧
      (op.isBracket = true → ∀ j, (matching ops)[ip]? = some j →
        text = nameColumn op ++ " (↔ ".toList ++ zeroPadded 4 j ++ [')']) ∧
      (op.isBracket = true → (matching ops)[ip]? = none →
        text = nameColumn op ++ " (unmatched)".toList)) ∧
    ∀ other, listing other = listing ops → other = ops := by
  refine ⟨lineFeedPieces_listing ops, length_linesFrom _ _ _ _, ?_, ?_⟩
  · intro ip op h
    refine ⟨describe op (matching ops)[ip]?, lines_getElem? h, head?_describe _ _, ?_, ?_⟩
    · intro hop j hj
      rw [hj]
      rcases Op.eq_of_isBracket hop with rfl | rfl <;> rfl
    · intro hop hnone
      rw [hnone]
      rcases Op.eq_of_isBracket hop with rfl | rfl <;> rfl
  · intro other h
    rw [← read_listing other, h, read_listing]

/-- Behind a close bracket that closes nothing, a loop is listed at the outermost level, and what
stands in it one level further in. -/
theorem listing_faithful_stray :
    (lines [.closeLoop, .openLoop, .run .right 2, .closeLoop])[0]? =
        some "0000 END    (unmatched)".toList ∧
      ∃ text, (lines [.closeLoop, .openLoop, .run .right 2, .closeLoop])[2]? =
        some ("0002   ".toList ++ text) ∧ text.head? ≠ some ' ' := by
  obtain ⟨-, -, hlines, -⟩ := listing_faithful [.closeLoop, .openLoop, .run .right 2, .closeLoop]
  obtain ⟨text, hline, -, -, hnone⟩ := hlines 0 .closeLoop rfl
  obtain ⟨text', hline', hhead, -⟩ := hlines 2 (.run .right 2) rfl
  have hunmatched : (matching [.closeLoop, .openLoop, .run .right 2, .closeLoop])[0]? = none := by
    rw [Option.eq_none_iff_forall_ne_some]
    intro j hj
    rcases matching_getElem?.1 hj with h | h <;> simp [pairs, pairsFrom] at h
  rw [enclosing_eq rfl, hnone rfl hunmatched] at hline
  rw [enclosing_eq rfl] at hline'
  exact ⟨hline, text', hline', hhead⟩

end Brainfuck.Listing
