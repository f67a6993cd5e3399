import Brainfuck.Proofs.Abbreviation.Layout
import Brainfuck.Proofs.Machine.Observation

/-!
# An abbreviated program runs as the program it abbreviates

One step of the short program is one or more steps of the long one.  The states
of the two runs agree in tape, pointer and console whenever the long run is at the
start of a stretch (`widen`); a run of moves that leaves the tape in its middle is
the one place where the two part, and there both runs are over.

* `advance_widen_next`, `advance_widen_stop` — one step of the short program, by
  the kind of piece it executes.
* `after_widen` — several steps.
* `ends_long_of_short`, `ends_short_of_long` — one run ends exactly when the other
  does, and `SameEnd` says how their ends agree.
* `observed_long_of_short`, `observed_short_of_long`, `observed_short_of_stepLimit` —
  what is seen of the two programs, with a limit and without.
-/

namespace Brainfuck.Abbreviation

open Loops Machine

/-- The state of the long program in which the stretch of the next piece starts. -/
def widen (ps : List Piece) (s : State) : State := { s with ip := offset ps s.ip }

/-- The fault with its operation named by another index. -/
def relabel (f : Nat → Nat) : Fault → Fault
  | .unmatchedLoop i => .unmatchedLoop (f i)
  | .outOfTape i size => .outOfTape (f i) size
  | .stepLimit limit => .stepLimit limit
  | .refused refusal => .refused refusal

/-! ## Repetitions of one instruction -/

/-- What `n` repetitions of an instruction make of tape and pointer; `none` when one
of them needs a cell outside the tape. -/
def repeated? (kind : RunKind) (n : Nat) (tape : Array UInt8) (ptr : Nat) :
    Option (Array UInt8 × Nat) :=
  match kind with
  | .right => if ptr + n < tape.size then some (tape, ptr + n) else none
  | .left => if n ≤ ptr then some (tape, ptr - n) else none
  | .inc => tape[ptr]?.map fun v => (tape.setIfInBounds ptr (v + UInt8.ofNat n), ptr)
  | .dec => tape[ptr]?.map fun v => (tape.setIfInBounds ptr (v - UInt8.ofNat n), ptr)

theorem effect_run (around : Surroundings) (tape : Array UInt8) (ptr : Nat) (c : Console)
    (kind : RunKind) (n : UInt32) :
    effect around tape ptr c (.run kind n) =
      match repeated? kind n.toNat tape ptr with
      | some (tape', ptr') => .ok (tape', ptr', c)
      | none => .error (.noCell, c) := by
  have hn : UInt8.ofNat n.toNat = n.toUInt8 := rfl
  cases kind with
  | right => by_cases h : ptr + n.toNat < tape.size <;> simp [effect, repeated?, h]
  | left => by_cases h : n.toNat ≤ ptr <;> simp [effect, repeated?, h]
  | inc => simp only [effect, repeated?, hn]; cases tape[ptr]? <;> rfl
  | dec => simp only [effect, repeated?, hn]; cases tape[ptr]? <;> rfl

theorem getElem?_setIfInBounds {tape : Array UInt8} {ptr : Nat} {v : UInt8}
    (h : tape[ptr]? = some v) (w : UInt8) : (tape.setIfInBounds ptr w)[ptr]? = some w :=
  Array.getElem?_setIfInBounds_self_of_lt (Array.getElem?_eq_some_iff.1 h).1

/-- The first repetition can be taken apart from the others. -/
theorem repeated?_succ (kind : RunKind) (n : Nat) (tape : Array UInt8) (ptr : Nat) :
    repeated? kind (n + 1) tape ptr =
      (repeated? kind 1 tape ptr).bind fun r => repeated? kind n r.1 r.2 := by
  cases kind with
  | right =>
      by_cases h : ptr + 1 < tape.size
      · simp only [repeated?, if_pos h, Option.bind_some]
        rw [show ptr + (n + 1) = ptr + 1 + n by omega]
      · simp only [repeated?, if_neg h, Option.bind_none]
        rw [if_neg (by omega)]
  | left =>
      by_cases h : 1 ≤ ptr
      · simp only [repeated?, if_pos h, Option.bind_some]
        by_cases h' : n + 1 ≤ ptr
        · rw [if_pos h', if_pos (by omega), show ptr - (n + 1) = ptr - 1 - n by omega]
        · rw [if_neg h', if_neg (by omega)]
      · simp only [repeated?, if_neg h, Option.bind_none]
        rw [if_neg (by omega)]
  | inc =>
      cases h : tape[ptr]? with
      | none => simp [repeated?, h]
      | some v =>
          simp only [repeated?, h, Option.map_some, Option.bind_some, getElem?_setIfInBounds h]
          rw [UInt8.ofNat_add, UInt8.add_comm (UInt8.ofNat n), ← UInt8.add_assoc]
          simp
  | dec =>
      cases h : tape[ptr]? with
      | none => simp [repeated?, h]
      | some v =>
          simp only [repeated?, h, Option.map_some, Option.bind_some, getElem?_setIfInBounds h]
          have hsub : v - UInt8.ofNat (n + 1) = v - UInt8.ofNat 1 - UInt8.ofNat n := by
            rw [UInt8.ofNat_add, UInt8.add_comm (UInt8.ofNat n)]
            simp only [UInt8.sub_eq_add_neg, UInt8.neg_add, UInt8.add_assoc]
          rw [hsub]
          simp

/-- Repetitions that fail behind the first one are moves, and leave the tape alone. -/
theorem tape_eq_of_repeated? {kind : RunKind} {n : Nat} {tape tape' : Array UInt8} {ptr ptr' : Nat}
    (h : repeated? kind 1 tape ptr = some (tape', ptr'))
    (h' : repeated? kind n tape' ptr' = none) : tape' = tape := by
  cases kind with
  | right =>
      simp only [repeated?] at h
      split at h <;> cases h
      rfl
  | left =>
      simp only [repeated?] at h
      split at h <;> cases h
      rfl
  | inc =>
      cases hv : tape[ptr]? with
      | none => simp [repeated?, hv] at h
      | some v =>
          simp only [repeated?, hv, Option.map_some, Option.some.injEq, Prod.mk.injEq] at h
          obtain ⟨rfl, rfl⟩ := h
          simp [repeated?, getElem?_setIfInBounds hv] at h'
  | dec =>
      cases hv : tape[ptr]? with
      | none => simp [repeated?, hv] at h
      | some v =>
          simp only [repeated?, hv, Option.map_some, Option.some.injEq, Prod.mk.injEq] at h
          obtain ⟨rfl, rfl⟩ := h
          simp [repeated?, getElem?_setIfInBounds hv] at h'

section Stretches

variable {code : Array Op} {jumps : Jumps} {around : Surroundings} {tape tape' : Array UInt8}
  {ptr ptr' b : Nat} {c : Console}

theorem advance_single {kind : RunKind} (hcode : code[b]? = some (.run kind 1))
    (h : repeated? kind 1 tape ptr = some (tape', ptr')) :
    advance code jumps around ⟨b, tape, ptr, c⟩ = .next ⟨b + 1, tape', ptr', c⟩ := by
  refine advance_ok (s := ⟨b, tape, ptr, c⟩) hcode ?_
  rw [effect_run, show (1 : UInt32).toNat = 1 from rfl, h]

/-- Repetitions that all stay on the tape. -/
theorem after_repeated {kind : RunKind} {n : Nat}
    (hcode : ∀ d, d < n + 1 → code[b + d]? = some (.run kind 1))
    (h : repeated? kind (n + 1) tape ptr = some (tape', ptr')) :
    after code jumps around (n + 1) ⟨b, tape, ptr, c⟩ = some ⟨b + (n + 1), tape', ptr', c⟩ := by
  induction n generalizing b tape ptr with
  | zero => exact after_one (advance_single (hcode 0 Nat.zero_lt_one) h)
  | succ n ih =>
      rw [repeated?_succ, Option.bind_eq_some_iff] at h
      obtain ⟨⟨tape₁, ptr₁⟩, h₁, h⟩ := h
      have hop : code[b]? = some (.run kind 1) := hcode 0 (Nat.succ_pos _)
      rw [after_succ (advance_single hop h₁), ih ?_ h,
        show b + 1 + (n + 1) = b + (n + 1 + 1) by omega]
      intro d hd
      rw [show b + 1 + d = b + (d + 1) by omega]
      exact hcode (d + 1) (Nat.succ_lt_succ hd)

/-- Repetitions one of which leaves the tape. -/
theorem ends_repeated {kind : RunKind} {n : Nat}
    (hcode : ∀ d, d < n + 1 → code[b + d]? = some (.run kind 1))
    (h : repeated? kind (n + 1) tape ptr = none) :
    ∃ d ptr', d < n + 1 ∧ Ends code jumps around d ⟨b, tape, ptr, c⟩
      (some (.outOfTape (b + d) tape.size)) ⟨b + d, tape, ptr', c⟩ := by
  have hfirst : ∀ {b ptr}, code[b]? = some (.run kind 1) → repeated? kind 1 tape ptr = none →
      Ends code jumps around 0 ⟨b, tape, ptr, c⟩ (some (.outOfTape b tape.size))
        ⟨b, tape, ptr, c⟩ := by
    intro b ptr hop hnone
    have heff : effect around tape ptr c (.run kind 1) = .error (.noCell, c) := by
      rw [effect_run, show (1 : UInt32).toNat = 1 from rfl, hnone]
    exact ⟨_, rfl, advance_error (s := ⟨b, tape, ptr, c⟩) hop heff⟩
  induction n generalizing b ptr with
  | zero => exact ⟨0, ptr, Nat.zero_lt_one, hfirst (hcode 0 Nat.zero_lt_one) h⟩
  | succ n ih =>
      rw [repeated?_succ, Option.bind_eq_none_iff] at h
      cases h₁ : repeated? kind 1 tape ptr with
      | none => exact ⟨0, ptr, Nat.succ_pos _, hfirst (hcode 0 (Nat.succ_pos _)) h₁⟩
      | some r =>
          obtain ⟨tape₁, ptr₁⟩ := r
          have hrest := h _ h₁
          cases tape_eq_of_repeated? h₁ hrest
          have hcode' : ∀ d, d < n + 1 → code[b + 1 + d]? = some (.run kind 1) := by
            intro d hd
            rw [show b + 1 + d = b + (d + 1) by omega]
            exact hcode (d + 1) (Nat.succ_lt_succ hd)
          obtain ⟨d, ptr', hd, hends⟩ := ih hcode' hrest
          rw [show b + 1 + d = b + (1 + d) by omega] at hends
          refine ⟨1 + d, ptr', by omega, Ends.of_after (after_one ?_) hends⟩
          exact advance_single (hcode 0 (Nat.succ_pos _)) h₁

/-! ## The loop that counts its cell down -/

/-- `b` is the start of a loop `[-]` whose brackets are matched. -/
structure CountsDown (code : Array Op) (jumps : Jumps) (b : Nat) : Prop where
  opens : code[b]? = some .openLoop
  body : code[b + 1]? = some (.run .dec 1)
  closes : code[b + 2]? = some .closeLoop
  forth : jumps.getD b 0 = b + 2
  back : jumps.getD (b + 2) 0 = b

/-- From its body the loop leaves a cell that is not zero at zero. -/
theorem after_countDown_body (hloop : CountsDown code jumps b) {n : Nat} {v : UInt8}
    (hn : v.toNat = n + 1) (h : tape[ptr]? = some v) :
    ∃ k, after code jumps around (k + 1) ⟨b + 1, tape, ptr, c⟩ =
      some ⟨b + 3, tape.setIfInBounds ptr 0, ptr, c⟩ := by
  induction n generalizing tape v with
  | zero =>
      have hv : v - 1 = 0 := by
        rw [show v = 1 from UInt8.toNat_inj.1 hn]
        rfl
      have hdec : repeated? .dec 1 tape ptr = some (tape.setIfInBounds ptr 0, ptr) := by
        simp [repeated?, h, hv]
      refine ⟨1, ?_⟩
      rw [after_succ (advance_single hloop.body hdec),
        after_one (advance_close hloop.closes (getElem?_setIfInBounds h 0)), if_pos rfl]
  | succ n ih =>
      have hv : (v - 1).toNat = n + 1 := by
        rw [UInt8.toNat_sub_of_le _ _ ?_, hn]
        · rfl
        · rw [UInt8.le_iff_toNat_le, hn]
          exact Nat.succ_le_succ (Nat.zero_le _)
      have hne : v - 1 ≠ 0 := by
        intro h0
        rw [h0] at hv
        cases hv
      have hdec : repeated? .dec 1 tape ptr = some (tape.setIfInBounds ptr (v - 1), ptr) := by
        simp [repeated?, h]
      have hcell := getElem?_setIfInBounds h (v - 1)
      obtain ⟨k, hk⟩ := ih hv hcell
      refine ⟨k + 2, ?_⟩
      rw [after_succ (advance_single hloop.body hdec),
        after_succ (advance_close hloop.closes hcell), if_neg hne, hloop.back, hk]
      simp

/-- The loop leaves its cell at zero. -/
theorem after_countDown (hloop : CountsDown code jumps b) {v : UInt8} (h : tape[ptr]? = some v) :
    ∃ k, after code jumps around (k + 1) ⟨b, tape, ptr, c⟩ =
      some ⟨b + 3, tape.setIfInBounds ptr 0, ptr, c⟩ := by
  by_cases hv : v = 0
  · subst hv
    refine ⟨0, ?_⟩
    rw [after_one (advance_open hloop.opens h), if_pos rfl, hloop.forth]
    obtain ⟨hlt, hget⟩ := Array.getElem?_eq_some_iff.1 h
    have hsame : tape.setIfInBounds ptr 0 = tape := by
      rw [← hget, Array.setIfInBounds, dif_pos hlt, Array.set_getElem_self]
    rw [hsame]
  · obtain ⟨n, hn⟩ : ∃ n, v.toNat = n + 1 := by
      refine ⟨v.toNat - 1, ?_⟩
      have : v.toNat ≠ 0 := fun h0 => hv (UInt8.toNat_inj.1 h0)
      omega
    obtain ⟨k, hk⟩ := @after_countDown_body code jumps around tape ptr b c hloop n v hn h
    refine ⟨k + 1, ?_⟩
    rw [after_succ (advance_open hloop.opens h), if_neg hv]
    exact hk

end Stretches

/-! ## One step of the short program -/

section Step

variable {ps : List Piece} {js jl : Jumps} {around : Surroundings} {s t u : State}
  {fault? : Option Fault}

theorem long_toArray_getElem? {k : Nat} {p : Piece} (hk : ps[k]? = some p) {d : Nat}
    (hd : d < p.body.length) : (long ps).toArray[offset ps k + d]? = p.body[d]? := by
  rw [List.getElem?_toArray, long_getElem? hk hd]

/-- A bracket of the short program has a stretch of one operation. -/
theorem offset_succ_of_isBracket (hps : ∀ p ∈ ps, p.Sound) {k : Nat} {op : Op}
    (hk : (short ps)[k]? = some op) (hop : op.isBracket = true) :
    offset ps (k + 1) = offset ps k + 1 := by
  rw [short_getElem?, Option.map_eq_some_iff] at hk
  obtain ⟨p, hp, rfl⟩ := hk
  rw [offset_succ hp]
  rcases (hps p (List.mem_of_getElem? hp)).shape with ⟨-, hbody⟩ | ⟨hplain, -⟩
  · rw [hbody]
    rfl
  · cases hop.symm.trans hplain

theorem isBracket_of_partners {ops : List Op} {i j : Nat} (h : Partners ops i j) :
    ∃ op, ops[j]? = some op ∧ op.isBracket = true := by
  rcases h with h | h
  · exact ⟨_, (encloses_of_mem_pairs h).getElem?_right, rfl⟩
  · exact ⟨_, (encloses_of_mem_pairs h).getElem?_left, rfl⟩

/-- A jump of the short program and the jump of the long program lead to the same
piece. -/
theorem jump_widen (hps : ∀ p ∈ ps, p.Sound) (hjs : Jumps.ofProgram (short ps) = .ok js)
    (hjl : Jumps.ofProgram (long ps) = .ok jl) {k : Nat} {op : Op}
    (hk : (short ps)[k]? = some op) (hop : op.isBracket = true) :
    jl.getD (offset ps k) 0 + 1 = offset ps (js.getD k 0 + 1) := by
  obtain ⟨j, hj⟩ := exists_partner (unmatched_of_ofProgram hjs) hk hop
  obtain ⟨op', hop', hbracket⟩ := isBracket_of_partners hj
  rw [jumps_getD hjs hj, jumps_getD hjl (partners_long hps hj),
    offset_succ_of_isBracket hps hop' hbracket]

theorem advance_widen_itself (hps : ∀ p ∈ ps, p.Sound)
    (hjs : Jumps.ofProgram (short ps) = .ok js) (hjl : Jumps.ofProgram (long ps) = .ok jl)
    {op : Op} (hk : ps[s.ip]? = some ⟨op, [op]⟩)
    (h : advance (short ps).toArray js around s = .next t) :
    advance (long ps).toArray jl around (widen ps s) = .next (widen ps t) := by
  have hshort : (short ps)[s.ip]? = some op := by rw [short_getElem?, hk]; rfl
  have hlong : (long ps).toArray[(widen ps s).ip]? = some op :=
    long_toArray_getElem? hk Nat.zero_lt_one
  have hnext : offset ps (s.ip + 1) = offset ps s.ip + 1 := offset_succ hk
  cases he : effect around s.tape s.ptr s.console op with
  | error r => cases (advance_error (by rw [List.getElem?_toArray]; exact hshort) he).symm.trans h
  | ok r =>
      obtain ⟨tape, ptr, c⟩ := r
      have hadv := (advance_ok (by rw [List.getElem?_toArray]; exact hshort) he).symm.trans h
      cases hadv
      refine (advance_ok hlong he).trans ?_
      suffices htarget : target jl (offset ps s.ip) s.tape s.ptr op =
          offset ps (target js s.ip s.tape s.ptr op) by
        rw [show (widen ps s).ip = offset ps s.ip from rfl]
        exact congrArg (fun ip => Turn.next ⟨ip, tape, ptr, c⟩) htarget
      by_cases hop : op.isBracket = true
      · have hjump := jump_widen hps hjs hjl hshort hop
        rcases Op.eq_of_isBracket hop with rfl | rfl
        · simp only [target]
          split
          · exact hjump
          · exact hnext.symm
        · simp only [target]
          split
          · exact hnext.symm
          · exact hjump
      · have hplain := Bool.eq_false_iff.2 hop
        rw [target_plain hplain, target_plain hplain, hnext]

theorem short_toArray_getElem? {p : Piece} (hk : ps[s.ip]? = some p) :
    (short ps).toArray[s.ip]? = some p.op := by
  rw [List.getElem?_toArray, short_getElem?, hk]
  rfl

/-- The stretch of `clear` is a loop that counts its cell down. -/
theorem countsDown_of_clear (hjl : Jumps.ofProgram (long ps) = .ok jl) {k : Nat}
    (hk : ps[k]? = some ⟨.clear, [.openLoop, .run .dec 1, .closeLoop]⟩) :
    CountsDown (long ps).toArray jl (offset ps k) := by
  have hmem : (offset ps k, offset ps k + 2) ∈ pairs (long ps) := by
    refine mem_pairs_long_of_body hk (Nested.singleton rfl).single_loop ?_
    exact List.mem_singleton_self _
  exact {
    opens := long_toArray_getElem? hk (d := 0) (by decide)
    body := long_toArray_getElem? hk (d := 1) (by decide)
    closes := long_toArray_getElem? hk (d := 2) (by decide)
    forth := jumps_getD hjl (.inl hmem)
    back := jumps_getD hjl (.inr hmem) }

theorem advance_widen_clear (hjl : Jumps.ofProgram (long ps) = .ok jl)
    (hk : ps[s.ip]? = some ⟨.clear, [.openLoop, .run .dec 1, .closeLoop]⟩)
    (h : advance (short ps).toArray js around s = .next t) :
    ∃ n, after (long ps).toArray jl around (n + 1) (widen ps s) = some (widen ps t) := by
  have hop := short_toArray_getElem? hk
  cases hv : s.tape[s.ptr]? with
  | none =>
      have he : effect around s.tape s.ptr s.console .clear = .error (.noCell, s.console) := by
        simp only [effect, hv]
      cases (advance_error hop he).symm.trans h
  | some v =>
      have he : effect around s.tape s.ptr s.console .clear =
          .ok (s.tape.setIfInBounds s.ptr 0, s.ptr, s.console) := by
        simp only [effect, hv]
      cases (advance_ok hop he).symm.trans h
      obtain ⟨n, hn⟩ := @after_countDown _ jl around s.tape s.ptr _ s.console
        (countsDown_of_clear hjl hk) v hv
      refine ⟨n, hn.trans ?_⟩
      have hnext : offset ps (s.ip + 1) = offset ps s.ip + 3 := offset_succ hk
      rw [← hnext]
      rfl

theorem advance_widen_repeated {kind : RunKind} {n : UInt32} (hn : n ≠ 0)
    (hk : ps[s.ip]? = some ⟨.run kind n, List.replicate n.toNat (.run kind 1)⟩)
    (h : advance (short ps).toArray js around s = .next t) :
    ∃ k, after (long ps).toArray jl around (k + 1) (widen ps s) = some (widen ps t) := by
  obtain ⟨m, hm⟩ : ∃ m, n.toNat = m + 1 := by
    refine ⟨n.toNat - 1, ?_⟩
    have : n.toNat ≠ 0 := fun h => hn (UInt32.toNat_inj.1 h)
    omega
  have hop := short_toArray_getElem? hk
  have hcode : ∀ d, d < m + 1 →
      (long ps).toArray[offset ps s.ip + d]? = some (.run kind 1) := by
    intro d hd
    rw [long_toArray_getElem? hk (by simpa [hm] using hd), List.getElem?_replicate, hm, if_pos hd]
  have he := effect_run around s.tape s.ptr s.console kind n
  rw [hm] at he
  cases hr : repeated? kind (m + 1) s.tape s.ptr with
  | none =>
      rw [hr] at he
      cases (advance_error hop he).symm.trans h
  | some r =>
      obtain ⟨tape', ptr'⟩ := r
      rw [hr] at he
      cases (advance_ok hop he).symm.trans h
      refine ⟨m, (after_repeated hcode hr).trans ?_⟩
      have hnext : offset ps (s.ip + 1) = offset ps s.ip + (m + 1) := by
        rw [offset_succ hk, List.length_replicate, hm]
      rw [← hnext]
      rfl

/-- **One step of the short program is one or more of the long one.** -/
theorem advance_widen_next (hps : ∀ p ∈ ps, p.Sound)
    (hjs : Jumps.ofProgram (short ps) = .ok js) (hjl : Jumps.ofProgram (long ps) = .ok jl)
    (h : advance (short ps).toArray js around s = .next t) :
    ∃ n, after (long ps).toArray jl around (n + 1) (widen ps s) = some (widen ps t) := by
  cases hk : ps[s.ip]? with
  | none =>
      have hop : (short ps).toArray[s.ip]? = none := by
        rw [List.getElem?_toArray, short_getElem?, hk]
        rfl
      cases (advance_end hop).symm.trans h
  | some p =>
      cases hps p (List.mem_of_getElem? hk) with
      | exact hexact =>
          cases hexact with
          | itself op => exact ⟨0, after_one (advance_widen_itself hps hjs hjl hk h)⟩
          | clear => exact advance_widen_clear hjl hk h
      | repeated kind hn => exact advance_widen_repeated hn hk h

/-! ## The last step of the short program -/

/-- How the end of a run of the long program agrees with that of the short one.  The
pointer can be elsewhere only when a run of moves has left the tape. -/
structure SameEnd (ps : List Piece) (fault? : Option Fault) (u : State)
    (fault?' : Option Fault) (u' : State) : Prop where
  fault : fault? = fault?'.map (relabel (pieceAt ps))
  tape : u'.tape = u.tape
  console : u'.console = u.console
  charge : charge (long ps).toArray u' = charge (short ps).toArray u
  ptr : (∀ p ∈ ps, p.Exact) ∨ fault? = none → u'.ptr = u.ptr

theorem relabel_fault (f : Nat → Nat) (trouble : Trouble) (ip size : Nat) :
    relabel f (trouble.fault ip size) = trouble.fault (f ip) size := by
  cases trouble <;> rfl

/-- Both programs stop at operations of the same piece. -/
theorem charge_of_piece {p : Piece} (hk : ps[s.ip]? = some p) {d : Nat} (hd : d < p.body.length)
    {u' : State} (hip : u.ip = s.ip) (hip' : u'.ip = offset ps s.ip + d) :
    charge (long ps).toArray u' = charge (short ps).toArray u := by
  have hshort : u.ip < (short ps).toArray.size := by
    rw [hip]
    exact (Array.getElem?_eq_some_iff.1 (short_toArray_getElem? hk)).1
  have hlong : u'.ip < (long ps).toArray.size := by
    have := long_toArray_getElem? hk hd
    rw [hip']
    rw [List.getElem?_eq_getElem hd] at this
    exact (Array.getElem?_eq_some_iff.1 this).1
  rw [charge, charge, if_pos hshort, if_pos hlong]

theorem advance_widen_stop_end (hk : ps[s.ip]? = none)
    (h : advance (short ps).toArray js around s = .stop fault? u) :
    ∃ u', advance (long ps).toArray jl around (widen ps s) = .stop fault? u' ∧
      SameEnd ps fault? u fault? u' := by
  have hop : (short ps).toArray[s.ip]? = none := by
    rw [List.getElem?_toArray, short_getElem?, hk]
    rfl
  have hop' : (long ps).toArray[(widen ps s).ip]? = none := by
    rw [List.getElem?_toArray]
    exact long_getElem?_of_none hk
  cases (advance_end hop).symm.trans h
  refine ⟨_, advance_end hop', ?_, rfl, rfl, ?_, fun _ => rfl⟩
  · cases (s.console.flush around).1 <;> rfl
  · exact (charge_of_none hop').trans (charge_of_none hop).symm

theorem advance_widen_stop_itself {op : Op} (hk : ps[s.ip]? = some ⟨op, [op]⟩)
    (h : advance (short ps).toArray js around s = .stop fault? u) :
    ∃ fault?' u', advance (long ps).toArray jl around (widen ps s) = .stop fault?' u' ∧
      SameEnd ps fault? u fault?' u' := by
  have hop := short_toArray_getElem? hk
  have hop' : (long ps).toArray[(widen ps s).ip]? = some op :=
    long_toArray_getElem? hk Nat.zero_lt_one
  have hpiece : pieceAt ps (offset ps s.ip) = s.ip := pieceAt_offset hk Nat.zero_lt_one
  cases he : effect around s.tape s.ptr s.console op with
  | ok r => cases (advance_ok hop he).symm.trans h
  | error r =>
      obtain ⟨trouble, c⟩ := r
      cases (advance_error hop he).symm.trans h
      refine ⟨_, _, advance_error hop' he, ?_, rfl, rfl, ?_, fun _ => rfl⟩
      · rw [Option.map_some, relabel_fault]
        exact congrArg (fun ip => some (trouble.fault ip s.tape.size)) hpiece.symm
      · exact charge_of_piece hk (d := 0) Nat.zero_lt_one rfl rfl

theorem advance_widen_stop_clear
    (hk : ps[s.ip]? = some ⟨.clear, [.openLoop, .run .dec 1, .closeLoop]⟩)
    (h : advance (short ps).toArray js around s = .stop fault? u) :
    ∃ fault?' u', advance (long ps).toArray jl around (widen ps s) = .stop fault?' u' ∧
      SameEnd ps fault? u fault?' u' := by
  have hop := short_toArray_getElem? hk
  have hop' : (long ps).toArray[(widen ps s).ip]? = some .openLoop :=
    long_toArray_getElem? hk (d := 0) (by decide)
  have hpiece : pieceAt ps (offset ps s.ip) = s.ip := pieceAt_offset hk (d := 0) (by decide)
  cases hv : s.tape[s.ptr]? with
  | some v =>
      have he : effect around s.tape s.ptr s.console .clear =
          .ok (s.tape.setIfInBounds s.ptr 0, s.ptr, s.console) := by
        simp only [effect, hv]
      cases (advance_ok hop he).symm.trans h
  | none =>
      have he : ∀ op, op = .clear ∨ op = .openLoop →
          effect around s.tape s.ptr s.console op = .error (.noCell, s.console) := by
        rintro op (rfl | rfl) <;> simp only [effect, hv]
      cases (advance_error hop (he _ (.inl rfl))).symm.trans h
      refine ⟨_, _, advance_error hop' (he _ (.inr rfl)), ?_, rfl, rfl, ?_, fun _ => rfl⟩
      · rw [Option.map_some, relabel_fault]
        exact congrArg (fun ip => some (Trouble.noCell.fault ip s.tape.size)) hpiece.symm
      · exact charge_of_piece hk (d := 0) (by decide) rfl rfl

/-- A run that leaves the tape ends within its stretch. -/
theorem ends_widen_repeated {kind : RunKind} {n : UInt32} (hn : n ≠ 0)
    (hk : ps[s.ip]? = some ⟨.run kind n, List.replicate n.toNat (.run kind 1)⟩)
    (hexact : ¬ Piece.Exact ⟨.run kind n, List.replicate n.toNat (.run kind 1)⟩)
    (h : advance (short ps).toArray js around s = .stop fault? u) :
    ∃ d fault?' u', Ends (long ps).toArray jl around d (widen ps s) fault?' u' ∧
      SameEnd ps fault? u fault?' u' := by
  obtain ⟨m, hm⟩ : ∃ m, n.toNat = m + 1 := by
    refine ⟨n.toNat - 1, ?_⟩
    have : n.toNat ≠ 0 := fun h => hn (UInt32.toNat_inj.1 h)
    omega
  have hop := short_toArray_getElem? hk
  have hcode : ∀ d, d < m + 1 →
      (long ps).toArray[offset ps s.ip + d]? = some (.run kind 1) := by
    intro d hd
    rw [long_toArray_getElem? hk (by simpa [hm] using hd), List.getElem?_replicate, hm, if_pos hd]
  have he := effect_run around s.tape s.ptr s.console kind n
  rw [hm] at he
  cases hr : repeated? kind (m + 1) s.tape s.ptr with
  | some r =>
      rw [hr] at he
      cases (advance_ok hop he).symm.trans h
  | none =>
      rw [hr] at he
      cases (advance_error hop he).symm.trans h
      obtain ⟨d, ptr', hd, hends⟩ := @ends_repeated _ jl around _ _ _ s.console _ _ hcode hr
      have hd' : d < (List.replicate n.toNat (Op.run kind 1)).length := by simpa [hm] using hd
      refine ⟨d, _, _, hends, ?_, rfl, rfl, ?_, ?_⟩
      · rw [Option.map_some, relabel, pieceAt_offset hk hd']
        rfl
      · exact charge_of_piece hk hd' rfl rfl
      · rintro (hall | hnone)
        · exact absurd (hall _ (List.mem_of_getElem? hk)) hexact
        · cases hnone

/-- **The last step of the short program** is the end of the long one. -/
theorem advance_widen_stop (hps : ∀ p ∈ ps, p.Sound)
    (h : advance (short ps).toArray js around s = .stop fault? u) :
    ∃ d fault?' u', Ends (long ps).toArray jl around d (widen ps s) fault?' u' ∧
      SameEnd ps fault? u fault?' u' := by
  have hexact : ∀ p, ps[s.ip]? = some p → p.Exact →
      ∃ d fault?' u', Ends (long ps).toArray jl around d (widen ps s) fault?' u' ∧
        SameEnd ps fault? u fault?' u' := by
    intro p hk hp
    cases hp with
    | itself op =>
        obtain ⟨f, u', hstop, hsame⟩ := @advance_widen_stop_itself _ js jl around _ _ _ op hk h
        exact ⟨0, f, u', ⟨_, rfl, hstop⟩, hsame⟩
    | clear =>
        obtain ⟨f, u', hstop, hsame⟩ := @advance_widen_stop_clear _ js jl around _ _ _ hk h
        exact ⟨0, f, u', ⟨_, rfl, hstop⟩, hsame⟩
  cases hk : ps[s.ip]? with
  | none =>
      obtain ⟨u', hstop, hsame⟩ := @advance_widen_stop_end _ js jl around _ _ _ hk h
      exact ⟨0, fault?, u', ⟨_, rfl, hstop⟩, hsame⟩
  | some p =>
      by_cases hp : p.Exact
      · exact hexact p hk hp
      · cases hps p (List.mem_of_getElem? hk) with
        | exact hp' => exact absurd hp' hp
        | repeated kind hn => exact ends_widen_repeated hn hk hp h

/-! ## Whole runs -/

theorem after_widen (hps : ∀ p ∈ ps, p.Sound) (hjs : Jumps.ofProgram (short ps) = .ok js)
    (hjl : Jumps.ofProgram (long ps) = .ok jl) {n : Nat}
    (h : after (short ps).toArray js around n s = some t) :
    ∃ n', n ≤ n' ∧ after (long ps).toArray jl around n' (widen ps s) = some (widen ps t) := by
  induction n generalizing s with
  | zero =>
      cases h
      exact ⟨0, Nat.le_refl _, rfl⟩
  | succ n ih =>
      cases ha : advance (short ps).toArray js around s with
      | stop f u => rw [after_succ_of_stop ha] at h; cases h
      | next r =>
          rw [after_succ ha] at h
          obtain ⟨k, hk⟩ := advance_widen_next hps hjs hjl ha
          obtain ⟨n', hn', hrest⟩ := ih h
          exact ⟨k + 1 + n', by omega, (after_add hk n').trans hrest⟩

/-- When the short program ends so does the long one. -/
theorem ends_long_of_short (hps : ∀ p ∈ ps, p.Sound) (hjs : Jumps.ofProgram (short ps) = .ok js)
    (hjl : Jumps.ofProgram (long ps) = .ok jl) {n : Nat}
    (h : Ends (short ps).toArray js around n s fault? u) :
    ∃ n' fault?' u', n ≤ n' ∧ Ends (long ps).toArray jl around n' (widen ps s) fault?' u' ∧
      SameEnd ps fault? u fault?' u' := by
  obtain ⟨t, ht, hstop⟩ := h
  obtain ⟨n', hn', ht'⟩ := after_widen hps hjs hjl ht
  obtain ⟨d, f, u', hends, hsame⟩ := @advance_widen_stop _ js jl around _ _ _ hps hstop
  exact ⟨n' + d, f, u', by omega, hends.of_after ht', hsame⟩

/-- When the long program ends so does the short one: it cannot take more steps than
the long one has taken. -/
theorem ends_short_of_long (hps : ∀ p ∈ ps, p.Sound) (hjs : Jumps.ofProgram (short ps) = .ok js)
    (hjl : Jumps.ofProgram (long ps) = .ok jl) {n' : Nat} {fault?' : Option Fault} {u' : State}
    (h : Ends (long ps).toArray jl around n' (widen ps s) fault?' u') :
    ∃ n fault? u, n ≤ n' ∧ Ends (short ps).toArray js around n s fault? u ∧
      SameEnd ps fault? u fault?' u' := by
  cases hafter : after (short ps).toArray js around (n' + 1) s with
  | some t =>
      obtain ⟨k, hk, hlong⟩ := after_widen hps hjs hjl hafter
      exact absurd (h.le_of_after hlong) (by omega)
  | none =>
      obtain ⟨n, f, u, hn, hends⟩ := exists_ends_of_after_eq_none hafter
      obtain ⟨k, f', w, -, hlong, hsame⟩ := ends_long_of_short hps hjs hjl hends
      obtain ⟨-, rfl, rfl⟩ := hlong.unique h
      exact ⟨n, f, u, Nat.le_of_lt_succ hn, hends, hsame⟩

end Step

/-! ## What is seen of the two runs -/

/-- What is seen of the short program and of the long one is the same, with the
operations of the long one named by their pieces. -/
structure SeenAlike (ps : List Piece) (o o' : Observation) : Prop where
  fault : o.fault? = o'.fault?.map (relabel (pieceAt ps))
  tape : o'.tape = o.tape
  console : o'.console = o.console
  ptr : (∀ p ∈ ps, p.Exact) ∨ o.fault? = none → o'.ptr = o.ptr

theorem SameEnd.seenAlike {ps : List Piece} {fault? fault?' : Option Fault} {u u' : State}
    (h : SameEnd ps fault? u fault?' u') : SeenAlike ps (u.observe fault?) (u'.observe fault?') :=
  ⟨h.fault, h.tape, h.console, h.ptr⟩

section Seen

variable {ps : List Piece} {size : Nat} {around : Surroundings} {o o' : Observation}

/-- When a bracket is reported in the short program, the long one reports the bracket
it stands for. -/
theorem ofProgram_long_of_error (hps : ∀ p ∈ ps, p.Sound) {k : Nat}
    (h : Jumps.ofProgram (short ps) = .error k) :
    Jumps.ofProgram (long ps) = .error (offset ps k) ∧ pieceAt ps (offset ps k) = k := by
  obtain ⟨u, hu, rfl⟩ := ofProgram_eq_error_iff.1 h
  constructor
  · rw [ofProgram_eq_error_iff, unmatched_long hps, hu]
    exact ⟨relocate (offset ps) u, rfl, index_relocate _ _⟩
  · rcases unmatchedFrom_index hu with hnil | ⟨k, op, hk, hop, -⟩
    · cases hnil
    · rw [Nat.zero_add] at hk
      rw [short_getElem?, Option.map_eq_some_iff] at hop
      obtain ⟨p, hp, -⟩ := hop
      rw [hk]
      exact pieceAt_offset hp (hps p (List.mem_of_getElem? hp)).length_pos

theorem ofProgram_long_of_ok (hps : ∀ p ∈ ps, p.Sound) {js : Jumps}
    (h : Jumps.ofProgram (short ps) = .ok js) : ∃ jl, Jumps.ofProgram (long ps) = .ok jl := by
  rw [ofProgram_ok_iff, unmatched_long hps, unmatched_of_ofProgram h]
  rfl

/-- Programs that are not started are seen alike. -/
theorem seenAlike_of_error {k : Nat} (hk : pieceAt ps (offset ps k) = k) :
    SeenAlike ps ((State.initial size).observe (some (.unmatchedLoop k)))
      ((State.initial size).observe (some (.unmatchedLoop (offset ps k)))) := by
  refine ⟨?_, rfl, rfl, fun _ => rfl⟩
  simp [State.observe, relabel, hk]

/-- Without a limit, the long program ends when the short one does. -/
theorem observed_long_of_short (hps : ∀ p ∈ ps, p.Sound)
    (h : Observed ⟨size, none⟩ (short ps) around o) :
    ∃ o', Observed ⟨size, none⟩ (long ps) around o' ∧ SeenAlike ps o o' := by
  cases hjs : Jumps.ofProgram (short ps) with
  | error k =>
      obtain ⟨hjl, hk⟩ := ofProgram_long_of_error hps hjs
      rw [observed_of_error hjs] at h
      subst h
      exact ⟨_, (observed_of_error hjl).2 rfl, seenAlike_of_error hk⟩
  | ok js =>
      obtain ⟨jl, hjl⟩ := ofProgram_long_of_ok hps hjs
      obtain ⟨n, f, u, hends, rfl⟩ := (observed_unlimited_iff hjs).1 h
      obtain ⟨n', f', u', -, hlong, hsame⟩ := ends_long_of_short hps hjs hjl hends
      exact ⟨_, (observed_unlimited_iff hjl).2 ⟨n', f', u', hlong, rfl⟩, hsame.seenAlike⟩

/-- The short program ends when the long one does, and under a limit that does not stop
the long one. -/
theorem observed_short_of_long (hps : ∀ p ∈ ps, p.Sound) {limit? : Option Nat}
    (h : Observed ⟨size, limit?⟩ (long ps) around o')
    (hlimit : ∀ limit, limit? = some limit → o'.fault? ≠ some (.stepLimit limit)) :
    ∃ o, Observed ⟨size, limit?⟩ (short ps) around o ∧ SeenAlike ps o o' := by
  cases hjs : Jumps.ofProgram (short ps) with
  | error k =>
      obtain ⟨hjl, hk⟩ := ofProgram_long_of_error hps hjs
      rw [observed_of_error hjl] at h
      subst h
      exact ⟨_, (observed_of_error hjs).2 rfl, seenAlike_of_error hk⟩
  | ok js =>
      obtain ⟨jl, hjl⟩ := ofProgram_long_of_ok hps hjs
      rcases (observed_iff hjl).1 h with
        ⟨n', f', u', hlong, hn', rfl⟩ | ⟨limit, u', hmax, -, -, rfl⟩
      · obtain ⟨n, f, u, hn, hends, hsame⟩ :=
          ends_short_of_long (s := .initial size) hps hjs hjl hlong
        have hn : ∀ limit, limit? = some limit → n + charge (short ps).toArray u ≤ limit := by
          intro limit hl
          have hle := hn' limit hl
          rw [hsame.charge] at hle
          omega
        exact ⟨_, (observed_iff hjs).2 (.inl ⟨n, f, u, hends, hn, rfl⟩), hsame.seenAlike⟩
      · exact absurd rfl (hlimit limit hmax)

/-- When a limit stops the long program, the short one has done at least as much at the
console under the same limit. -/
theorem observed_short_of_stepLimit (hps : ∀ p ∈ ps, p.Sound) {limit : Nat}
    (h : Observed ⟨size, some limit⟩ (long ps) around o')
    (hlimit : o'.fault? = some (.stepLimit limit)) :
    ∃ o, Observed ⟨size, some limit⟩ (short ps) around o ∧ o'.console.Extends o.console := by
  cases hjs : Jumps.ofProgram (short ps) with
  | error k =>
      rw [observed_of_error (ofProgram_long_of_error hps hjs).1] at h
      subst h
      cases hlimit
  | ok js =>
      obtain ⟨jl, hjl⟩ := ofProgram_long_of_ok hps hjs
      obtain ⟨o, ho⟩ := exists_observed_of_limit size limit (short ps) around
      refine ⟨o, ho, ?_⟩
      rcases (observed_iff hjl).1 h with
        ⟨n', f', u', hlong, hn', rfl⟩ | ⟨limit', u', hmax, hafter, hip, rfl⟩
      · obtain ⟨t, -, hstop⟩ := hlong
        exact absurd hlimit (advance_ne_stepLimit hstop limit)
      cases hmax
      rcases (observed_iff hjs).1 ho with
        ⟨n, f, u, hends, -, rfl⟩ | ⟨limit', u, hmax, hshort, -, rfl⟩
      · -- the short run ends, so the long one does, and later than where it was stopped
        obtain ⟨n', f', w, -, hlong, hsame⟩ := ends_long_of_short hps hjs hjl hends
        have hle := hlong.le_of_after hafter
        obtain ⟨t, ht, hstop⟩ := hlong
        obtain ⟨r, hr, hrest⟩ := exists_after_of_le ht hle
        cases hafter.symm.trans hr
        have hextends := Ends.extends ⟨t, hrest, hstop⟩
        rwa [hsame.console] at hextends
      · cases hmax
        obtain ⟨n', hn', hlong⟩ := after_widen hps hjs hjl hshort
        obtain ⟨r, hr, hrest⟩ := exists_after_of_le hlong hn'
        cases hafter.symm.trans hr
        have hextends := after_extends hrest
        exact hextends

end Seen

end Brainfuck.Abbreviation
