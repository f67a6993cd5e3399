import Brainfuck.Command.Usage
import Brainfuck.Proofs.Fallible
import Mathlib.Data.List.TakeDrop
import Mathlib.Data.List.TakeWhile

/-!
# Command lines that are understood

A line is understood argument by argument.  The last argument may still be pending, so what
has been taken is described by what it comes to when that argument is settled.

* `Usage.IsWord`, `Usage.IsOption` — texts that are not taken for an option, and those that
  are.
* `Taken.Reaches` — what the arguments up to here come to.
* `Taken.Means` — what the arguments from here on ask for.
* `Taken.Reaches.positional`, `Taken.Reaches.flag`, `Taken.Reaches.valued` — one more
  argument of each kind.
* `Usage.parse_ops`, `Usage.parse_interpret_saved`, `Usage.parse_interpret_source` — lines
  that save a program and that run a saved program or a source text.
-/

namespace Brainfuck.Usage

variable {text arg name : String} {n : Nat}

/-- A text that is not taken for an option. -/
structure IsWord (text : String) : Prop where
  ne_empty : text ≠ ""
  not_option : ∀ c rest, text.toList ≠ '-' :: c :: rest

/-- A number is not taken for an option. -/
theorem isWord_of_number (h : number? text = some n) : IsWord text := by
  constructor
  · rintro rfl
    cases h
  · intro c rest hc
    simp [number?, hc] at h

/-- The argument asks for the option of the given name, one of those that only some commands
have. -/
def IsOption (arg name : String) : Prop :=
  arg.toList = '-' :: '-' :: name.toList ∧ name ≠ "" ∧ '=' ∉ name.toList ∧
    name ≠ "verbose" ∧ name ≠ "help"

instance (arg name : String) : Decidable (IsOption arg name) :=
  inferInstanceAs (Decidable (_ ∧ _))

namespace Taken

variable {t t' u : Taken} {g : Grammar} {kind : ValueKind} {value : Value}
  {names args : List String}

/-- What has been taken, with one more argument. -/
def enter (t : Taken) (name : String) (value : Value) : Taken :=
  { t with values := t.values ++ [(name, value)] }

theorem add_of_new (h : t.value? name = none) :
    t.add name (.ok value) = .ok (t.enter name value) := by
  rw [add, h]
  rfl

theorem eq_enter_of_add {v : Except UsageError Value} (h : t.add name v = .ok u) :
    ∃ value, v = .ok value ∧ u = t.enter name value := by
  unfold add at h
  split at h
  · cases h
  · cases v with
    | error e => cases h
    | ok value =>
        cases h
        exact ⟨value, rfl, rfl⟩

/-- Only values and the pending argument are touched when an argument is settled. -/
theorem frame_of_settle (h : t.settle = .ok u) :
    u.pending? = none ∧ u.positionals = t.positionals ∧ u.positionalOnly = t.positionalOnly := by
  unfold settle at h
  split at h
  · next hpending =>
      cases h
      exact ⟨hpending, rfl, rfl⟩
  · cases h
  · obtain ⟨value, -, rfl⟩ := eq_enter_of_add h
    exact ⟨rfl, rfl, rfl⟩

theorem settle_of_none (h : t.pending? = none) : t.settle = .ok t := by
  rw [settle, h]

/-- The arguments up to here come to `u` when the pending one is settled, and options may
still follow. -/
structure Reaches (t u : Taken) : Prop where
  settled : t.settle = .ok u
  options : t.positionalOnly = false

/-- A pending argument whose value can be read. -/
theorem reaches_pending (hpending : u.pending? = none) (hoptions : u.positionalOnly = false)
    (hvalue : readValue kind text = .ok value) (hnew : u.value? name = none) :
    Reaches { u with pending? := some ⟨name, kind, some text⟩ } (u.enter name value) := by
  refine ⟨?_, hoptions⟩
  rw [settle]
  dsimp only
  rw [hvalue, ← hpending]
  exact add_of_new hnew

theorem reaches_start (names : List String) :
    Reaches { positionals := names } { positionals := names } :=
  ⟨rfl, rfl⟩

/-- A word that is not waited for is a positional argument. -/
theorem Reaches.take_word (h : t.Reaches u) (hword : IsWord text) :
    t.take g text = t.takePositional text := by
  rw [take, h.options, if_neg Bool.false_ne_true]
  split
  · next hc => exact absurd hc (hword.not_option _ _)
  · next hc => exact absurd hc (hword.not_option _ _)
  · next hc => exact absurd hc (hword.not_option _ _)
  · split
    · next hpending =>
        have hsettled := h.settled
        rw [settle, hpending] at hsettled
        cases hsettled
    · rfl

/-- A word that is waited for is the value of its option. -/
theorem take_awaited (hoptions : t.positionalOnly = false) (hword : IsWord text) :
    { t with pending? := some ⟨name, kind, none⟩ }.take g text =
      .ok { t with pending? := some ⟨name, kind, some text⟩ } := by
  rw [take, hoptions, if_neg Bool.false_ne_true]
  split
  · next hc => exact absurd hc (hword.not_option _ _)
  · next hc => exact absurd hc (hword.not_option _ _)
  · next hc => exact absurd hc (hword.not_option _ _)
  · rfl

theorem take_option (hoptions : t.positionalOnly = false) (harg : IsOption arg name) :
    t.take g arg = t.takeOption g name none := by
  obtain ⟨hspelled, hempty, hvalue, -, -⟩ := harg
  have hspan : name.toList.span (· ≠ '=') = (name.toList, []) := by
    have hall : ∀ c ∈ name.toList, decide (c ≠ '=') = true := by
      intro c hc
      exact decide_eq_true fun heq => hvalue (heq ▸ hc)
    rw [List.span_eq_takeWhile_dropWhile, List.takeWhile_eq_self_iff.2 hall,
      List.dropWhile_eq_nil_iff.2 hall]
  rcases hname : name.toList with _ | ⟨c, cs⟩
  · exact absurd (String.toList_eq_nil_iff.1 hname) hempty
  rw [hname] at hspan
  rw [take, hoptions, if_neg Bool.false_ne_true, hspelled, hname]
  simp only [hspan]
  rw [← hname, String.ofList_toList]

theorem takeOption_of_isOption (harg : IsOption arg name) :
    t.takeOption g name none =
      match g.options.find? (·.name = name) with
      | none => .error .unknownArgument
      | some ⟨_, none⟩ => t.settle >>= fun t => t.add name (.ok .flag)
      | some ⟨_, some kind⟩ => t.settle >>= fun t =>
          .ok { t with pending? := some ⟨name, kind, none⟩ } := by
  obtain ⟨-, -, -, hverbose, hhelp⟩ := harg
  rw [takeOption, if_neg hverbose, if_neg hhelp]
  rfl

/-! ## One more argument -/

/-- The arguments that follow ask for a command, and not for more log output. -/
def Means (g : Grammar) (name : String) (t : Taken) (args : List String) (command : Command) :
    Prop :=
  ∃ u, takeAll g t args = .ok u ∧ u.verbosity = 0 ∧ u.command name = .ok command

variable {command : Command}

theorem Means.cons (h : Means g name t' args command) (htake : t.take g arg = .ok t') :
    Means g name t (arg :: args) command := by
  obtain ⟨u, hu, hcommand⟩ := h
  refine ⟨u, ?_, hcommand⟩
  rw [takeAll, htake]
  exact hu

theorem Reaches.positional {key : String} (h : t.Reaches u) (hword : IsWord text)
    (hnames : u.positionals = key :: names) (hnew : u.value? key = none)
    (hnext : ∀ t', t'.Reaches ({ u with positionals := names }.enter key (.path text)) →
      Means g name t' args command) :
    Means g name t (text :: args) command := by
  obtain ⟨hpending, hpositionals, hoptions⟩ := frame_of_settle h.settled
  have htake : t.take g text =
      .ok { u with positionals := names, pending? := some ⟨key, .path, some text⟩ } := by
    rw [h.take_word hword, takePositional, ← hpositionals, hnames]
    dsimp only
    rw [h.settled]
    rfl
  have hvalue : readValue .path text = .ok (.path text) := if_neg hword.ne_empty
  have hreaches := reaches_pending (u := { u with positionals := names }) hpending
    (hoptions.trans h.options) hvalue hnew
  exact (hnext _ hreaches).cons htake

theorem Reaches.flag (h : t.Reaches u) (key : String) (harg : IsOption arg key)
    (hgrammar : g.options.find? (·.name = key) = some ⟨key, none⟩)
    (hnew : u.value? key = none)
    (hnext : ∀ t', t'.Reaches (u.enter key .flag) → Means g name t' args command) :
    Means g name t (arg :: args) command := by
  obtain ⟨hpending, -, hoptions⟩ := frame_of_settle h.settled
  have htake : t.take g arg = .ok (u.enter key .flag) := by
    rw [take_option h.options harg, takeOption_of_isOption harg, hgrammar]
    dsimp only
    rw [h.settled]
    exact add_of_new hnew
  exact (hnext _ ⟨settle_of_none hpending, hoptions.trans h.options⟩).cons htake

theorem Reaches.valued (h : t.Reaches u) (key : String) (harg : IsOption arg key)
    (hgrammar : g.options.find? (·.name = key) = some ⟨key, some kind⟩)
    (hnew : u.value? key = none) (hword : IsWord text)
    (hvalue : readValue kind text = .ok value)
    (hnext : ∀ t', t'.Reaches (u.enter key value) → Means g name t' args command) :
    Means g name t (arg :: text :: args) command := by
  obtain ⟨hpending, -, hoptions⟩ := frame_of_settle h.settled
  have hoptions := hoptions.trans h.options
  have htake : t.take g arg = .ok { u with pending? := some ⟨key, kind, none⟩ } := by
    rw [take_option h.options harg, takeOption_of_isOption harg, hgrammar]
    dsimp only
    rw [h.settled]
    rfl
  have hreaches := reaches_pending hpending hoptions hvalue hnew
  exact ((hnext _ hreaches).cons (take_awaited hoptions hword)).cons htake

/-- The end of the line. -/
theorem Reaches.done (h : t.Reaches u) (hquiet : u.verbosity = 0)
    (hcommand : u.command name = .ok command) : Means g name t [] command :=
  ⟨u, h.settled, hquiet, hcommand⟩

theorem Reaches.path (h : t.Reaches u) (key : String) (harg : IsOption arg key)
    (hgrammar : g.options.find? (·.name = key) = some ⟨key, some .path⟩)
    (hnew : u.value? key = none) (hword : IsWord text)
    (hnext : ∀ t', t'.Reaches (u.enter key (.path text)) → Means g name t' args command) :
    Means g name t (arg :: text :: args) command :=
  h.valued key harg hgrammar hnew hword (if_neg hword.ne_empty) hnext

theorem Reaches.number (h : t.Reaches u) (key : String) (harg : IsOption arg key)
    (hgrammar : g.options.find? (·.name = key) = some ⟨key, some .number⟩)
    (hnew : u.value? key = none) (hnumber : Usage.number? text = some n)
    (hnext : ∀ t', t'.Reaches (u.enter key (.number n)) → Means g name t' args command) :
    Means g name t (arg :: text :: args) command := by
  have hvalue : readValue .number text = .ok (.number n) := by rw [readValue, hnumber]
  exact h.valued key harg hgrammar hnew (isWord_of_number hnumber) hvalue hnext

end Taken

open Taken

/-! ## Whole lines -/

theorem parse_of_means {g : Grammar} {args : List String} {command : Command}
    (hname : name ≠ "help") (hgrammar : grammars.lookup name = some g)
    (h : Means g name { positionals := g.positionals } args command) :
    parse (name :: args) = .ok ⟨0, command⟩ := by
  obtain ⟨u, htake, hquiet, hcommand⟩ := h
  have hcommandName : isCommandName name = true := by simp [isCommandName, hgrammar]
  unfold parse parseFrom
  rw [if_pos hcommandName, parseCommand, if_neg hname, hgrammar]
  dsimp only
  rw [htake]
  simp only [Except.ok_bind, hcommand, hquiet, if_true]
  rfl

/-- The option that keeps a program as it is read. -/
def optimizeArgs (noOptimize : Bool) : List String :=
  if noOptimize then ["--no-optimize"] else []

/-- The option that limits the steps, if they are to be limited. -/
def limitArgs (limit? : Option String) : List String :=
  match limit? with
  | none => []
  | some text => ["--max-steps", text]

/-- The limit on the steps. -/
def maxSteps (limit? : Option String) : Option Nat := limit?.bind number?

section Lines

variable {t u : Taken} {g : Grammar} {args : List String} {command : Command}
  {source saved tapeText : String} {tape : Nat} {limit? : Option String}

theorem means_optimizeArgs (h : t.Reaches u) (noOptimize : Bool)
    (hgrammar : g.options.find? (·.name = "no-optimize") = some ⟨"no-optimize", none⟩)
    (hnew : u.value? "no-optimize" = none)
    (hnext : ∀ t', t'.Reaches (if noOptimize then u.enter "no-optimize" .flag else u) →
      Means g name t' args command) :
    Means g name t (optimizeArgs noOptimize ++ args) command := by
  cases noOptimize with
  | false => exact hnext t h
  | true => exact h.flag _ (by decide) hgrammar hnew hnext

/-- A limit stands at the end of a line. -/
theorem means_limitArgs (h : t.Reaches u) (hlimit : ∀ text ∈ limit?, (number? text).isSome)
    (hgrammar : g.options.find? (·.name = "max-steps") = some ⟨"max-steps", some .number⟩)
    (hnew : u.value? "max-steps" = none) (hquiet : u.verbosity = 0)
    (hnone : limit? = none → u.command name = .ok command)
    (hsome : ∀ n, maxSteps limit? = some n →
      (u.enter "max-steps" (.number n)).command name = .ok command) :
    Means g name t (limitArgs limit?) command := by
  cases limit? with
  | none => exact h.done hquiet (hnone rfl)
  | some text =>
      obtain ⟨n, hn⟩ := Option.isSome_iff_exists.1 (hlimit text rfl)
      exact h.number _ (by decide) hgrammar hnew hn fun t h => h.done hquiet (hsome n hn)

theorem parse_ops (hsource : IsWord source) (hsaved : IsWord saved) (noOptimize : Bool) :
    parse (["ops", source] ++ optimizeArgs noOptimize ++ ["--emit", saved]) =
      .ok ⟨0, .list source { saveTo := some saved } { shorten := !noOptimize }⟩ := by
  rw [List.append_assoc]
  refine parse_of_means (by decide) rfl ?_
  refine (reaches_start _).positional hsource rfl rfl fun t h => ?_
  refine means_optimizeArgs h noOptimize rfl rfl fun t h => ?_
  refine h.path "emit" (by decide) rfl ?_ hsaved fun t h => h.done ?_ ?_
  all_goals cases noOptimize <;> rfl

theorem parse_interpret_saved (hsaved : IsWord saved) (htape : number? tapeText = some tape)
    (hlimit : ∀ text ∈ limit?, (number? text).isSome) :
    parse (["interpret", "--ir", saved, "--tape-size", tapeText] ++ limitArgs limit?) =
      .ok ⟨0, .interpret (.saved saved) (maxSteps limit?) { go := { tapeSize := tape } }⟩ := by
  refine parse_of_means (by decide) rfl ?_
  refine (reaches_start _).path "ir" (by decide) rfl rfl hsaved fun t h => ?_
  refine h.number "tape-size" (by decide) rfl rfl htape fun t h => ?_
  refine means_limitArgs h hlimit rfl rfl rfl ?_ ?_
  · rintro rfl
    rfl
  · intro n hn
    rw [hn]
    rfl

theorem parse_interpret_source (hsource : IsWord source) (noOptimize : Bool)
    (htape : number? tapeText = some tape) (hlimit : ∀ text ∈ limit?, (number? text).isSome) :
    parse (["interpret", source] ++ optimizeArgs noOptimize ++ ["--tape-size", tapeText] ++
        limitArgs limit?) =
      .ok ⟨0, .interpret (.source source) (maxSteps limit?)
        { shorten := !noOptimize, go := { tapeSize := tape } }⟩ := by
  rw [List.append_assoc, List.append_assoc]
  refine parse_of_means (by decide) rfl ?_
  refine (reaches_start _).positional hsource rfl rfl fun t h => ?_
  refine means_optimizeArgs h noOptimize rfl rfl fun t h => ?_
  refine h.number "tape-size" (by decide) rfl ?_ htape fun t h => ?_
  · cases noOptimize <;> rfl
  refine means_limitArgs h hlimit rfl ?_ ?_ ?_ ?_
  · cases noOptimize <;> rfl
  · cases noOptimize <;> rfl
  · rintro rfl
    cases noOptimize <;> rfl
  · intro n hn
    rw [hn]
    cases noOptimize <;> rfl

end Lines

end Brainfuck.Usage
