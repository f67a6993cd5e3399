import Brainfuck.Proofs.Go.Reader

/-!
# The tokens of a line of Go

A line is cut into words, numbers and symbols; blanks only keep words apart, so that the
indentation of a line does not matter.

* `Go.Token`, `Go.tokens` — the tokens, and those of a line.
* `Go.tokens_dropWhile` — a line has the tokens of what stands behind its indentation.
* `Go.tokens_numbered` — a number on a line is one token.
* `Go.tokenLines`, `Go.tokenLines_of_write` — the tokens of lines, and of a text that is written.
-/

namespace Brainfuck.Go

/-- A token of Go. -/
inductive Token where
  /-- A name or a keyword. -/
  | word (w : List Char)
  /-- A number. -/
  | number (n : Nat)
  /-- Any other character. -/
  | symbol (c : Char)
  deriving DecidableEq, Repr

variable {c : Char} {line before behind : List Char}

/-! ## Cutting a line into tokens -/

/-- Is this a character of a word or a number? -/
def isWordChar (c : Char) : Bool := c.isAlphanum || c == '_'

/-- The token of characters that stand together, if there are any. -/
def wordToken (word : List Char) : List Token :=
  if word = [] then []
  else if word.all Char.isDigit then [.number (Nat.ofDigitChars 10 word 0)]
  else [.word word]

@[simp] theorem wordToken_nil : wordToken [] = [] := rfl

/-- The tokens of a line in front of which the characters `word` have been read. -/
def tokensFrom (word : List Char) : List Char → List Token
  | [] => wordToken word
  | c :: rest =>
      if isWordChar c then tokensFrom (word ++ [c]) rest
      else wordToken word ++
        (if isBlank c then tokensFrom [] rest else .symbol c :: tokensFrom [] rest)

/-- The tokens of a line. -/
def tokens (line : List Char) : List Token := tokensFrom [] line

/-- A character that belongs to no word ends what stands before it. -/
theorem tokensFrom_append (hc : isWordChar c = false) (word before rest : List Char) :
    tokensFrom word (before ++ c :: rest) = tokensFrom word (before ++ [c]) ++ tokens rest := by
  induction before generalizing word with
  | nil =>
      by_cases hblank : isBlank c = true
      · simp [tokensFrom, hc, hblank, tokens]
      · simp [tokensFrom, hc, hblank, tokens]
  | cons d before ih =>
      by_cases hd : isWordChar d = true
      · simp [tokensFrom, hd, ih]
      · by_cases hblank : isBlank d = true
        · simp [tokensFrom, hd, hblank, ih]
        · simp [tokensFrom, hd, hblank, ih]

theorem tokensFrom_word (h : ∀ c ∈ line, isWordChar c = true) (word rest : List Char) :
    tokensFrom word (line ++ rest) = tokensFrom (word ++ line) rest := by
  induction line generalizing word with
  | nil => simp
  | cons d line ih =>
      obtain ⟨hd, hline⟩ := List.forall_mem_cons.1 h
      simp [tokensFrom, hd, ih hline]

theorem not_isWordChar_of_isBlank (h : isBlank c = true) : isWordChar c = false := by
  rcases Bool.or_eq_true_iff.1 h with h | h
  · rw [of_decide_eq_true h]
    rfl
  · rw [of_decide_eq_true h]
    rfl

/-- A line has the tokens of what stands on it behind its indentation. -/
theorem tokens_dropWhile (line : List Char) : tokens (line.dropWhile isBlank) = tokens line := by
  induction line with
  | nil => rfl
  | cons c line ih =>
      by_cases hc : isBlank c = true
      · rw [List.dropWhile_cons_of_pos hc, ih]
        simp [tokens, tokensFrom, hc, not_isWordChar_of_isBlank hc]
      · rw [List.dropWhile_cons_of_neg hc]

theorem isWordChar_of_isDigit (h : c.isDigit = true) : isWordChar c = true := by
  simp [isWordChar, Char.isAlphanum, h]

/-- The digits of a number are one token, if no character of a word follows. -/
theorem tokens_number (hbehind : behind.head?.any isWordChar = false) (n : Nat) :
    tokens (Nat.toDigits 10 n ++ behind) = .number n :: tokens behind := by
  have hdigits : ∀ c ∈ Nat.toDigits 10 n, c.isDigit = true :=
    fun c hc => Nat.isDigit_of_mem_toDigits (by decide) (by decide) hc
  have htoken : wordToken (Nat.toDigits 10 n) = [.number n] := by
    rw [wordToken, if_neg Nat.toDigits_ne_nil, if_pos (List.all_eq_true.2 hdigits),
      Nat.ofDigitChars_ten_toDigits]
  rw [tokens, tokensFrom_word (fun c hc => isWordChar_of_isDigit (hdigits c hc)), List.nil_append]
  cases behind with
  | nil => simp [tokens, tokensFrom, htoken]
  | cons c behind =>
      have hc : isWordChar c = false := hbehind
      simp [tokens, tokensFrom, htoken, hc]

/-- A number on a line is one token, if no character of a word stands next to it. -/
theorem tokens_numbered (hbefore : before.getLast?.map isWordChar = some false)
    (hbehind : behind.head?.any isWordChar = false) (n : Nat) :
    tokens (before ++ Nat.toDigits 10 n ++ behind) =
      tokens before ++ .number n :: tokens behind := by
  obtain ⟨c, hlast, hc⟩ := Option.map_eq_some_iff.1 hbefore
  obtain ⟨front, rfl⟩ := List.getLast?_eq_some_iff.1 hlast
  rw [List.append_assoc, List.append_assoc, List.singleton_append, tokens, tokensFrom_append hc,
    tokens_number hbehind]
  rfl

/-- The tokens of the line that declares the tape. -/
def tapeTokens (cells : Nat) : List Token :=
  tokens "buffer := make([]byte, ".toList ++ [.number cells, .symbol ')']

theorem tokens_tapeLine (cells : Nat) : tokens (tapeLine cells) = tapeTokens cells :=
  tokens_numbered rfl rfl cells

/-- The tokens of the line of a run. -/
def runTokens : RunKind → UInt32 → List Token
  | .right, n => tokens "ptr += ".toList ++ [.number n.toNat]
  | .left, n => tokens "ptr -= ".toList ++ [.number n.toNat]
  | .inc, n => tokens "buffer[ptr] += byte(".toList ++ [.number (n.toNat % 256), .symbol ')']
  | .dec, n => tokens "buffer[ptr] -= byte(".toList ++ [.number (n.toNat % 256), .symbol ')']

/-! ## The tokens of a text -/

/-- The tokens on each of some lines. -/
def tokenLines (ls : List Line) : List (List Token) := ls.map fun l => tokens l.content

@[simp] theorem tokenLines_nil : tokenLines [] = [] := rfl

@[simp] theorem tokenLines_cons (l : Line) (ls : List Line) :
    tokenLines (l :: ls) = tokens l.content :: tokenLines ls := rfl

@[simp] theorem tokenLines_append (ls ms : List Line) :
    tokenLines (ls ++ ms) = tokenLines ls ++ tokenLines ms := List.map_append

theorem tokenLines_run (use : Channels) (level : Nat) (kind : RunKind) (n : UInt32) :
    tokenLines (opLines use level (.run kind n)) = [runTokens kind n] := by
  have hmove (before : List Char) (hbefore : before.getLast?.map isWordChar = some false) :
      tokens (before ++ Nat.toDigits 10 n.toNat) = tokens before ++ [.number n.toNat] := by
    have h := @tokens_numbered before [] hbefore rfl n.toNat
    rwa [List.append_nil] at h
  cases kind with
  | right => exact congrArg ([·]) (hmove "ptr += ".toList rfl)
  | left => exact congrArg ([·]) (hmove "ptr -= ".toList rfl)
  | inc => exact congrArg ([·]) (tokens_numbered rfl rfl _)
  | dec => exact congrArg ([·]) (tokens_numbered rfl rfl _)

/-- The lines of a text that is written, and the empty line behind the last line end, have the
tokens of what stands on them. -/
theorem tokenLines_of_write {settings : Settings} {ops : List Op} {text : String}
    (hwrite : write settings ops = .ok text)
    (hindent : ∀ c ∈ settings.indent.toList, c = '\t' ∨ c = ' ')
    (hpackage : '\n' ∉ settings.packageName.toList) :
    (Text.lineFeedPieces text.toList).map tokens = tokenLines (lines settings ops) ++ [[]] := by
  obtain ⟨-, rfl⟩ := write_eq_ok_iff.1 hwrite
  have hcontents := congrArg (List.map tokens)
    (contents_renderLines (isBlank_of_indent hindent) (clean_lines hpackage ops))
  have hstrip : tokens ∘ (·.dropWhile isBlank) = tokens := funext tokens_dropWhile
  rw [List.map_map, hstrip, List.map_append, List.map_map] at hcontents
  exact hcontents

end Brainfuck.Go
