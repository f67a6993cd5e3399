import Brainfuck.Text.Characters

/-!
# Patterns for values

A directive may compare the value of a field with a number or with a pattern.  Only
the form of a pattern matters here: `isPattern` says which texts are patterns.

A pattern is built from characters, escapes and bracketed classes, which can be
repeated, grouped and joined by `|`.  Classes that are defined by properties of
characters, word boundaries and matching without regard to case are not available.
-/

namespace Brainfuck.Log.Pattern

/-! ## Escapes -/

/-- What one element of a pattern stands for. -/
inductive Element where
  | char (code : Nat)
  | anchor
  deriving DecidableEq, Repr

/-- The value of a hexadecimal digit. -/
def hexDigit? (c : Char) : Option Nat :=
  if c.isDigit then some (c.toNat - '0'.toNat)
  else if 'a' ≤ c && c ≤ 'f' then some (c.toNat - 'a'.toNat + 10)
  else if 'A' ≤ c && c ≤ 'F' then some (c.toNat - 'A'.toNat + 10)
  else none

/-- The character whose code point has `count` hexadecimal digits at the front of a
text, and the rest. -/
def hexEscape? (count : Nat) (text : List Char) : Option (Element × List Char) := do
  let digits ← (text.take count).mapM hexDigit?
  guard (digits.length = count)
  let code := digits.foldl (fun n d => 16 * n + d) 0
  guard code.isValidChar
  return (.char code, text.drop count)

/-- The element behind a backslash, and the rest. -/
def escape? : List Char → Option (Element × List Char)
  | [] => none
  | c :: rest =>
      match c with
      | 'x' => hexEscape? 2 rest
      | 'u' => hexEscape? 4 rest
      | 'U' => hexEscape? 8 rest
      | 'a' => some (.char 7, rest)
      | 't' => some (.char 9, rest)
      | 'n' => some (.char 10, rest)
      | 'v' => some (.char 11, rest)
      | 'f' => some (.char 12, rest)
      | 'r' => some (.char 13, rest)
      | 'A' | 'z' => some (.anchor, rest)
      | '<' | '>' => none
      | _ => if c.toNat < 128 && !c.isAlphanum then some (.char c.toNat, rest) else none

/-! ## Classes -/

/-- The names that can stand between `[:` and `:]`. -/
def classNames : List String :=
  ["alnum", "alpha", "ascii", "blank", "cntrl", "digit", "graph", "lower", "print", "punct",
   "space", "upper", "word", "xdigit"]

/-- Passes over a named class; the text begins behind its opening bracket. -/
def namedClass? : List Char → Option (List Char)
  | ':' :: text =>
      let text := if text.head? = some '^' then text.drop 1 else text
      match text.span (· ≠ ':') with
      | (name, ':' :: ']' :: rest) =>
          if classNames.contains (String.ofList name) then some rest else none
      | _ => none
  | _ => none

/-- Passes over what has a meaning of its own at the beginning of a class: a sign of
negation, minus signs, and a closing bracket as the first character. -/
def classStart (text : List Char) : List Char :=
  let text := if text.head? = some '^' then text.drop 1 else text
  match text with
  | ']' :: rest => rest
  | _ => text.dropWhile (· = '-')

/-- An element of a class, and the rest. -/
def classElement? : List Char → Option (Element × List Char)
  | [] => none
  | '\\' :: rest => escape? rest
  | c :: rest => some (.char c.toNat, rest)

/-- Passes over an element of a class or a range of them.  Only characters can be
in a class, and a range cannot run backwards. -/
def classRange? (text : List Char) : Option (List Char) := do
  let (first, rest) ← classElement? text
  let .char low := first | none
  match rest with
  | '-' :: more =>
      if more.head? = some ']' || more.head? = some '-' then return rest
      else
        let (last, rest) ← classElement? more
        let .char high := last | none
        guard (low ≤ high)
        return rest
  | _ => return rest

/-- Passes over the rest of a class that is inside `depth` others.  Every step takes
at least one character, so the length of the text is enough fuel. -/
def classEnd? : Nat → Nat → List Char → Option (List Char)
  | 0, _, _ => none
  | fuel + 1, depth, text =>
      match text with
      | [] => none
      | ']' :: rest =>
          match depth with
          | 0 => some rest
          | outer + 1 => classEnd? fuel outer rest
      | '[' :: rest =>
          match namedClass? rest with
          | some rest => classEnd? fuel depth rest
          | none => classEnd? fuel (depth + 1) (classStart rest)
      | '&' :: '&' :: rest | '-' :: '-' :: rest | '~' :: '~' :: rest => classEnd? fuel depth rest
      | _ => (classRange? text).bind (classEnd? fuel depth)

/-! ## Groups -/

/-- What opens with a bracket. -/
inductive Opening where
  /-- A group, and its name if it has one. -/
  | group (name : Option (List Char))
  /-- A change of flags for the rest of the group. -/
  | flags
  deriving DecidableEq, Repr

/-- Can a group have this name? -/
def isGroupName : List Char → Bool
  | [] => false
  | c :: cs =>
      (c = '_' || (Text.alphanumeric.contains c && !c.isDigit)) &&
        cs.all fun d => "_.[]".toList.contains d || Text.alphanumeric.contains d

/-- Passes over flags, with those `seen` before.  They end with a colon, which opens
a group, or with a closing bracket. -/
def flags? (seen : List Char) : List Char → Option (Opening × List Char)
  | [] => none
  | c :: rest =>
      if c = ':' || c = ')' then
        if seen.head? = some '-' then none
        else if c = ':' then some (.group none, rest)
        else if seen = [] then none
        else some (.flags, rest)
      else if "msUuRx-".toList.contains c || (c = 'i' && seen.contains '-') then
        if seen.contains c then none else flags? (c :: seen) rest
      else none

/-- Reads what stands behind an opening bracket. -/
def opening? : List Char → Option (Opening × List Char)
  | '?' :: 'P' :: '<' :: rest | '?' :: '<' :: rest =>
      match rest.span (· ≠ '>') with
      | (name, _ :: rest) => if isGroupName name then some (.group (some name), rest) else none
      | _ => none
  | '?' :: rest => flags? [] rest
  | rest => some (.group none, rest)

/-! ## Patterns -/

/-- Is the rest of a text the rest of a pattern?  It is inside `depth` groups,
`operand` says if there is something to be repeated, and `names` are the names of
the groups so far.  Every step takes at least one character, so the length of the
text is enough fuel. -/
def isRest : Nat → Nat → Bool → List (List Char) → List Char → Bool
  | 0, depth, _, _, text => depth = 0 && text = []
  | fuel + 1, depth, operand, names, text =>
      match text with
      | [] => depth = 0
      | '(' :: rest =>
          match opening? rest with
          | none => false
          | some (.flags, rest) => isRest fuel depth false names rest
          | some (.group none, rest) => isRest fuel (depth + 1) false names rest
          | some (.group (some name), rest) =>
              !names.contains name && isRest fuel (depth + 1) false (name :: names) rest
      | ')' :: rest => depth ≠ 0 && isRest fuel (depth - 1) true names rest
      | '|' :: rest => isRest fuel depth false names rest
      | '[' :: rest =>
          match classEnd? (rest.length + 1) 0 (classStart rest) with
          | some rest => isRest fuel depth true names rest
          | none => false
      | '\\' :: rest =>
          match escape? rest with
          | some (_, rest) => isRest fuel depth true names rest
          | none => false
      | '\x7b' :: _ => false
      | c :: rest =>
          if c = '*' || c = '+' || c = '?' then
            let rest := if rest.head? = some '?' then rest.drop 1 else rest
            operand && isRest fuel depth true names rest
          else isRest fuel depth true names rest

/-- Is a text without closing braces a pattern? -/
def isPattern (text : List Char) : Bool := isRest (text.length + 1) 0 false [] text

/-! ## Numbers -/

/-- Is a text a row of digits, with a sign in front or without? -/
def isExponent (text : List Char) : Bool :=
  let digits := match text with
    | '+' :: rest | '-' :: rest => rest
    | _ => text
  digits ≠ [] && digits.all Char.isDigit

/-- Is a text a number: a decimal fraction with an exponent or without, or one of the
words for infinity and for what is no number? -/
def isNumber (text : List Char) : Bool :=
  let text := match text with
    | '+' :: rest | '-' :: rest => rest
    | _ => text
  let (whole, rest) := text.span Char.isDigit
  let (part, rest) := match rest with
    | '.' :: more => more.span Char.isDigit
    | _ => ([], rest)
  let isWord := ["inf", "infinity", "nan"].contains (String.ofList text).toLower
  let isFraction := (whole ≠ [] || part ≠ []) &&
    match rest with
    | [] => true
    | c :: more => (c = 'e' || c = 'E') && isExponent more
  isWord || isFraction

/-- Can a text stand for the value of a field? -/
def isValue (text : List Char) : Bool := isNumber text || isPattern text

end Brainfuck.Log.Pattern
