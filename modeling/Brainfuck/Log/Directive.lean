import Brainfuck.Log.Basic
import Brainfuck.Log.Pattern
import Brainfuck.Text.Bytes

/-!
# Log directives

A directive sets the least level of the events that are written.  Its full form is
`target[span{field=value}]=level`: it bears on the events whose target starts with
a text, that have a field, or that happen inside a span, a period with a name and
values of its own.  A directive without a level admits all levels, and a word
alone is a level if it can be read as one.

`directive?` reads a directive.  Its signs are looked for behind the blanks at the
front, but the texts between them are counted off from the very first character.
-/

namespace Brainfuck.Log

/-- Which events from its target a directive bears on. -/
inductive Scope where
  | all
  /-- The events with a field of this name. -/
  | field (name : String)
  /-- The events inside a span.  The program has no spans. -/
  | span
  deriving DecidableEq, Repr

/-- Events in its scope from targets that start with `target` are written up to the
level of the given rank; rank 0 writes none. -/
structure Directive where
  target : List Char
  scope : Scope
  rank : Nat
  deriving DecidableEq, Repr

namespace Directive

/-- A directive for all events. -/
def forAll (level : Level) : Directive := ⟨[], .all, level.rank⟩

/-- Does a directive bear on an event? -/
def bearsOn (d : Directive) (e : Event) : Bool :=
  d.target.isPrefixOf e.target.toList &&
    match d.scope with
    | .all => true
    | .field name => e.fieldNames.contains name
    | .span => false

/-- Does the scope `t` go before `s`?  A field goes before all events, and of two
fields the one with the greater name. -/
def narrows (s t : Scope) : Bool :=
  match s, t with
  | .all, _ => true
  | .field m, .field n => m ≤ n
  | _, _ => false

/-- Does `d` go before `b` when both bear on an event?  A longer target goes first,
then a narrower scope; of equal directives the one given later, here `d`. -/
def overrides (d b : Directive) : Bool :=
  b.target.length < d.target.length ||
    (b.target.length = d.target.length && narrows b.scope d.scope)

end Directive

/-! ## Reading -/

/-- The number in decimal digits, with a plus sign in front or without. -/
def numeral? (word : List Char) : Option Nat :=
  let digits := if word.head? = some '+' then word.drop 1 else word
  if digits ≠ [] && digits.all Char.isDigit then
    some (digits.foldl (fun n c => 10 * n + (c.toNat - '0'.toNat)) 0)
  else none

/-- The rank a word stands for: the rank itself, or the name of a level in any
case. -/
def rankOf? (word : List Char) : Option Nat :=
  match numeral? word with
  | some n => if n ≤ Level.trace.rank then some n else none
  | none =>
      match (String.ofList word).toLower with
      | "off" => some 0
      | "error" => some Level.error.rank
      | "warn" => some Level.warn.rank
      | "info" => some Level.info.rank
      | "debug" => some Level.debug.rank
      | "trace" => some Level.trace.rank
      | _ => none

/-- Can a directive without brackets in front start with this character? -/
def startsDirective (c : Char) : Bool :=
  Text.alphanumeric.contains c || c = '-' || c = ':' || c = '_'

/-- The scope given by the text between braces: a field, or a field with a value,
which only spans are compared with. -/
def fieldScope? (text : List Char) : Option Scope :=
  match text.span (· ≠ '=') with
  | ([], []) => none
  | (name, []) => some (.field (String.ofList name))
  | (_, _ :: value) => if Pattern.isValue (value.takeWhile (· ≠ '=')) then some .span else none

/-- The rank given by the part of `whole` from byte `start` on. -/
def rankFrom? (whole : List Char) (start : Nat) : Option Nat := do
  let word ← Text.fromByte? start whole
  if word = [] then return Level.trace.rank else rankOf? word

/-- The rank given behind the brackets, by what is left of the signs at byte `start`. -/
def rankBehind? (whole : List Char) (start : Nat) : List Char → Option Nat
  | [] => some Level.trace.rank
  | '=' :: _ => rankFrom? whole (start + 1)
  | _ => none

/-- The scope and the rank given by brackets that have been opened, with `signs` left
at byte `start`.  Brackets around a name, even an empty one, stand for a span. -/
def brackets? (whole : List Char) (start : Nat) (signs : List Char) : Option (Scope × Nat) := do
  let (before, rest) := signs.span fun c => c ≠ ']' && c ≠ '\x7b'
  let stop := start + Text.byteLength before
  let name ← Text.betweenBytes? start stop whole
  match rest with
  | ']' :: more => return (.span, ← rankBehind? whole (stop + 1) more)
  | _ :: more =>
      let (inner, rest) := more.span (· ≠ '\x7d')
      let close := stop + 1 + Text.byteLength inner
      let scope ← fieldScope? (← Text.betweenBytes? (stop + 1) close whole)
      match rest with
      | _ :: ']' :: more =>
          return (if name = [] then scope else .span, ← rankBehind? whole (close + 2) more)
      | _ => none
  | [] => none

/-- Reads a directive. -/
def directive? (whole : List Char) : Option Directive := do
  let signs := Text.trim whole
  let (before, rest) := signs.span fun c => c ≠ '=' && c ≠ '['
  let stop := Text.byteLength before
  guard (before.head?.all startsDirective)
  match rest with
  | [] =>
      guard (before ≠ [])
      match rankOf? whole with
      | some rank => return ⟨[], .all, rank⟩
      | none => return ⟨whole, .all, Level.trace.rank⟩
  | c :: more =>
      let target ← Text.betweenBytes? 0 stop whole
      if c = '[' then
        let (scope, rank) ← brackets? whole (stop + 1) more
        return ⟨target, scope, rank⟩
      else
        guard (before ≠ [])
        return ⟨target, .all, ← rankFrom? whole (stop + 1)⟩

end Brainfuck.Log
