import Brainfuck.Log.Directive

/-!
# Log filters

Which events are written is decided by a list of directives: of those that bear on
an event the most specific one decides.  An event on which none bears is not
written.
-/

namespace Brainfuck.Log

/-- The directives in force. -/
abbrev Filter := List Directive

namespace Filter

/-- The directive that decides on an event. -/
def decisive? (filter : Filter) (e : Event) : Option Directive :=
  (filter.filter (·.bearsOn e)).foldl
    (fun best d =>
      match best with
      | some b => if d.overrides b then some d else best
      | none => some d) none

/-- Is an event written? -/
def admits (filter : Filter) (e : Event) : Bool :=
  match filter.decisive? e with
  | some d => e.level.rank ≤ d.rank
  | none => false

end Filter

/-- A text cut at its commas, empty parts left out. -/
def commaParts (text : List Char) : List (List Char) :=
  let (last, parts) := text.foldr
    (fun c (part, parts) => if c = ',' then ([], part :: parts) else (c :: part, parts)) ([], [])
  (last :: parts).filter (· ≠ [])

/-- Reads a list of directives; `none` when one of them has no meaning.  Without
any directive only errors are written. -/
def filter? (spec : String) : Option Filter :=
  match (commaParts spec.toList).mapM directive? with
  | some [] => some [.forAll .error]
  | result => result

/-- The directives for a number of requests for more output. -/
def filterOfVerbosity : Nat → Filter
  | 0 => [.forAll .warn]
  | 1 => [.forAll .info]
  | _ => [.forAll .debug]

/-- The directives in force: those of `spec` when there is one with a meaning, else
those for the verbosity. -/
def chosenFilter (spec : Option String) (verbosity : Nat) : Filter :=
  (spec.bind filter?).getD (filterOfVerbosity verbosity)

end Brainfuck.Log
