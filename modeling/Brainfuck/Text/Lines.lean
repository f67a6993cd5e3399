/-!
# Lines

A text is cut into lines at its line feeds.  A carriage return in front of a line
feed, or at the end, belongs to the end of the line.
-/

namespace Brainfuck.Text

/-- The pieces between the line feeds of a text, empty ones included. -/
def lineFeedPieces : List Char → List (List Char)
  | [] => [[]]
  | c :: cs =>
      if c = '\n' then [] :: lineFeedPieces cs
      else
        match lineFeedPieces cs with
        | [] => [[c]]
        | piece :: rest => (c :: piece) :: rest

/-- A line without the carriage return at its end. -/
def dropReturn (line : List Char) : List Char :=
  if line.getLast? = some '\r' then line.dropLast else line

/-- The lines of a text that is followed by a line feed. -/
def lines (text : String) : List String :=
  (lineFeedPieces text.toList).map fun piece => String.ofList (dropReturn piece)

end Brainfuck.Text
