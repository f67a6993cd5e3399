/-!
# Path texts

A path text is cut into segments at its slashes.  Empty segments and `.` name
nothing; the name of a path is its last segment that names something.  A name has
an extension when it has a dot that is not its first character: the text behind
the last dot.

* `Path.extension?` is the extension of a path, as far as it has a name.
* `Path.goFile` is where the Go text for an output path is written.
* `Path.executable` is where the executable for an output path is built.
-/

namespace Brainfuck.Path

/-! ## Segments -/

/-- The segments between the slashes of a text, empty ones included. -/
def segments : List Char → List (List Char)
  | [] => [[]]
  | c :: cs =>
      if c = '/' then [] :: segments cs
      else
        match segments cs with
        | [] => [[c]]
        | s :: rest => (c :: s) :: rest

/-- The text whose segments are given. -/
def join : List (List Char) → List Char
  | [] => []
  | [s] => s
  | s :: rest => s ++ '/' :: join rest

/-- The path of a name inside a directory. -/
def inside (dir name : String) : String :=
  if dir.toList.getLast? = some '/' then dir ++ name else dir ++ "/" ++ name

/-- Does a segment name nothing? -/
def isIdle (s : List Char) : Bool := s = [] || s = ['.']

/-- The segments up to the last one that names something, in reverse order. -/
def namedReverse (p : List Char) : List (List Char) :=
  (segments p).reverse.dropWhile isIdle

/-- The name of a path; `none` when no segment names something or the last one
that does is the parent directory. -/
def name? (p : List Char) : Option (List Char) :=
  match namedReverse p with
  | [] => none
  | s :: _ => if s = ['.', '.'] then none else some s

/-! ## Extensions -/

/-- A name cut at its last dot into stem and extension; `none` when it has no dot
or only one in front. -/
def splitName? (name : List Char) : Option (List Char × List Char) :=
  match name.reverse.span (· ≠ '.') with
  | (_, []) => none
  | (_, [_]) => none
  | (ext, _ :: stem) => some (stem.reverse, ext.reverse)

/-- The extension of a path. -/
def extension? (p : List Char) : Option (List Char) := do
  let name ← name? p
  let (_, ext) ← splitName? name
  return ext

/-- The name without its extension. -/
def stem (name : List Char) : List Char :=
  match splitName? name with
  | some (s, _) => s
  | none => name

/-- A path up to the end of the stem of its name; a path without a name stays as
it is. -/
def upToStem (p : List Char) : List Char :=
  match namedReverse p with
  | [] => p
  | s :: parents => if s = ['.', '.'] then p else join ((stem s :: parents).reverse)

/-- A path without its extension `ext`: as many characters as the extension has
are cut off the end, and the rest goes up to the end of its stem. -/
def dropExtension (p ext : List Char) : List Char :=
  upToStem (p.take (p.length - ext.length))

/-! ## Output paths -/

/-- The extension of Go files. -/
def goExtension : List Char := ['g', 'o']

/-- The path of the Go text for an output path: the extension is appended to the
whole text unless the path has it already. -/
def goFile (out : String) : String :=
  if extension? out.toList = some goExtension then out else out ++ ".go"

/-- The path of the executable for an output path: the output path without the
extension of Go files. -/
def executable (out : String) : String :=
  if extension? out.toList = some goExtension then
    String.ofList (dropExtension out.toList goExtension)
  else out

end Brainfuck.Path
