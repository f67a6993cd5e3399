import Brainfuck.Path

/-!
# A tree of files

Files and directories are kept by location, the list of names that leads to them
from the root.  A path text is followed segment by segment, starting at the root
when it begins with a slash and at the working directory otherwise; every place it
leads through has to be a directory.  Names and path texts have a greatest length.
-/

namespace Brainfuck

/-- Why a file cannot be read, written or started. -/
inductive FileError where
  | notFound
  | isDirectory
  | notDirectory
  | nameTooLong
  | notUtf8
  | zeroInPath
  /-- Any other error of the system, by its number. -/
  | system (number : Nat) (text : String)
  deriving DecidableEq, Repr

/-- What is said of the error. -/
def FileError.message : FileError → String
  | .notFound => "No such file or directory (os error 2)"
  | .isDirectory => "Is a directory (os error 21)"
  | .notDirectory => "Not a directory (os error 20)"
  | .nameTooLong => "File name too long (os error 36)"
  | .notUtf8 => "stream did not contain valid UTF-8"
  | .zeroInPath => "file name contained an unexpected NUL byte"
  | .system number text => text ++ " (os error " ++ number.repr ++ ")"

/-- The names that lead to a place from the root. -/
abbrev Location := List String

/-- What stands at a place. -/
inductive Entry where
  | file (content : List UInt8)
  | directory
  deriving DecidableEq, Repr

/-- A tree of files: the places below the root at which something stands. -/
structure Files where
  entries : List (Location × Entry) := []
  deriving DecidableEq, Repr

namespace Files

/-- What stands at a place.  The root is a directory. -/
def entry? (fs : Files) (l : Location) : Option Entry :=
  if l = [] then some .directory else fs.entries.lookup l

/-- The tree with an entry at a place, in the stead of what stood there. -/
def put (fs : Files) (l : Location) (e : Entry) : Files :=
  ⟨fs.entries.filter (fun p => p.1 != l) ++ [(l, e)]⟩

/-- The tree without a place and all that is below it. -/
def remove (fs : Files) (l : Location) : Files :=
  ⟨fs.entries.filter fun p => !l.isPrefixOf p.1⟩

/-- The number of bytes a name can have. -/
def nameLimit : Nat := 255

/-- The number of bytes a path text can have. -/
def pathLimit : Nat := 4095

/-- The place a segment leads to from `here`. -/
def stepInto (fs : Files) (here : Location) (segment : String) : Except FileError Location :=
  match fs.entry? here with
  | none => .error .notFound
  | some (.file _) => .error .notDirectory
  | some .directory =>
      if segment = "" ∨ segment = "." then .ok here
      else if segment = ".." then .ok here.dropLast
      else if nameLimit < segment.utf8ByteSize then .error .nameTooLong
      else .ok (here ++ [segment])

/-- The place a list of segments leads to from `here`.  Nothing need stand there. -/
def walk (fs : Files) (here : Location) : List String → Except FileError Location
  | [] => .ok here
  | segment :: rest => do
      let next ← fs.stepInto here segment
      fs.walk next rest

/-- The segments of a path text. -/
def segments (path : String) : List String :=
  (Path.segments path.toList).map String.ofList

/-- The directory a path text starts at. -/
def origin (cwd : Location) (path : String) : Location :=
  if path.toList.head? = some '/' then [] else cwd

/-- Refuses the path texts that cannot be followed from any directory. -/
def checkPath (path : String) : Except FileError Unit :=
  if path.toList.contains (Char.ofNat 0) then .error .zeroInPath
  else if path = "" then .error .notFound
  else if pathLimit < path.utf8ByteSize then .error .nameTooLong
  else .ok ()

/-- The place a path leads to.  Nothing need stand there. -/
def follow (fs : Files) (cwd : Location) (path : String) : Except FileError Location := do
  checkPath path
  fs.walk (origin cwd path) (segments path)

/-- The content of the file at a path. -/
def read (fs : Files) (cwd : Location) (path : String) : Except FileError (List UInt8) := do
  let place ← fs.follow cwd path
  match fs.entry? place with
  | some (.file content) => return content
  | some .directory => .error .isDirectory
  | none => .error .notFound

/-- The place at which a file is written for a path.  A path that ends in a slash
is one of a directory, whatever its last name; what the name is in has to be a
directory all the same. -/
def target (fs : Files) (cwd : Location) (path : String) : Except FileError Location := do
  checkPath path
  let parts := segments path
  let named := (parts.reverse.dropWhile (· = "")).reverse
  let parent ← fs.walk (origin cwd path) (named.dropLast ++ ["."])
  if named.length < parts.length then .error .isDirectory
  else
    let place ← fs.walk parent named.getLast?.toList
    if fs.entry? place = some .directory then .error .isDirectory
    else return place

/-- The tree with a file of the given content at a path. -/
def write (fs : Files) (cwd : Location) (path : String) (content : List UInt8) :
    Except FileError Files := do
  let place ← fs.target cwd path
  return fs.put place (.file content)

end Files

end Brainfuck
