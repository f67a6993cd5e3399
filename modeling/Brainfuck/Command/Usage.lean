import Brainfuck.Command.Basic

/-!
# Reading a command line

Arguments are taken from left to right.  In front of the command name stand only
the options of the whole program; behind it stand the options and positional
arguments of the command, in any order.

The value of an option or a positional argument is pending until the next option,
positional argument or the end shows that it is complete, and is checked only
then.  An argument that cannot be placed at all is reported at once, whatever is
pending.
-/

namespace Brainfuck.Usage

/-- Why a command line is not a command. -/
inductive UsageError where
  /-- Help was asked for. -/
  | help
  /-- The version was asked for. -/
  | version
  /-- There are no arguments at all. -/
  | nothingGiven
  /-- There are options but no command. -/
  | missingCommand
  /-- There is no command of this name. -/
  | unknownCommand
  /-- An option that does not exist, or one positional argument too many. -/
  | unknownArgument
  /-- An option without its value, or an empty path. -/
  | invalidValue
  /-- A number that cannot be read. -/
  | invalidNumber
  /-- A positional argument is missing. -/
  | missingArgument
  /-- An option is given twice, or two arguments exclude each other. -/
  | conflict
  /-- A value for an option that takes none. -/
  | unneededValue
  deriving DecidableEq, Repr

/-- The exit status for the error. -/
def UsageError.exitCode : UsageError → Nat
  | .help | .version => 0
  | _ => 2

/-- The name and version of the program. -/
def versionText : String := "bfgo 0.1.0\n"

/-! ## What a command takes -/

/-- What kind of value an argument has. -/
inductive ValueKind where
  | path
  | number
  deriving DecidableEq, Repr

/-- The value of an argument. -/
inductive Value where
  | flag
  | path (text : String)
  | number (n : Nat)
  deriving DecidableEq, Repr

/-- An option; one without a kind of value is a flag. -/
structure OptionSpec where
  name : String
  kind? : Option ValueKind := none
  deriving DecidableEq, Repr

/-- The options and positional arguments of a command.  Positional arguments are
paths. -/
structure Grammar where
  options : List OptionSpec
  positionals : List String
  deriving DecidableEq, Repr

/-- The options of the commands that compile. -/
def compileOptions : List OptionSpec :=
  [⟨"no-optimize", none⟩, ⟨"tape-size", some .number⟩]

/-- The commands and what they take. -/
def grammars : List (String × Grammar) :=
  [("export", ⟨compileOptions, ["source", "output"]⟩),
   ("build", ⟨⟨"compress", none⟩ :: compileOptions, ["source", "output"]⟩),
   ("run", ⟨compileOptions, ["source"]⟩),
   ("emit", ⟨compileOptions, ["source"]⟩),
   ("interpret",
    ⟨[⟨"ir", some .path⟩, ⟨"max-steps", some .number⟩] ++ compileOptions, ["source"]⟩),
   ("ops",
    ⟨[⟨"raw", none⟩, ⟨"no-color", none⟩, ⟨"pretty", none⟩, ⟨"stats", none⟩,
      ⟨"emit", some .path⟩] ++ compileOptions, ["source"]⟩)]

/-- Is this the name of a command, or of the request for help? -/
def isCommandName (word : String) : Bool :=
  word = "help" || (grammars.lookup word).isSome

/-! ## Values -/

/-- The first number that needs more than 64 bits. -/
def numberBound : Nat := 18446744073709551616

/-- A number of at most 64 bits: an optional plus sign, then digits only. -/
def number? (text : String) : Option Nat :=
  let digits := match text.toList with
    | '+' :: rest => rest
    | cs => cs
  if digits.isEmpty || !digits.all Char.isDigit then none
  else
    let n := digits.foldl (fun n c => 10 * n + (c.toNat - '0'.toNat)) 0
    if n < numberBound then some n else none

/-- Checks the value of an argument. -/
def readValue (kind : ValueKind) (text : String) : Except UsageError Value :=
  match kind with
  | .path => if text = "" then .error .invalidValue else .ok (.path text)
  | .number =>
      match number? text with
      | some n => .ok (.number n)
      | none => .error .invalidNumber

/-! ## Taking the arguments of a command -/

/-- An argument that is not yet known to be complete. -/
structure Pending where
  name : String
  kind : ValueKind
  text? : Option String
  deriving DecidableEq, Repr

/-- What has been taken so far. -/
structure Taken where
  /-- How often more log output was asked for. -/
  verbosity : Nat := 0
  /-- The arguments that are complete, by name. -/
  values : List (String × Value) := []
  pending? : Option Pending := none
  /-- The positional arguments still to come. -/
  positionals : List String
  /-- Are all further arguments positional? -/
  positionalOnly : Bool := false
  deriving DecidableEq, Repr

namespace Taken

/-- The value of an argument. -/
def value? (t : Taken) (name : String) : Option Value := t.values.lookup name

/-- Was this flag given? -/
def flag (t : Taken) (name : String) : Bool := (t.value? name).isSome

/-- The path given for an argument. -/
def path? (t : Taken) (name : String) : Option String :=
  match t.value? name with
  | some (.path text) => some text
  | _ => none

/-- The number given for an argument. -/
def number? (t : Taken) (name : String) : Option Nat :=
  match t.value? name with
  | some (.number n) => some n
  | _ => none

/-- Adds an argument, which may not have been given before. -/
def add (t : Taken) (name : String) (value : Except UsageError Value) :
    Except UsageError Taken := do
  if (t.value? name).isSome then .error .conflict
  else return { t with values := t.values ++ [(name, ← value)] }

/-- Checks and adds the pending argument. -/
def settle (t : Taken) : Except UsageError Taken :=
  match t.pending? with
  | none => .ok t
  | some ⟨_, _, none⟩ => .error .invalidValue
  | some ⟨name, kind, some text⟩ => { t with pending? := none }.add name (readValue kind text)

/-- Takes a positional argument. -/
def takePositional (t : Taken) (text : String) : Except UsageError Taken :=
  match t.positionals with
  | [] => .error .unknownArgument
  | name :: rest => do
      let t ← t.settle
      return { t with positionals := rest, pending? := some ⟨name, .path, some text⟩ }

/-- Takes an option by its name.  `value?` is the text behind an equals sign. -/
def takeOption (t : Taken) (g : Grammar) (name : String) (value? : Option String) :
    Except UsageError Taken :=
  if name = "verbose" then
    if value?.isSome then .error .unneededValue
    else do
      let t ← t.settle
      return { t with verbosity := t.verbosity + 1 }
  else if name = "help" then
    if value?.isSome then .error .unneededValue
    else do
      let _ ← t.settle
      .error .help
  else
    match g.options.find? (·.name = name) with
    | none => .error .unknownArgument
    | some ⟨_, none⟩ =>
        if value?.isSome then .error .unneededValue
        else do
          let t ← t.settle
          t.add name (.ok .flag)
    | some ⟨_, some kind⟩ => do
        let t ← t.settle
        match value? with
        | some text => t.add name (readValue kind text)
        | none => return { t with pending? := some ⟨name, kind, none⟩ }

/-- Takes the letters of a group of short options. -/
def takeLetters (t : Taken) : List Char → Except UsageError Taken
  | [] => .ok t
  | 'v' :: rest => do
      let t ← t.settle
      takeLetters { t with verbosity := t.verbosity + 1 } rest
  | 'h' :: _ => do
      let _ ← t.settle
      .error .help
  | _ => .error .unknownArgument

/-- Takes one argument. -/
def take (t : Taken) (g : Grammar) (arg : String) : Except UsageError Taken :=
  if t.positionalOnly then t.takePositional arg
  else
    match arg.toList with
    | ['-', '-'] => .ok { t with positionalOnly := true }
    | '-' :: '-' :: rest =>
        match rest.span (· ≠ '=') with
        | (name, []) => t.takeOption g (String.ofList name) none
        | (name, _ :: value) => t.takeOption g (String.ofList name) (some (String.ofList value))
    | '-' :: c :: rest => t.takeLetters (c :: rest)
    | _ =>
        match t.pending? with
        | some ⟨name, kind, none⟩ => .ok { t with pending? := some ⟨name, kind, some arg⟩ }
        | _ => t.takePositional arg

/-- Takes the arguments of a command up to the end. -/
def takeAll (g : Grammar) : Taken → List String → Except UsageError Taken
  | t, [] => t.settle
  | t, arg :: rest => do
      let t ← t.take g arg
      takeAll g t rest

/-- A positional argument that has to be there. -/
def required (t : Taken) (name : String) : Except UsageError String :=
  match t.path? name with
  | some text => .ok text
  | none => .error .missingArgument

/-- How to compile. -/
def compileOptions (t : Taken) : Compile.Options where
  shorten := !t.flag "no-optimize"
  go := { tapeSize := (t.number? "tape-size").getD defaultTapeSize }

/-- The program to interpret: a source text or a saved program, but not both. -/
def programFile (t : Taken) : Except UsageError ProgramFile :=
  match t.path? "ir", t.path? "source" with
  | some _, some _ => .error .conflict
  | some saved, none => .ok (.saved saved)
  | none, some source => .ok (.source source)
  | none, none => .error .missingArgument

/-- The command of the given name with the arguments taken. -/
def command (t : Taken) (name : String) : Except UsageError Command :=
  match name with
  | "export" => return .exportGo (← t.required "source") (← t.required "output") t.compileOptions
  | "build" =>
      return .build (← t.required "source") (← t.required "output") (t.flag "compress")
        t.compileOptions
  | "run" => return .run (← t.required "source") t.compileOptions
  | "emit" => return .emit (← t.required "source") t.compileOptions
  | "interpret" => return .interpret (← t.programFile) (t.number? "max-steps") t.compileOptions
  | "ops" =>
      return .list (← t.required "source")
        { raw := t.flag "raw", noColor := t.flag "no-color", pretty := t.flag "pretty",
          stats := t.flag "stats", saveTo := t.path? "emit" }
        t.compileOptions
  | _ => .error .unknownCommand

end Taken

/-! ## Taking a whole command line -/

/-- The answer to a request for help on the given command names. -/
def helpOn : List String → UsageError
  | [] => .help
  | [name] => if isCommandName name then .help else .unknownCommand
  | _ => .unknownCommand

/-- Takes a group of short options in front of the command; the answer is how often
more log output is asked for. -/
def topLetters : List Char → Except UsageError Nat
  | [] => .ok 0
  | 'v' :: rest => return (← topLetters rest) + 1
  | 'h' :: _ => .error .help
  | 'V' :: _ => .error .version
  | _ => .error .unknownArgument

/-- Takes an option in front of the command. -/
def topOption (name : List Char) (hasValue : Bool) : Except UsageError Nat :=
  match String.ofList name with
  | "verbose" => if hasValue then .error .unneededValue else .ok 1
  | "help" => .error (if hasValue then .unneededValue else .help)
  | "version" => .error (if hasValue then .unneededValue else .version)
  | _ => .error .unknownArgument

/-- Takes a command and its arguments.  A verbosity given behind the command name is
the one that counts. -/
def parseCommand (verbosity : Nat) (name : String) (args : List String) :
    Except UsageError Invocation :=
  if name = "help" then .error (helpOn args)
  else
    match grammars.lookup name with
    | none => .error .unknownCommand
    | some g => do
        let t ← Taken.takeAll g { positionals := g.positionals } args
        let command ← t.command name
        return ⟨if t.verbosity = 0 then verbosity else t.verbosity, command⟩

/-- Takes the arguments in front of the command and then the command. -/
def parseFrom (verbosity : Nat) : List String → Except UsageError Invocation
  | [] => .error (if verbosity = 0 then .nothingGiven else .missingCommand)
  | arg :: rest =>
      if isCommandName arg then parseCommand verbosity arg rest
      else
        match arg.toList with
        | ['-', '-'] =>
            -- no positional argument can follow in front of a command
            match rest with
            | [] => .error (if verbosity = 0 then .nothingGiven else .missingCommand)
            | word :: _ => .error (if isCommandName word then .unknownArgument else .unknownCommand)
        | '-' :: '-' :: long => do
            let (name, value) := long.span (· ≠ '=')
            let more ← topOption name (!value.isEmpty)
            parseFrom (verbosity + more) rest
        | '-' :: c :: letters => do
            let more ← topLetters (c :: letters)
            parseFrom (verbosity + more) rest
        | _ => .error .unknownCommand

/-- Understands a command line. -/
def parse (args : List String) : Except UsageError Invocation := parseFrom 0 args

end Brainfuck.Usage
