import TwoPass.Storage.System
import TwoPass.Text.Likeness

/-!
# Command-line arguments

Options may stand anywhere among the arguments until two dashes end them.  A long option takes its
value after an equals sign or from the next argument.  Short options can share a dash; one that takes
a value takes the rest of its argument, or the next argument if nothing is left.  Of options that
contradict or repeat each other the last one counts.
-/

namespace TwoPass

namespace Command

inductive Switch where
  | symbols
  | strictFlags
  | lenientFlags
  | warningsAsErrors
  | verbose
  | version
  | help
  deriving DecidableEq, Repr

namespace Switch

def all : List Switch :=
  [.symbols, .strictFlags, .lenientFlags, .warningsAsErrors, .verbose, .version, .help]

def longName : Switch → Text
  | .symbols => "--symbols"
  | .strictFlags => "--strict-flags"
  | .lenientFlags => "--lenient-flags"
  | .warningsAsErrors => "--warnings-as-errors"
  | .verbose => "--verbose"
  | .version => "--version"
  | .help => "--help"

def letter? : Switch → Option CodePoint
  | .symbols => some 's'
  | .warningsAsErrors => some 'W'
  | .verbose => some 'v'
  | _ => none

/-- Only the symbol file is named by an option. -/
def takesValue : Switch → Bool
  | .symbols => true
  | _ => false

def ofLongName? (name : Text) : Option Switch :=
  all.find? (fun switch => switch.longName == name)

def ofLetter? (letter : CodePoint) : Option Switch :=
  all.find? (fun switch => switch.letter? == some letter)

end Switch

/-- The named arguments and the option that names a file. -/
inductive Parameter where
  | input
  | listing
  | load
  | symbols
  deriving DecidableEq, Repr

def Parameter.name : Parameter → Text
  | .input => "'INPUT_FILE'"
  | .listing => "'LISTING_FILE'"
  | .load => "'LOAD_FILE'"
  | .symbols => "'-s' / '--symbols'"

/-- Arguments that the command does not start with. -/
inductive UsageError where
  | noSuchOption (name : Text) (similar : List Text)
  | valueMissing (option : Text)
  | valueUnexpected (option : Text)
  | argumentMissing (parameter : Parameter)
  | fileMissing (parameter : Parameter) (path : Text)
  | fileIsDirectory (parameter : Parameter) (path : Text)
  | fileUnreadable (parameter : Parameter) (path : Text)
  | extraArguments (arguments : List Text)
  deriving DecidableEq, Repr

namespace UsageError

/-- Long options that may have been meant. -/
def alternatives : List Text → Text
  | [] => ""
  | [name] => " Did you mean " ++ name ++ "?"
  | names => " (Possible options: " ++ ", ".text.intercalate (names.mergeSort Text.precedes) ++ ")"

def badPath (parameter : Parameter) (path problem : Text) : Text :=
  "Invalid value for " ++ parameter.name ++ ": File " ++ Text.inQuotes (Path.shown path) ++ " " ++
    problem

def message : UsageError → Text
  | .noSuchOption name similar => "No such option: " ++ name ++ alternatives similar
  | .valueMissing option => "Option " ++ Text.quoted option ++ " requires an argument."
  | .valueUnexpected option => "Option " ++ Text.quoted option ++ " does not take a value."
  | .argumentMissing parameter => "Missing argument " ++ parameter.name ++ "."
  | .fileMissing parameter path => badPath parameter path "does not exist."
  | .fileIsDirectory parameter path => badPath parameter path "is a directory."
  | .fileUnreadable parameter path => badPath parameter path "is not readable."
  | .extraArguments arguments =>
      "Got unexpected extra argument" ++ (if arguments.length = 1 then "" else "s") ++ " (" ++
        " ".text.intercalate arguments ++ ")"

end UsageError

inductive Refusal where
  /-- The arguments do not fit the command. -/
  | usage (fault : UsageError)
  /-- A path among the arguments cannot name a file. -/
  | path (fault : Path.Fault)
  deriving DecidableEq, Repr

def Refusal.exitCode : Refusal → Nat
  | .usage _ => 2
  | .path _ => 1

/-- The arguments taken apart.  `notice` is the first option that asks for information only. -/
structure Arguments where
  strictFlags : Bool
  warningsAsErrors : Bool
  verbose : Bool
  symbols : Option Text
  notice : Option Switch
  positional : List Text
  deriving DecidableEq, Repr

namespace Arguments

def initial : Arguments :=
  ⟨false, false, false, none, none, []⟩

def apply (arguments : Arguments) : Switch → Arguments
  | .symbols => arguments
  | .strictFlags => { arguments with strictFlags := true }
  | .lenientFlags => { arguments with strictFlags := false }
  | .warningsAsErrors => { arguments with warningsAsErrors := true }
  | .verbose => { arguments with verbose := true }
  | .version => { arguments with notice := arguments.notice.or (some .version) }
  | .help => { arguments with notice := arguments.notice.or (some .help) }

/-- What one option argument leads to: it is complete, or the next argument is the value of the option
it names. -/
inductive Reading where
  | complete (arguments : Arguments)
  | awaiting (arguments : Arguments) (option : Text)

def readLetters (arguments : Arguments) : Text → Except UsageError Reading
  | [] => .ok (.complete arguments)
  | letter :: rest =>
      match Switch.ofLetter? letter with
      | none => .error (.noSuchOption ['-', letter] [])
      | some switch =>
          if switch.takesValue then
            if rest.isEmpty then .ok (.awaiting arguments ['-', letter])
            else .ok (.complete { arguments with symbols := some rest })
          else (arguments.apply switch).readLetters rest

/-- The name before the first equals sign, and the value behind it if there is one. -/
def splitValue (argument : Text) : Text × Option Text :=
  match argument.dropWhile (fun c => c != .char '=') with
  | [] => (argument, none)
  | _ :: value => (argument.takeWhile (fun c => c != .char '='), some value)

/-- Reads one argument that starts with a dash: as a long option if it is one, as letters if it has a
single dash. -/
def readOption (arguments : Arguments) (argument : Text) : Except UsageError Reading :=
  let (name, value) := splitValue argument
  match Switch.ofLongName? name, value with
  | some switch, some value =>
      if switch.takesValue then .ok (.complete { arguments with symbols := some value })
      else .error (.valueUnexpected name)
  | some switch, none =>
      if switch.takesValue then .ok (.awaiting arguments name)
      else .ok (.complete (arguments.apply switch))
  | none, _ =>
      match argument with
      | .char '-' :: .char '-' :: _ =>
          .error (.noSuchOption name (Text.closest 3 name (Switch.all.map Switch.longName)))
      | _ => arguments.readLetters (argument.drop 1)

/-- An argument with a dash in front and something behind it is an option. -/
def isOption : Text → Bool
  | .char '-' :: _ :: _ => true
  | _ => false

def addPositional (arguments : Arguments) (more : List Text) : Arguments :=
  { arguments with positional := arguments.positional ++ more }

def read (arguments : Arguments) : List Text → Except UsageError Arguments
  | [] => .ok arguments
  | argument :: rest =>
      if argument = "--".text then .ok (arguments.addPositional rest)
      else if isOption argument then
        match arguments.readOption argument with
        | .error fault => .error fault
        | .ok (.complete arguments) => arguments.read rest
        | .ok (.awaiting arguments option) =>
            match rest with
            | [] => .error (.valueMissing option)
            | value :: rest => { arguments with symbols := some value }.read rest
      else (arguments.addPositional [argument]).read rest

def paths (arguments : Arguments) : List Text :=
  arguments.symbols.toList ++ arguments.positional

end Arguments

/-- The files that an invocation names, checked, and its options. -/
structure Invocation where
  input : Text
  listing : Text
  load : Text
  symbols : Option Text
  strictFlags : Bool
  warningsAsErrors : Bool
  verbose : Bool
  deriving DecidableEq, Repr

namespace Invocation

variable {σ : Type} [FileSystem σ]

/-- A file that is there must be no directory, and it must be readable, even if it is to be written. -/
def checkStatus (parameter : Parameter) (path : Text) (status : Status) : Except Refusal Unit :=
  if status.isDirectory then .error (.usage (.fileIsDirectory parameter path))
  else if !status.readable then .error (.usage (.fileUnreadable parameter path))
  else .ok ()

/-- A file to be read must be there; whether one can be written shows later. -/
def checkPath (system : σ) (parameter : Parameter) (path : Text) : Except Refusal Unit :=
  match Path.bytes path with
  | .error fault => .error (.path fault)
  | .ok bytes =>
      match FileSystem.status system bytes with
      | .ok status => checkStatus parameter path status
      | .error _ =>
          if parameter = .input then .error (.usage (.fileMissing parameter path)) else .ok ()

/-- Checks the symbol file, then the arguments in order, then that none is left over. -/
def ofArguments (system : σ) (arguments : Arguments) : Except Refusal Invocation := do
  match arguments.symbols with
  | some path => checkPath system .symbols path
  | none => pure ()
  match arguments.positional with
  | [] => .error (.usage (.argumentMissing .input))
  | input :: more =>
      checkPath system .input input
      match more with
      | [] => .error (.usage (.argumentMissing .listing))
      | listing :: more =>
          checkPath system .listing listing
          match more with
          | [] => .error (.usage (.argumentMissing .load))
          | load :: more =>
              checkPath system .load load
              if more.isEmpty then
                return ⟨input, listing, load, arguments.symbols, arguments.strictFlags,
                  arguments.warningsAsErrors, arguments.verbose⟩
              else .error (.usage (.extraArguments more))

end Invocation

end Command

end TwoPass
