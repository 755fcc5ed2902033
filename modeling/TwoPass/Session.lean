import TwoPass.Assembly
import TwoPass.Storage.System

/-!
# Sessions

A session assembles again and again and remembers the last run: its program if it succeeded, and in any
case its warnings and the image that it encoded.  Programs are looked at as they were remembered; the
listing and the load file are written from the image.  A source file that cannot be read starts no run.
Without a program there is nothing to look at or to write.

A file is emptied before a text is written to it, so that a text without an encoding leaves it empty.
Standard output holds UTF-8 as well, and a line without an encoding is not printed.
-/

namespace TwoPass

inductive Failure where
  | run (abort : Abort)
  | file (fault : FileFault)
  /-- A source file is no text. -/
  | encoding (fault : Utf8.Fault)
  /-- A text to be written or printed has no encoding. -/
  | unencodable (fault : Utf8.EncodeFault)
  | noProgram
  deriving DecidableEq, Repr

def Failure.message : Failure → Text
  | .run abort => abort.message
  | .file fault => fault.message
  | .encoding fault => fault.message
  | .unencodable fault => fault.message
  | .noProgram => "no successful assembly yet; call an assemble_* method first"

namespace Event

/-- What a verbose session prints about an event. -/
def progress : Event → List Text
  | .counterSet _ _ => []
  | .surveyed lines _ labels =>
      ["Pass 1: " ++ Text.ofNat lines ++ " lines, " ++ Text.ofNat labels ++ " labels"]
  | .encoded words => ["Pass 2: " ++ Text.ofNat words ++ " words"]

/-- What a trace says about an event. -/
def trace : Event → List Text
  | .counterSet line value =>
      ["Line " ++ Text.ofInt line ++ ": location counter set to " ++ Text.ofInt value]
  | .surveyed lines words labels =>
      ["Pass 1: " ++ Text.ofNat lines ++ " lines, " ++ Text.ofNat words ++ " words, " ++
        Text.ofNat labels ++ " labels",
       "Symbol table frozen with " ++ Text.ofNat labels ++ " labels"]
  | .encoded words => ["Pass 2: encoded " ++ Text.ofNat words ++ " words"]

end Event

structure Session where
  options : Options
  program : Option Program
  image : Image
  log : Log
  deriving DecidableEq, Repr

namespace Session

def start (options : Options) : Session :=
  ⟨options, none, .empty, []⟩

inductive Request where
  | assembleText (source file : Text)
  | assembleLines (lines : List Text) (file : Text)
  | assembleFile (path : Text)
  | program
  | records
  | words
  | symbols
  | listing
  | load
  | writeListing (path : Text)
  | writeLoad (path : Text)
  | writeSymbols (path : Text)
  | warnings
  | hasWarnings
  | warningReport
  | isStrict
  deriving DecidableEq, Repr

inductive Answer where
  | program (program : Program)
  | records (records : List Record)
  | words (words : List PlacedWord)
  | symbols (symbols : List (Text × Int))
  | text (text : Text)
  | written (text : Text)
  | warnings (log : Log)
  | truth (value : Bool)
  | report (report : Text)
  deriving DecidableEq, Repr

/-- The answer to a request, with what was printed on the way, and the state afterwards. -/
structure Reply (σ : Type) where
  session : Session
  system : σ
  answer : Except Failure Answer
  printed : List Text
  events : List Event

variable {σ : Type} [FileSystem σ]

/-- Lines that are printed in a verbose session only. -/
def whenVerbose (session : Session) (lines : List Text) : List Text :=
  if session.options.verbose then lines else []

/-- Prints a line that names a file, in a verbose session only. -/
def announce (session : Session) (line : Text) : Except Failure (List Text) :=
  if session.options.verbose then
    match Utf8.encode line with
    | .error fault => .error (.unencodable fault)
    | .ok _ => .ok [line]
  else .ok []

def remember (session : Session) (run : Run) : Session :=
  { session with program := run.outcome.toOption, image := run.image, log := run.log }

/-- Assembles lines and remembers the run. -/
def assemble (session : Session) (system : σ) (printed : List Text) (file : Text)
    (lines : List Text) : Reply σ :=
  let run := Run.ofLines session.options file lines
  { session := session.remember run
    system := system
    answer :=
      match run.outcome with
      | .ok program => .ok (.program program)
      | .error abort => .error (.run abort)
    printed := printed ++ session.whenVerbose (run.events.flatMap Event.progress)
    events := run.events }

def sourceLines (system : σ) (path : Text) : Except Failure (List Text) :=
  match FileSystem.readFile system path with
  | .error fault => .error (.file fault)
  | .ok bytes =>
      match Utf8.decode bytes with
      | .error fault => .error (.encoding fault)
      | .ok text => .ok (Text.lines (Text.unifyLineEnds text))

/-- Assembles a file under the normal form of its path. -/
def assembleFile (session : Session) (system : σ) (path : Text) : Reply σ :=
  let file := Path.normal path
  match session.announce ("Assembling " ++ file ++ "...") with
  | .error failure => ⟨session, system, .error failure, [], []⟩
  | .ok printed =>
      match sourceLines system file with
      | .error failure => ⟨session, system, .error failure, printed, []⟩
      | .ok lines => session.assemble system printed file lines

/-- Answers from the program, if there is one. -/
def look (session : Session) (system : σ) (view : Program → Answer) : Reply σ :=
  match session.program with
  | none => ⟨session, system, .error .noProgram, [], []⟩
  | some program => ⟨session, system, .ok (view program), [], []⟩

def tell (session : Session) (system : σ) (answer : Answer) : Reply σ :=
  ⟨session, system, .ok answer, [], []⟩

/-- Writes a text to a file, which is emptied first. -/
def put (session : Session) (system : σ) (what : Text) (path text : Text) : Reply σ :=
  match Utf8.encode text with
  | .error fault =>
      match FileSystem.writeFile system path [] with
      | .error fault => ⟨session, system, .error (.file fault), [], []⟩
      | .ok system => ⟨session, system, .error (.unencodable fault), [], []⟩
  | .ok bytes =>
      match FileSystem.writeFile system path bytes with
      | .error fault => ⟨session, system, .error (.file fault), [], []⟩
      | .ok system =>
          match session.announce ("Wrote " ++ what ++ " to " ++ path) with
          | .error failure => ⟨session, system, .error failure, [], []⟩
          | .ok printed => ⟨session, system, .ok (.written text), printed, []⟩

/-- Writes what there is to see of the program.  Nothing is opened without one. -/
def write (session : Session) (system : σ) (what : Text) (path : Text) (view : Program → Text) :
    Reply σ :=
  match session.program with
  | none => ⟨session, system, .error .noProgram, [], []⟩
  | some program => session.put system what path (view program)

def step (session : Session) (system : σ) : Request → Reply σ
  | .assembleText source file =>
      session.assemble system (session.whenVerbose ["Assembling from string..."]) file
        (Text.lines source)
  | .assembleLines lines file => session.assemble system [] file lines
  | .assembleFile path => session.assembleFile system path
  | .program => session.look system .program
  | .records => session.look system (fun program => .records program.image.records)
  | .words => session.look system (fun program => .words program.image.words)
  | .symbols => session.look system (fun program => .symbols program.symbols)
  | .listing => session.look system (fun program => .text program.image.listing)
  | .load => session.look system (fun program => .text program.image.load)
  | .writeListing path =>
      session.write system "listing" path (fun _ => session.image.listing)
  | .writeLoad path => session.write system "load file" path (fun _ => session.image.load)
  | .writeSymbols path => session.write system "symbols" path Program.symbolFile
  | .warnings => session.tell system (.warnings session.log)
  | .hasWarnings => session.tell system (.truth (!session.log.isEmpty))
  | .warningReport => session.tell system (.report session.log.report)
  | .isStrict => session.tell system (.truth session.options.strictFlags)

end Session

end TwoPass
