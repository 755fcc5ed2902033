import TwoPass.Command.Arguments
import TwoPass.Session

/-!
# Running the command

The command assembles one file and writes the listing, the load file and, if asked, the symbol file.
Nothing is written unless assembly succeeds.  The exit code tells a fault of the source from a fault
of the arguments or files and from everything else.
-/

namespace TwoPass.Command

/-- The families of failure that the exit code tells apart. -/
inductive Complaint where
  /-- The source cannot be assembled. -/
  | assembly
  /-- An argument is not acceptable. -/
  | argument
  /-- A file cannot be opened. -/
  | file (number : Nat)
  /-- The source file is not text. -/
  | encoding
  /-- Anything else. -/
  | internal
  deriving DecidableEq, Repr

namespace Complaint

/-- Missing files, directories and closed doors are the caller's business, by the numbers that the
system gives them; other file faults are unexpected. -/
def isCallers : Complaint → Bool
  | .argument => true
  | .file number => number == 2 || number == 21 || number == 1 || number == 13
  | _ => false

def exitCode (complaint : Complaint) : Nat :=
  match complaint with
  | .assembly => 1
  | .encoding => 2
  | other => if other.isCallers then 2 else 3

def ofFailure : Failure → Complaint
  | .run (.error _) => .assembly
  | .run _ => .internal
  | .file (.system error _) => .file error.number
  | .file (.badPath _) => .internal
  | .encoding _ => .encoding
  | .unencodable _ => .internal
  | .noProgram => .internal

/-- What the command says on failure.  `activity` names what failed to assemble, if it is known. -/
def text (complaint : Complaint) (message : Text) (activity : Option Text) : Text :=
  match complaint with
  | .assembly =>
      match activity with
      | some name => if name.isEmpty then message else name ++ " failed:\n" ++ message
      | none => message
  | .encoding => "Error: source file is not valid UTF-8 text: " ++ message
  | other => if other.isCallers then "Error: " ++ message else "Internal error: " ++ message

/-- Where the call stack of an unexpected failure is shown in a verbose run. -/
def stackMark : Text := "<traceback>"

end Complaint

structure Output where
  out : List Text
  err : List Text
  deriving DecidableEq, Repr

namespace Output

def empty : Output :=
  ⟨[], []⟩

def append (first second : Output) : Output :=
  ⟨first.out ++ second.out, first.err ++ second.err⟩

instance : Append Output :=
  ⟨append⟩

def raw (lines : List Text) : Output :=
  ⟨lines, []⟩

/-- A line without control sequences. -/
def say (line : Text) : Output :=
  ⟨[Text.plain line], []⟩

/-- A line for standard error, which can show any text. -/
def complain (line : Text) : Output :=
  ⟨[], [Text.withoutSurrogates (Text.plain line)]⟩

def trace (events : List Event) : Output :=
  ⟨[], (events.flatMap Event.trace).map (fun line => "DEBUG: " ++ line)⟩

end Output

structure Outcome (σ : Type) where
  exitCode : Nat
  output : Output
  refusal : Option Refusal
  system : σ

variable {σ : Type} [FileSystem σ]

def report (complaint : Complaint) (message : Text) (activity : Option Text) (verbose : Bool) :
    Nat × Output :=
  let said := Output.complain (complaint.text message activity)
  let stack := if complaint.exitCode = 3 && verbose then [Complaint.stackMark] else []
  (complaint.exitCode, said ++ ⟨[], stack⟩)

/-- Warnings are complained about one by one. -/
def showLog (log : Log) : Output :=
  log.foldr (fun warning output => Output.complain warning.text ++ output) Output.empty

/-- A failure that lists the warnings itself. -/
def listsWarnings : Failure → Bool
  | .run (.error report) => report.cause.category == .warningsPresent
  | _ => false

def fail (verbose : Bool) (session : Session) (system : σ) (sofar : Output) (failure : Failure) :
    Outcome σ :=
  let warnings := if listsWarnings failure then Output.empty else showLog session.log
  let (code, said) := report (.ofFailure failure) failure.message (some "Assembly") verbose
  ⟨code, sofar ++ warnings ++ said, none, system⟩

def writes (invocation : Invocation) : List Session.Request :=
  [.writeListing (Path.normal invocation.listing), .writeLoad (Path.normal invocation.load)] ++
    (match invocation.symbols with
      | some path => [.writeSymbols (Path.normal path)]
      | none => [])

/-- Makes requests until one fails. -/
def perform (session : Session) (system : σ) (sofar : Output) :
    List Session.Request → σ × Output × Option Failure
  | [] => (system, sofar, none)
  | request :: rest =>
      let reply := session.step system request
      let sofar := sofar ++ Output.raw reply.printed
      match reply.answer with
      | .error failure => (reply.system, sofar, some failure)
      | .ok _ => perform reply.session reply.system sofar rest

/-- What a verbose run says about the program at the end. -/
def totals (program : Program) : Output :=
  Output.say ("Assembled " ++ Text.ofNat program.image.words.length ++ " words") ++
    Output.say ("Defined " ++ Text.ofNat program.symbols.length ++ " labels")

/-- The line that says that everything has been written. -/
def completion (invocation : Invocation) : Text :=
  "Assembling complete. Listing -> " ++ Path.normal invocation.listing ++ ", Load -> " ++
    Path.normal invocation.load

/-- Ends a run whose files have been written, unless that cannot be said. -/
def complete (invocation : Invocation) (session : Session) (system : σ) (sofar : Output) :
    Outcome σ :=
  match Utf8.encode (Text.plain (completion invocation)) with
  | .error fault => fail invocation.verbose session system sofar (.unencodable fault)
  | .ok _ => ⟨0, sofar ++ Output.say (completion invocation), none, system⟩

/-- Runs an invocation whose arguments have been checked. -/
def execute (system : σ) (invocation : Invocation) : Outcome σ :=
  let verbose := invocation.verbose
  let session := Session.start ⟨verbose, invocation.strictFlags, invocation.warningsAsErrors⟩
  let mode : Text := if invocation.strictFlags then "strict" else "lenient"
  let opening := if verbose then Output.say ("Shift/rotate flags: " ++ mode) else Output.empty
  let reply := session.assembleFile system invocation.input
  let traced := if verbose then Output.trace reply.events else Output.empty
  let sofar := opening ++ Output.raw reply.printed ++ traced
  match reply.answer, reply.session.program with
  | .ok _, some program =>
      let (system, sofar, stop) :=
        perform reply.session reply.system (sofar ++ showLog reply.session.log) (writes invocation)
      match stop with
      | some failure => fail verbose reply.session system sofar failure
      | none =>
          let closing := if verbose then totals program else Output.empty
          complete invocation reply.session system (sofar ++ closing)
  | .ok _, none => fail verbose reply.session reply.system sofar .noProgram
  | .error failure, _ => fail verbose reply.session reply.system sofar failure

def usage : Text :=
  "Usage: c6461asm [OPTIONS] INPUT_FILE LISTING_FILE LOAD_FILE"

def versionText : Text :=
  "c6461asm, version 1.0.0"

def helpLines : List Text :=
  [usage,
   "",
   "  Assemble C6461 source code.",
   "",
   "  INPUT_FILE is the assembly source file (.asm). The listing is written to",
   "  LISTING_FILE and the octal load image to LOAD_FILE. Neither file is written",
   "  if assembly fails.",
   "",
   "  Examples:",
   "      c6461asm prog.asm prog.lst prog.load",
   "      c6461asm prog.asm prog.lst prog.load -s prog.sym",
   "      c6461asm -W prog.asm prog.lst prog.load",
   "",
   "Options:",
   "  -s, --symbols FILE              Generate symbol file",
   "  --strict-flags / --lenient-flags",
   "                                  Reject unrecognized L/R and A/L flags in",
   "                                  SRC/RRC instead of reading them as 0 with a",
   "                                  warning. Default: lenient.",
   "  -W, --warnings-as-errors        Treat any warning as a fatal error",
   "  -v, --verbose                   Verbose output",
   "  --version                       Show the version and exit.",
   "  --help                          Show this message and exit."]

/-- An invocation that only asks for information. -/
def inform (system : σ) : Switch → Outcome σ
  | .version => ⟨0, Output.raw [versionText], none, system⟩
  | _ => ⟨0, Output.raw helpLines, none, system⟩

/-- Nothing is printed and no file is touched before the command starts. -/
def refuse (system : σ) (refusal : Refusal) : Outcome σ :=
  ⟨refusal.exitCode, Output.empty, some refusal, system⟩

def run (system : σ) (arguments : List Text) : Outcome σ :=
  match Arguments.initial.read arguments with
  | .error fault => refuse system (.usage fault)
  | .ok arguments =>
      match arguments.notice with
      | some switch => inform system switch
      | none =>
          match Invocation.ofArguments system arguments with
          | .error refusal => refuse system refusal
          | .ok invocation => execute system invocation

end TwoPass.Command
