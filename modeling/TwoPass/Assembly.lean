import TwoPass.Image.Encoding
import TwoPass.Source.Survey

/-!
# Assembling a source

A run surveys every line, closes the symbol table and encodes the word lines.  It ends with a program
or with the reason it stopped; the warnings and the events up to that point are kept either way.
-/

namespace TwoPass

/-- How a run treats doubtful lines, and whether it reports its progress. -/
structure Options where
  verbose : Bool
  strictFlags : Bool
  warningsAsErrors : Bool
  deriving DecidableEq, Repr

def Options.default : Options :=
  ⟨false, false, false⟩

/-- Everything that a successful run produced. -/
structure Program where
  image : Image
  symbols : List (Text × Int)
  log : Log
  deriving DecidableEq, Repr

namespace Program

def symbolHeading : List Text :=
  ["# Symbol table", "# Generated by c6461asm"]

/-- A label with its address in octal. -/
def symbolLine (symbol : Text × Int) : Text :=
  symbol.1 ++ .char ' ' :: octalOfInt symbol.2

def sortedSymbols (program : Program) : List (Text × Int) :=
  program.symbols.mergeSort (fun left right => Text.precedes left.1 right.1)

/-- Two heading lines, then every label with its address in octal, by name. -/
def symbolFile (program : Program) : Text :=
  Text.unlines (symbolHeading ++ program.sortedSymbols.map symbolLine)

end Program

/-- How a run ended, with its warnings and events.  The image holds what has been encoded at the end; a
run that stops at a word line keeps the words before it. -/
structure Run where
  outcome : Except Abort Program
  image : Image
  log : Log
  events : List Event

namespace Run

/-- Refuses a program with warnings when warnings are to count as errors. -/
def judge (options : Options) (program : Program) : Except Abort Program :=
  if options.warningsAsErrors && !program.log.isEmpty then
    .error (.error ⟨.warningsPresent program.log, none, none⟩)
  else .ok program

/-- The second half of a run: encodes the records of a finished survey. -/
def encode (options : Options) (survey : Survey) (records : List Record) : Run :=
  let table := survey.table.close
  let words := (records.filter Record.occupiesWord).length
  let events := survey.events ++ [.surveyed records.length words table.size]
  let encoding := Encoding.ofRecords table options.strictFlags records
  let image : Image := ⟨records, encoding.words⟩
  let log := survey.log ++ encoding.log
  match encoding.stop with
  | some abort => ⟨.error abort, image, log, events⟩
  | none =>
      let program : Program := ⟨image, table.bindings, log⟩
      ⟨judge options program, image, log, events ++ [.encoded encoding.words.length]⟩

/-- Assembles source lines; `file` is the name that warnings and errors use. -/
def ofLines (options : Options) (file : Text) (lines : List Text) : Run :=
  match Survey.readSource file lines with
  | (survey, .error abort) => ⟨.error abort, .empty, survey.log, survey.events⟩
  | (survey, .ok records) => encode options survey records

def ofText (options : Options) (file source : Text) : Run :=
  ofLines options file (Text.lines source)

end Run

end TwoPass
