import TwoPass.Source.Record
import TwoPass.Symbol.Table

/-!
# Surveying a source text

The first reading of a source goes through it line by line with a location counter.  It gives every
line its record and gathers the labels, so that afterwards every label has its address, also one
that is used before it is defined.  A survey that stops at a line keeps what the lines before it
contributed.
-/

namespace TwoPass

inductive Event where
  /-- A line moved the location counter. -/
  | counterSet (line value : Int)
  /-- Every line has been read and the table is closed. -/
  | surveyed (lines words labels : Nat)
  /-- Every word has been encoded. -/
  | encoded (words : Nat)
  deriving DecidableEq, Repr

structure Survey where
  table : SymbolTable
  log : Log
  events : List Event
  deriving DecidableEq, Repr

namespace Survey

def start : Survey :=
  ⟨.empty, [], []⟩

def counterEvent (record : Record) : List Event :=
  if record.kind = .origin then [.counterSet record.line record.address] else []

/-- Takes a record in: the overflow warning first, then the label, bound to the record's address. -/
def enter (survey : Survey) (record : Record) : Survey × Except Abort Record :=
  let noted := { survey with log := survey.log ++ record.overflow }
  match record.label with
  | none => ({ noted with events := noted.events ++ counterEvent record }, .ok record)
  | some label =>
      match noted.table.define label record.address (some record.place) with
      | .error report => (noted, .error (.error report))
      | .ok (table, warnings) =>
          (⟨table, noted.log ++ warnings, noted.events ++ counterEvent record⟩, .ok record)

def readLine (survey : Survey) (file raw : Text) (line counter : Int) :
    Survey × Except Abort Record :=
  match Record.read file raw line counter with
  | .error abort => (survey, .error abort)
  | .ok record => survey.enter record

/-- Reads lines in order, numbered from `line`, with the counter passed from each to the next. -/
def readFrom (file : Text) (survey : Survey) (line counter : Int) :
    List Text → Survey × Except Abort (List Record)
  | [] => (survey, .ok [])
  | raw :: rest =>
      match survey.readLine file raw line counter with
      | (survey, .error abort) => (survey, .error abort)
      | (survey, .ok record) =>
          match readFrom file survey (line + 1) record.next rest with
          | (survey, .error abort) => (survey, .error abort)
          | (survey, .ok records) => (survey, .ok (record :: records))

/-- Surveys a source: lines are numbered from one, the counter starts at zero, and terminators left on
a line do not count. -/
def readSource (file : Text) (lines : List Text) : Survey × Except Abort (List Record) :=
  readFrom file start 1 0 (lines.map Text.dropLineEnds)

end Survey

end TwoPass
