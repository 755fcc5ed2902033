import TwoPass.Source.Survey
import TwoPass.Symbol.History

/-!
# The survey at work

Here the checks of a line and its effects come one by one, in the order in which the line is taken
apart: the argument of a directive is checked, the word is compared with the last address, the label is
bound, and a moved counter is noted.  A check that fails leaves whatever happened before it.
-/

namespace TwoPass

/-- A computation on a survey that may stop.  What it did before it stopped stays. -/
abbrev Surveyor := EStateM Abort Survey

namespace Surveyor

variable {α : Type}

/-- A part that only touches the table and the log. -/
def keep (keeper : SymbolHistory.Keeper α) : Surveyor α := fun survey =>
  match keeper.run ⟨survey.table, survey.log⟩ with
  | .ok value history => .ok value { survey with table := history.table, log := history.log }
  | .error abort history => .error abort { survey with table := history.table, log := history.log }

def record (recorder : Recorder α) : Surveyor α :=
  keep (SymbolHistory.record recorder)

/-- A directive cannot be read: the error names the line and shows it. -/
def refuse (record : Record) (cause : Error.Cause) : Surveyor α :=
  Surveyor.record (Recorder.stop (.error ⟨cause, some record.place, some record.raw⟩))

/-- A word beyond the last address is warned about. -/
def checkAddress (record : Record) : Surveyor Unit :=
  Surveyor.record (Recorder.warnIf (Word.largest < record.address)
    ⟨.counterOverflow record.address, some record.place⟩)

def bindLabel (record : Record) : Surveyor Unit :=
  match record.label with
  | some label => keep (SymbolHistory.define label record.address (some record.place))
  | none => pure ()

/-- A line that moves the location counter.  `operation` is the directive as written. -/
def readOrigin (record : Record) (operation : Text) : Surveyor Record := do
  let argument := record.operands
  if argument.isEmpty then refuse record (.missingOrigin operation)
  else if !Text.isUnsignedToken argument then refuse record (.badOrigin operation argument)
  else
    match Text.readDecimal argument with
    | .error fault => throw (.numeral fault)
    | .ok address =>
        if Word.largest < address then refuse record (.originTooLarge operation address)
        else
          let record :=
            { record with
              kind := .origin, operation := some Record.originKeyword, address := address }
          bindLabel record
          Surveyor.record (Recorder.write [record.line, address])
          modify (fun survey =>
            { survey with events := survey.events ++ [.counterSet record.line address] })
          return record

/-- A line that takes a word: its address is checked, then its label is bound. -/
def placeWord (record : Record) : Surveyor Record := do
  checkAddress record
  bindLabel record
  return record

/-- A line that holds one word of data.  `operation` is the directive as written. -/
def readData (record : Record) (operation : Text) : Surveyor Record := do
  let argument := record.operands
  if argument.isEmpty then refuse record (.missingData operation)
  else
    match Value.read? argument with
    | .error fault => throw (.numeral fault)
    | .ok none => refuse record (.badData operation argument)
    | .ok (some value) =>
        placeWord
          { record with
            kind := .data, operation := some "Data".text, data := some value, occupiesWord := true }

def readCode (record : Record) (code : Text) : Surveyor Record := do
  let body := Text.trim code
  if body.isEmpty then
    let record := { record with kind := .labelOnly }
    bindLabel record
    return record
  else
    let operation := Text.firstWord body
    let keyword := Text.upper operation
    let record := { record with operands := Text.afterFirstWord body }
    if keyword = Record.originKeyword then readOrigin record operation
    else if keyword = Record.dataKeyword then readData record operation
    else
      placeWord { record with kind := .instruction, operation := some keyword, occupiesWord := true }

def readLine (file raw : Text) (line counter : Int) : Surveyor Record :=
  let (code, comment) := Record.splitComment raw
  let record := Record.blank file raw line counter comment
  if (Text.trim code).isEmpty then pure record
  else
    let (label, rest) := Record.splitLabel code
    readCode { record with label := label } rest

def readFrom (file : Text) (line counter : Int) : List Text → Surveyor (List Record)
  | [] => pure []
  | raw :: rest => do
      let record ← readLine file raw line counter
      let records ← readFrom file (line + 1) record.next rest
      return record :: records

/-- Reads a whole source onto a survey: lines are numbered from one, the counter starts at zero, and
terminators left on a line do not count. -/
def readLines (file : Text) (lines : List Text) : Surveyor (List Record) :=
  readFrom file 1 0 (lines.map Text.dropLineEnds)

end Surveyor

end TwoPass
