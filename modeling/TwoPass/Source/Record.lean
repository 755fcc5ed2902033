import TwoPass.Diagnostic.Error

/-!
# Source lines and their records

A source line is an optional label, an operation with its operands, and a comment.  Reading a line
gives a record: what kind of line it is, the address it has, and what it says.  Two operations are
directives.  `LOC` moves the location counter, `Data` puts a value into the next word; every other
operation is left to the instruction set.
-/

namespace TwoPass

inductive LineKind where
  /-- Nothing but white space and a comment. -/
  | blank
  /-- A label alone. -/
  | labelOnly
  /-- Moves the location counter. -/
  | origin
  /-- One word of data. -/
  | data
  /-- One machine instruction. -/
  | instruction
  deriving DecidableEq, Repr

/-- What one source line says.  The address is the one a word line's word goes to, the new counter of
an origin line, and the counter at the line otherwise. -/
structure Record where
  file : Text
  line : Int
  raw : Text
  kind : LineKind
  address : Int
  label : Option Text
  operation : Option Text
  operands : Text
  occupiesWord : Bool
  data : Option Value
  comment : Option Text
  deriving DecidableEq, Repr

namespace Record

def place (record : Record) : Place :=
  ⟨record.file, record.line⟩

def next (record : Record) : Int :=
  if record.occupiesWord then record.address + 1 else record.address

def blank (file raw : Text) (line counter : Int) (comment : Option Text) : Record where
  file := file
  line := line
  raw := raw
  kind := .blank
  address := counter
  label := none
  operation := none
  operands := []
  occupiesWord := false
  data := none
  comment := comment

/-- The code before the first semicolon, and the comment behind it if there is one. -/
def splitComment (raw : Text) : Text × Option Text :=
  match raw.dropWhile (fun c => c != .char ';') with
  | [] => (raw, none)
  | _ :: rest => (raw.takeWhile (fun c => c != .char ';'), some (Text.trim rest))

/-- A leading name that a colon follows directly is a label.  Only ASCII white space may stand before
it. -/
def splitLabel (code : Text) : Option Text × Text :=
  let body := code.dropWhile Text.isAsciiBlank
  let name := body.takeWhile Text.isNameChar
  if Text.isName name then
    match body.dropWhile Text.isNameChar with
    | .char ':' :: rest => (some name, rest)
    | _ => (none, code)
  else (none, code)

def originKeyword : Text := "LOC".text

def dataKeyword : Text := "DATA".text

/-- A directive cannot be read: the error names the line and shows it. -/
def refuse (record : Record) (cause : Error.Cause) : Except Abort Record :=
  .error (.error ⟨cause, some record.place, some record.raw⟩)

/-- Completes a line that moves the location counter.  `operation` is the directive as written. -/
def readOrigin (record : Record) (operation : Text) : Except Abort Record :=
  let argument := record.operands
  if argument.isEmpty then record.refuse (.missingOrigin operation)
  else if !Text.isUnsignedToken argument then record.refuse (.badOrigin operation argument)
  else
    match Text.readDecimal argument with
    | .error fault => .error (.numeral fault)
    | .ok address =>
        if Word.largest < address then record.refuse (.originTooLarge operation address)
        else
          .ok { record with kind := .origin, operation := some originKeyword, address := address }

/-- Completes a line that holds one word of data.  `operation` is the directive as written. -/
def readData (record : Record) (operation : Text) : Except Abort Record :=
  let argument := record.operands
  if argument.isEmpty then record.refuse (.missingData operation)
  else
    match Value.read? argument with
    | .error fault => .error (.numeral fault)
    | .ok none => record.refuse (.badData operation argument)
    | .ok (some value) =>
        .ok { record with
          kind := .data
          operation := some "Data".text
          data := some value
          occupiesWord := true }

/-- Completes a record from the code behind its label. -/
def readCode (record : Record) (code : Text) : Except Abort Record :=
  let body := Text.trim code
  if body.isEmpty then .ok { record with kind := .labelOnly }
  else
    let operation := Text.firstWord body
    let keyword := Text.upper operation
    let record := { record with operands := Text.afterFirstWord body }
    if keyword = originKeyword then record.readOrigin operation
    else if keyword = dataKeyword then record.readData operation
    else
      .ok { record with
        kind := .instruction
        operation := some keyword
        occupiesWord := true }

def read (file raw : Text) (line counter : Int) : Except Abort Record :=
  let (code, comment) := splitComment raw
  let record := blank file raw line counter comment
  if (Text.trim code).isEmpty then .ok record
  else
    let (label, rest) := splitLabel code
    { record with label := label }.readCode rest

/-- The warning due when the line's word lies beyond the last address. -/
def overflow (record : Record) : Log :=
  if record.occupiesWord && decide (Word.largest < record.address) then
    [⟨.counterOverflow record.address, some record.place⟩]
  else []

end Record

end TwoPass
