import TwoPass.Diagnostic.Error

/-!
# Reading operands

Operand text is a list of fields between commas, with white space around a field ignored.  The format
of the instruction says how many fields there are and what each may hold.  The first fault from the
left is the one reported: no operands at all, an empty field, a wrong number of fields, then the
fields in order.
-/

namespace TwoPass

namespace OperandReader

structure Context where
  mnemonic : Text
  place : Option Place
  sourceLine : Option Text
  /-- An unknown shift flag is an error, not a warning. -/
  strict : Bool
  deriving DecidableEq, Repr

variable (context : Context)

def refuse {α : Type} (cause : Error.Cause) : Except Abort α :=
  .error (.error ⟨cause, context.place, context.sourceLine⟩)

def fields (format : Format) (text : Text) : Except Abort (List Text) :=
  if (Text.trim text).isEmpty then refuse context (.missingOperands context.mnemonic format)
  else
    let tokens := (text.splitOn (.char ',')).map Text.trim
    match tokens.findIdx? List.isEmpty with
    | some position => refuse context (.emptyField (position + 1) (Text.trim text) format)
    | none => .ok tokens

def wrongCount {α : Type} (format : Format) (tokens : List Text) : Except Abort α :=
  refuse context (.wrongFieldCount context.mnemonic tokens.length format)

/-- A decimal number that fits the field. -/
def number (field : Field) (token : Text) : Except Abort (Fin (field.largest + 1)) :=
  if Text.isDecimalToken token then
    match Text.readDecimal token with
    | .error fault => .error (.numeral fault)
    | .ok value =>
        if fits : 0 ≤ value ∧ value ≤ field.largest then .ok ⟨value.toNat, by omega⟩
        else refuse context (.outOfRange field token)
  else refuse context (.notDecimal field token)

def address (token : Text) : Except Abort Value :=
  match Value.read? token with
  | .error fault => .error (.numeral fault)
  | .ok (some value) => .ok value
  | .ok none => refuse context (.badAddress token)

def indirect (token : Text) : Except Abort Bool :=
  match indirectOfToken? token with
  | some set => .ok set
  | none => refuse context (.badIndirectFlag token)

/-- A shift flag.  An unknown spelling is refused in strict mode and otherwise counts as clear, with a
warning. -/
def shiftFlag (flag : ShiftFlag) (token : Text) : Except Abort (Bool × Log) :=
  match flag.ofToken? token with
  | some set => .ok (set, [])
  | none =>
      if context.strict then refuse context (.unknownFlag flag token)
      else .ok (false, [⟨.unknownFlag flag token, context.place⟩])

/-- Index register and address alone, with the register taken as zero. -/
def shortMemory (index addr : Text) (indirect : Bool) : Except Abort Operands := do
  let index ← number context .index index
  let addr ← address context addr
  return .memory 0 index indirect addr

/-- Register, index register, address, and an indirect flag unless it is left out. -/
def longMemory (register index addr : Text) (flag : Option Text) : Except Abort Operands := do
  let register ← number context .register register
  let index ← number context .index index
  let addr ← address context addr
  match flag with
  | none => return .memory register index false addr
  | some token => return .memory register index (← indirect context token) addr

/-- Two, three or four fields.  Instructions with an index form also take the index register, the
address and the letter `I`. -/
def memory (indexForm : Bool) (text : Text) : Except Abort Operands := do
  match ← fields context .memory text with
  | [index, addr] => shortMemory context index addr false
  | [first, second, third] =>
      if indexForm && Text.upper third == "I".text then shortMemory context first second true
      else longMemory context first second third none
  | [register, index, addr, flag] => longMemory context register index addr (some flag)
  | tokens => wrongCount context .memory tokens

def immediate (text : Text) : Except Abort Operands := do
  match ← fields context .immediate text with
  | [register, value] =>
      let register ← number context .register register
      let value ← number context .immediate value
      return .immediate register value
  | tokens => wrongCount context .immediate tokens

def registers (text : Text) : Except Abort Operands := do
  match ← fields context .register text with
  | [first, second] =>
      let first ← number context .register first
      let second ← number context .register second
      return .registers first second
  | tokens => wrongCount context .register tokens

def shift (text : Text) : Except Abort (Operands × Log) := do
  match ← fields context .shift text with
  | [register, count, direction, kind] =>
      let register ← number context .register register
      let count ← number context .shiftCount count
      let (left, leftLog) ← shiftFlag context .direction direction
      let (arithmetic, arithmeticLog) ← shiftFlag context .kind kind
      return (.shift register count left arithmetic, leftLog ++ arithmeticLog)
  | tokens => wrongCount context .shift tokens

def device (text : Text) : Except Abort Operands := do
  match ← fields context .device text with
  | [register, unit] =>
      let register ← number context .register register
      let unit ← number context .device unit
      return .device register unit
  | tokens => wrongCount context .device tokens

def bare (text : Text) : Except Abort Operands :=
  let operands := Text.trim text
  if operands.isEmpty then .ok .bare
  else refuse context (.unexpectedOperands context.mnemonic operands)

def quietly (operands : Except Abort Operands) : Except Abort (Operands × Log) :=
  operands.map (fun operands => (operands, []))

/-- Reads the operands of an instruction, with the warnings they give rise to. -/
def read (instruction : Instruction) (text : Text) : Except Abort (Operands × Log) :=
  match instruction.format with
  | .memory => quietly (memory context instruction.hasIndexForm text)
  | .immediate => quietly (immediate context text)
  | .register => quietly (registers context text)
  | .shift => shift context text
  | .device => quietly (device context text)
  | .bare => quietly (bare context text)

/-- Reads operands for the mnemonic of the context, which must belong to an instruction. -/
def readNamed (text : Text) : Except Abort (Operands × Log) :=
  match Instruction.ofMnemonic? context.mnemonic with
  | some instruction => read context instruction text
  | none => .error .noInstruction

end OperandReader

end TwoPass
