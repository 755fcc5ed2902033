import TwoPass.Image.Encoding

/-!
# The encoder at work

Each word is appended as soon as it is made.  A failure leaves the log and the words as they are at
that moment.
-/

namespace TwoPass

namespace Recorder

def shiftFlag (context : OperandReader.Context) (flag : ShiftFlag) (token : Text) : Recorder Bool :=
  match flag.ofToken? token with
  | some set => pure set
  | none =>
      if context.strict then quietly (OperandReader.refuse context (.unknownFlag flag token))
      else do
        warn ⟨.unknownFlag flag token, context.place⟩
        return false

def shift (context : OperandReader.Context) (text : Text) : Recorder Operands := do
  match ← quietly (OperandReader.fields context .shift text) with
  | [register, count, direction, kind] =>
      let register ← quietly (OperandReader.number context .register register)
      let count ← quietly (OperandReader.number context .shiftCount count)
      let left ← shiftFlag context .direction direction
      let arithmetic ← shiftFlag context .kind kind
      return .shift register count left arithmetic
  | tokens => quietly (OperandReader.wrongCount context .shift tokens)

/-- Only shift flags give rise to warnings while operands are read. -/
def read (context : OperandReader.Context) (instruction : Instruction) (text : Text) :
    Recorder Operands :=
  match instruction.format with
  | .memory => quietly (OperandReader.memory context instruction.hasIndexForm text)
  | .immediate => quietly (OperandReader.immediate context text)
  | .register => quietly (OperandReader.registers context text)
  | .shift => shift context text
  | .device => quietly (OperandReader.device context text)
  | .bare => quietly (OperandReader.bare context text)

def operandAddress (table : SymbolTable) (record : Record) (value : Value) : Recorder Int := do
  let address ← quietly (Encoding.resolve table record value)
  if address < 0 then
    stop (.error ⟨.negativeAddress address, some record.place, some record.raw⟩)
  else
    warnIf (Word.largest < address) ⟨.addressOverflow address, some record.place⟩
    warnIf (31 < address)
      ⟨.addressTruncated (Encoding.labelOf? value) address, some record.place⟩
    return address

/-- Only an operand address gives rise to warnings while operands are laid out. -/
def layOut (table : SymbolTable) (record : Record) (opcode : BitVec 6) : Operands → Recorder Word
  | .memory register index indirect value => do
      let address ← operandAddress table record value
      return Word.pack opcode (BitVec.ofNat 2 register) (BitVec.ofNat 2 index)
        (BitVec.ofBool indirect) (BitVec.ofInt 5 address)
  | operands => quietly ((Encoding.layOut table record opcode operands).map Prod.fst)

def encodeInstruction (table : SymbolTable) (strict : Bool) (record : Record) : Recorder Word :=
  match record.operation with
  | none => throw .noOperation
  | some mnemonic =>
      match Instruction.ofMnemonic? mnemonic with
      | none => stop (Encoding.unknownOpcode record mnemonic)
      | some instruction => do
          let operands ←
            read ⟨mnemonic, some record.place, some record.raw, strict⟩ instruction record.operands
          layOut table record instruction.opcode operands

def encode (table : SymbolTable) (strict : Bool) (record : Record) : Recorder Word :=
  if record.kind = .data then quietly ((Encoding.encodeData table record).map Prod.fst)
  else encodeInstruction table strict record

/-- Goes on with more records, with these words made so far. -/
def encodeFrom (table : SymbolTable) (strict : Bool) (words : List PlacedWord) (log : Log) :
    List Record → Encoding
  | [] => ⟨words, log, none⟩
  | record :: rest =>
      if record.occupiesWord then
        match (encode table strict record).run log with
        | .error abort log => ⟨words, log, some abort⟩
        | .ok word log =>
            encodeFrom table strict (words ++ [⟨record.address, word, record.line⟩]) log rest
      else encodeFrom table strict words log rest

/-- Encodes the word lines among the records in order, onto a log. -/
def encodeAll (table : SymbolTable) (strict : Bool) (log : Log) (records : List Record) : Encoding :=
  encodeFrom table strict [] log records

end Recorder

end TwoPass
