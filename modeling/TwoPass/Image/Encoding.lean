import TwoPass.Operand.Reader
import TwoPass.Source.Record
import TwoPass.Symbol.Table

/-!
# Encoding records

A word line becomes one machine word.  A line that cannot be encoded contributes neither a word nor a
warning: everything that can fail comes before the first warning is due.

The listing repeats every source line behind the address and the word that the line produced, or
behind eight spaces if it produced none.  The load file has the addresses and words alone.
-/

namespace TwoPass

namespace Encoding

/-- The address that a value stands for. -/
def resolve (table : SymbolTable) (record : Record) : Value → Except Abort Int
  | .literal number => .ok number
  | .label name =>
      match table.resolve name (some record.place) (some record.raw) with
      | .ok address => .ok address
      | .error report => .error (.error report)

def labelOf? : Value → Option Text
  | .literal _ => none
  | .label name => some name

/-- The warnings due for an operand address: one if it is beyond the last address, and one if its five
low bits are not all of it. -/
def addressWarnings (record : Record) (value : Value) (address : Int) : Log :=
  (if Word.largest < address then [⟨.addressOverflow address, some record.place⟩] else []) ++
    (if 31 < address then [⟨.addressTruncated (labelOf? value) address, some record.place⟩] else [])

/-- The operand address of a memory instruction, which must not be negative. -/
def operandAddress (table : SymbolTable) (record : Record) (value : Value) :
    Except Abort (Int × Log) := do
  let address ← resolve table record value
  if address < 0 then .error (.error ⟨.negativeAddress address, some record.place, some record.raw⟩)
  else .ok (address, addressWarnings record value address)

/-- Lays operands out below an opcode. -/
def layOut (table : SymbolTable) (record : Record) (opcode : BitVec 6) :
    Operands → Except Abort (Word × Log)
  | .memory register index indirect value => do
      let (address, warnings) ← operandAddress table record value
      return (Word.pack opcode (BitVec.ofNat 2 register) (BitVec.ofNat 2 index)
        (BitVec.ofBool indirect) (BitVec.ofInt 5 address), warnings)
  | .immediate register number =>
      .ok (Word.pack opcode (BitVec.ofNat 2 register) 0 0 (BitVec.ofNat 5 number), [])
  | .registers first second =>
      .ok (Word.pack opcode (BitVec.ofNat 2 first) (BitVec.ofNat 2 second) 0 0, [])
  | .shift register count left arithmetic =>
      .ok ((Word.pack opcode (BitVec.ofNat 2 register) 0 0 0).overlayShift (BitVec.ofNat 4 count)
        left arithmetic, [])
  | .device register number =>
      .ok (Word.pack opcode (BitVec.ofNat 2 register) 0 0 (BitVec.ofNat 5 number), [])
  | .bare => .ok (Word.pack opcode 0 0 0 0, [])

/-- One word of data: the value reduced to sixteen bits. -/
def encodeData (table : SymbolTable) (record : Record) : Except Abort (Word × Log) :=
  match record.data with
  | none => .error .noValue
  | some value => (resolve table record value).map (fun address => (Word.ofInt address, []))

/-- An unknown operation is reported with the mnemonics most like it. -/
def unknownOpcode (record : Record) (mnemonic : Text) : Abort :=
  .error ⟨.unknownOpcode mnemonic (Text.suggestions mnemonic Instruction.mnemonics),
    some record.place, some record.raw⟩

def encodeInstruction (table : SymbolTable) (strict : Bool) (record : Record) :
    Except Abort (Word × Log) :=
  match record.operation with
  | none => .error .noOperation
  | some mnemonic =>
      match Instruction.ofMnemonic? mnemonic with
      | none => .error (unknownOpcode record mnemonic)
      | some instruction => do
          let context : OperandReader.Context :=
            ⟨mnemonic, some record.place, some record.raw, strict⟩
          let (operands, flagWarnings) ← OperandReader.read context instruction record.operands
          let (word, addressWarnings) ← layOut table record instruction.opcode operands
          return (word, flagWarnings ++ addressWarnings)

/-- The word of a record and the warnings it gives rise to. -/
def encode (table : SymbolTable) (strict : Bool) (record : Record) : Except Abort (Word × Log) :=
  if record.kind = .data then encodeData table record
  else encodeInstruction table strict record

end Encoding

/-- Words and warnings of a list of records, up to the record that stopped the encoding if one did. -/
structure Encoding where
  words : List PlacedWord
  log : Log
  stop : Option Abort
  deriving DecidableEq, Repr

namespace Encoding

/-- Encodes the word lines among the records in order. -/
def ofRecords (table : SymbolTable) (strict : Bool) : List Record → Encoding
  | [] => ⟨[], [], none⟩
  | record :: rest =>
      if record.occupiesWord then
        match encode table strict record with
        | .error abort => ⟨[], [], some abort⟩
        | .ok (word, warnings) =>
            let later := ofRecords table strict rest
            ⟨⟨record.address, word, record.line⟩ :: later.words, warnings ++ later.log, later.stop⟩
      else ofRecords table strict rest

end Encoding

structure Image where
  records : List Record
  words : List PlacedWord
  deriving DecidableEq, Repr

namespace Image

def empty : Image :=
  ⟨[], []⟩

/-- The word that a line produced, among words with the newest first; of several with one line number,
the newest. -/
def wordAt? (newest : List PlacedWord) (line : Int) : Option PlacedWord :=
  newest.find? (fun placed => placed.line == line)

def listingLine (newest : List PlacedWord) (record : Record) : Text :=
  match wordAt? newest record.line with
  | some placed => placed.text ++ .char ' ' :: record.raw
  | none => List.replicate 8 (.char ' ') ++ record.raw

def listingLines (image : Image) : List Text :=
  image.records.map (listingLine image.words.reverse)

def loadLines (image : Image) : List Text :=
  image.words.map PlacedWord.text

def listing (image : Image) : Text :=
  Text.unlines image.listingLines

def load (image : Image) : Text :=
  Text.unlines image.loadLines

end Image

end TwoPass
