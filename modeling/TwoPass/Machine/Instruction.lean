import TwoPass.Text.Upper
import TwoPass.Machine.Word

/-!
# The instruction set

Every instruction has a mnemonic, a six-bit opcode and a format.  The format decides which operands
the instruction takes and where they stand in the ten bits below the opcode.
-/

namespace TwoPass

/-- The shape of an instruction's operands. -/
inductive Format where
  /-- Register, index register, address and indirect bit. -/
  | memory
  /-- Register and a small number. -/
  | immediate
  /-- Two registers. -/
  | register
  /-- Register, count and two shift flags. -/
  | shift
  /-- Register and device number. -/
  | device
  /-- No operands. -/
  | bare
  deriving DecidableEq, Repr

namespace Format

def name : Format → Text
  | .memory => "MEMORY"
  | .immediate => "IMMEDIATE"
  | .register => "REGISTER"
  | .shift => "SHIFT"
  | .device => "IO"
  | .bare => "NONE"

def description : Format → Text
  | .memory => "memory-reference"
  | .immediate => "arithmetic-immediate"
  | .register => "register-to-register"
  | .shift => "shift/rotate"
  | .device => "I/O"
  | .bare => "no-operand"

/-- The operands as a hint shows them. -/
def operandForm : Format → Text
  | .memory => "R,IX,ADDR[,I]"
  | .immediate => "R,IMMED"
  | .register => "RX,RY"
  | .shift => "R,COUNT,L/R,A/L"
  | .device => "R,DEVID"
  | .bare => "(no operands)"

end Format

inductive Instruction where
  | hlt | trap | ldr | str | lda | ldx | stx | jz | jne | jcc | jma | jsr | rfs | sob | jge | amr
  | smr | air | sir | mlt | dvd | trr | and | orr | not | src | rrc | inp | out | chk | fadd
  | fsub | vadd | vsub | cnvrt | ldfr | stfr
  deriving DecidableEq, Repr

namespace Instruction

def all : List Instruction :=
  [.hlt, .trap, .ldr, .str, .lda, .ldx, .stx, .jz, .jne, .jcc, .jma, .jsr, .rfs, .sob, .jge,
   .amr, .smr, .air, .sir, .mlt, .dvd, .trr, .and, .orr, .not, .src, .rrc, .inp, .out, .chk,
   .fadd, .fsub, .vadd, .vsub, .cnvrt, .ldfr, .stfr]

def mnemonicString : Instruction → String
  | .hlt => "HLT"
  | .trap => "TRAP"
  | .ldr => "LDR"
  | .str => "STR"
  | .lda => "LDA"
  | .ldx => "LDX"
  | .stx => "STX"
  | .jz => "JZ"
  | .jne => "JNE"
  | .jcc => "JCC"
  | .jma => "JMA"
  | .jsr => "JSR"
  | .rfs => "RFS"
  | .sob => "SOB"
  | .jge => "JGE"
  | .amr => "AMR"
  | .smr => "SMR"
  | .air => "AIR"
  | .sir => "SIR"
  | .mlt => "MLT"
  | .dvd => "DVD"
  | .trr => "TRR"
  | .and => "AND"
  | .orr => "ORR"
  | .not => "NOT"
  | .src => "SRC"
  | .rrc => "RRC"
  | .inp => "IN"
  | .out => "OUT"
  | .chk => "CHK"
  | .fadd => "FADD"
  | .fsub => "FSUB"
  | .vadd => "VADD"
  | .vsub => "VSUB"
  | .cnvrt => "CNVRT"
  | .ldfr => "LDFR"
  | .stfr => "STFR"

def mnemonic (instruction : Instruction) : Text :=
  instruction.mnemonicString.text

def opcode : Instruction → BitVec 6
  | .hlt => 0o00
  | .trap => 0o30
  | .ldr => 0o01
  | .str => 0o02
  | .lda => 0o03
  | .ldx => 0o41
  | .stx => 0o42
  | .jz => 0o10
  | .jne => 0o11
  | .jcc => 0o12
  | .jma => 0o13
  | .jsr => 0o14
  | .rfs => 0o15
  | .sob => 0o16
  | .jge => 0o17
  | .amr => 0o04
  | .smr => 0o05
  | .air => 0o06
  | .sir => 0o07
  | .mlt => 0o70
  | .dvd => 0o71
  | .trr => 0o72
  | .and => 0o73
  | .orr => 0o74
  | .not => 0o75
  | .src => 0o31
  | .rrc => 0o32
  | .inp => 0o61
  | .out => 0o62
  | .chk => 0o63
  | .fadd => 0o33
  | .fsub => 0o34
  | .vadd => 0o35
  | .vsub => 0o36
  | .cnvrt => 0o37
  | .ldfr => 0o50
  | .stfr => 0o51

def format : Instruction → Format
  | .hlt => .bare
  | .air | .sir => .immediate
  | .mlt | .dvd | .trr | .and | .orr | .not => .register
  | .src | .rrc => .shift
  | .inp | .out | .chk => .device
  | _ => .memory

/-- Instructions on an index register, which may leave the register field out. -/
def hasIndexForm : Instruction → Bool
  | .ldx | .stx => true
  | _ => false

/-- The instruction a mnemonic names, in any case. -/
def ofMnemonic? (mnemonic : Text) : Option Instruction :=
  all.find? (fun instruction => instruction.mnemonic == Text.upper mnemonic)

def mnemonics : List Text :=
  (all.map mnemonic).mergeSort Text.precedes

/-- The mnemonics of one format, by code point. -/
def mnemonicsOf (format : Format) : List Text :=
  ((all.filter (fun instruction => instruction.format == format)).map mnemonic).mergeSort
    Text.precedes

def summary (instruction : Instruction) : Text :=
  let code := instruction.opcode.toNat
  let digits : Text := [.char (Nat.digitChar (code / 8)), .char (Nat.digitChar (code % 8))]
  "InstructionInfo(opcode=0o" ++ digits ++ ", iclass=" ++ instruction.format.name ++ ")"

end Instruction

end TwoPass
