import TwoPass.Proofs.Assembly
import TwoPass.Proofs.Machine.Layout

/-!
# Instruction words decode to what was written

The opcode on top of an instruction word names the instruction, and the ten bits below it, cut as the
format of the instruction says, are the fields that were read from the line.  So a word tells
everything about its line but the part of an address that does not fit the address field.
-/

namespace TwoPass

/-- A run that ended with a program. -/
structure Assembly where
  options : Options
  file : Text
  lines : List Text
  program : Program
  outcome_eq : (Run.ofLines options file lines).outcome = .ok program

/-- The lines in their places, without their terminators. -/
def Assembly.positions (assembly : Assembly) : List Position :=
  Source.positions (assembly.lines.map Text.dropLineEnds)

/-- An instruction line of an assembled program, with what was read from it and the word it became. -/
structure InstructionLine (assembly : Assembly) where
  position : Position
  mem_positions : position ∈ assembly.positions
  kind_eq : Line.kind position.raw = .instruction
  instruction : Instruction
  ofMnemonic?_eq : Instruction.ofMnemonic? (Line.keyword position.raw) = some instruction
  operands : Operands
  warnings : Log
  read_eq : OperandReader.read
    ⟨Line.keyword position.raw, some (position.place assembly.file), some position.raw,
      assembly.options.strictFlags⟩
    instruction (Line.argument position.raw) = .ok (operands, warnings)
  /-- The address that the operands refer to, zero if they refer to none. -/
  address : Int
  address?_eq : operands.value.address? assembly.program.symbols = some address
  placed : PlacedWord
  mem_words : placed ∈ assembly.program.image.words
  line_eq : placed.line = position.number

namespace InstructionLine

variable {assembly : Assembly}

theorem spelled (line : InstructionLine assembly) :
    line.operands.Spelled assembly.options.strictFlags line.instruction
      (Line.argument line.position.raw) :=
  ((OperandReader.read_eq_ok_iff _ _ _ _ _).mp line.read_eq).1

theorem format_eq (line : InstructionLine assembly) :
    line.operands.format = line.instruction.format :=
  line.spelled.format_eq

/-- The word of an instruction line is laid out from what was read. -/
theorem word_eq (line : InstructionLine assembly) :
    line.placed.word = line.operands.word line.instruction.opcode line.address := by
  obtain ⟨outputs, hassembled⟩ := Run.assembled_of_outcome assembly.outcome_eq
  obtain ⟨log, hyields⟩ :=
    hassembled.yields_of_line line.mem_words line.mem_positions line.line_eq
  have hkeyword := (Line.ofMnemonic?_keyword_iff _ _).mp line.ofMnemonic?_eq
  obtain ⟨address, haddress, -, hword⟩ :=
    hyields.makes.of_spelled line.kind_eq hkeyword line.spelled
  obtain rfl := Option.some.inj (line.address?_eq.symm.trans haddress)
  exact hword

/-- Every instruction line of an assembled program was read and has a word. -/
theorem exists_of_position {position : Position} (hposition : position ∈ assembly.positions)
    (hkind : Line.kind position.raw = .instruction) :
    ∃ line : InstructionLine assembly, line.position = position := by
  obtain ⟨outputs, hassembled⟩ := Run.assembled_of_outcome assembly.outcome_eq
  have hword := (Line.takesWord_iff position.raw).mpr (Or.inr hkind)
  obtain ⟨⟨placed, log⟩, hmem, hyields⟩ := hassembled.exists_output hposition hword
  obtain ⟨instruction, operands, address, hkeyword, hspelled, haddress, -⟩ :=
    hyields.makes.of_instruction hkind
  have hplaced : placed ∈ assembly.program.image.words := by
    rw [hassembled.words]
    exact List.mem_map.mpr ⟨_, hmem, rfl⟩
  exact ⟨⟨position, hposition, hkind, instruction, (Line.ofMnemonic?_keyword_iff _ _).mpr hkeyword,
    operands, _, (OperandReader.read_eq_ok_iff _ _ _ _ _).mpr ⟨hspelled, rfl⟩, address, haddress,
    placed, hplaced, hyields.line⟩, rfl⟩

end InstructionLine

/-- Every instruction line of an assembled program has a word of sixteen bits with the opcode on top and
the fields of its operands below, and two such lines, of one program or of two, have the same word
exactly when they name the same instruction with the same operands and addresses that agree
modulo 32. -/
theorem InstructionLine.word_decodes :
    (∀ (assembly : Assembly), ∀ position ∈ assembly.positions,
      Line.kind position.raw = .instruction →
        ∃ line : InstructionLine assembly, line.position = position) ∧
    (∀ (assembly : Assembly) (line : InstructionLine assembly),
      line.placed.word.toNat ≤ 65535 ∧
      line.placed.word.toNat >>> 10 = line.instruction.opcode.toNat ∧
      Word.cut line.instruction.format.widths (line.placed.word.toNat % 2 ^ 10) =
        line.operands.fieldValues line.address) ∧
    ∀ (assembly other : Assembly) (line : InstructionLine assembly) (twin : InstructionLine other),
      line.placed.word = twin.placed.word ↔
        line.instruction = twin.instruction ∧
          line.operands.Alike line.address twin.address twin.operands := by
  refine ⟨fun _ _ => exists_of_position, ?_, ?_⟩
  · intro assembly line
    have hlt := line.placed.word.isLt
    obtain ⟨hopcode, hfields⟩ := line.operands.word_fields line.instruction.opcode line.address
    rw [← line.word_eq] at hopcode hfields
    rw [line.format_eq] at hfields
    refine ⟨by omega, ?_, hfields⟩
    rw [Nat.shiftRight_eq_div_pow]
    exact hopcode
  · intro assembly other line twin
    have hformat : line.instruction.opcode = twin.instruction.opcode →
        line.operands.format = twin.operands.format := by
      intro hopcode
      rw [line.format_eq, twin.format_eq, Instruction.opcode_injective hopcode]
    rw [line.word_eq, twin.word_eq, Operands.word_eq_iff _ _ _ _ hformat]
    exact and_congr_left fun _ => ⟨Instruction.opcode_injective, congrArg Instruction.opcode⟩

/-- A shift lays its count over the bits that a memory instruction keeps for the index register and the
indirect bit. -/
theorem InstructionLine.word_decodes_of_shift :
    ∃ (assembly : Assembly) (line : InstructionLine assembly),
      line.operands = .shift 3 5 true false ∧ line.placed.word.toNat >>> 10 = 0o31 ∧
        Word.cut [2, 4, 1, 1, 2] (line.placed.word.toNat % 2 ^ 10) = [3, 5, 1, 0, 0] := by
  refine ⟨⟨.default, [], ["src 3,5,left,0".text],
      ⟨⟨[⟨[], 1, "src 3,5,left,0".text, .instruction, 0, none, some "SRC".text,
        "3,5,left,0".text, true, none, none⟩], [⟨0, 0b0110011101011000, 1⟩]⟩, [], []⟩,
      by decide +kernel⟩,
    ⟨⟨[], "src 3,5,left,0".text⟩, by decide +kernel, by decide +kernel, .src,
      by decide +kernel, .shift 3 5 true false, [], by decide +kernel, 0, rfl,
      ⟨0, 0b0110011101011000, 1⟩, by decide +kernel, by decide +kernel⟩, rfl, ?_⟩
  exact (InstructionLine.word_decodes.2.1 _ _).2

end TwoPass
