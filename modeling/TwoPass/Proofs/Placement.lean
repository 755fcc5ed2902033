import TwoPass.Proofs.Assembly
import TwoPass.Proofs.Machine.Layout

/-!
# Where words and labels end up

In an assembled program every word line has one word, at the counter of its line.  Every label stands for
the address that its last definition gives it, also where it is used before that definition: in a data
word modulo 65536, and in the address field of an instruction modulo 32.
-/

namespace TwoPass

namespace Assembled

variable {options : Options} {file : Text} {source : List Text} {program : Program}
  {outputs : List (PlacedWord × Log)}

/-- Every word line has one word, in order and at the counter of the line. -/
theorem map_words (hassembled : Assembled options file source program outputs) :
    program.image.words.map (fun placed => (placed.line, placed.address)) =
      (Source.wordPositions source).map (fun position => (position.number, position.counter)) := by
  rw [hassembled.words, List.map_map]
  apply map_eq_map_of_forall₂
  exact hassembled.yields.flip.imp fun output position hyields =>
    Prod.ext hyields.line hyields.address

end Assembled

namespace Line.Makes

variable {strict : Bool} {symbols : List (Text × Int)} {place : Place} {raw : Text} {word : Word}
  {log : Log}

/-- A data word is the value of its line modulo 65536. -/
theorem data_word (hmakes : Makes strict symbols place raw word log) (hkind : kind raw = .data) :
    ∃ (value : Value) (address : Int), Value.ofToken? (argument raw) = some value ∧
      value.address? symbols = some address ∧ (word.toNat : Int) = address % 65536 := by
  obtain ⟨value, address, hvalue, haddress, rfl, -⟩ := hmakes.of_data hkind
  refine ⟨value, address, hvalue, haddress, ?_⟩
  simp only [Word.ofInt, BitVec.toNat_ofInt]
  omega

/-- The address field of a memory instruction is the address of its label modulo 32. -/
theorem label_field (hmakes : Makes strict symbols place raw word log)
    (hkind : kind raw = .instruction) {instruction : Instruction} {register index : Fin 4}
    {indirect : Bool} {label : Text} (hkeyword : keyword raw = instruction.mnemonic)
    (hspelled : (Operands.memory register index indirect (.label label)).Spelled strict instruction
      (argument raw)) :
    ∃ address, symbols.lookup label = some address ∧ (word.toNat : Int) % 32 = address % 32 := by
  obtain ⟨address, haddress, -, rfl⟩ := hmakes.of_spelled hkind hkeyword hspelled
  exact ⟨address, haddress, Operands.toNat_word_memory_mod _ _ _ _ _ _⟩

end Line.Makes

/-- In an assembled program

* every word line has one word, in order, with the number of the line and at the counter of the line;
* the symbols are the labels that lines define, in the order of their first definitions;
* each symbol has the address that the last line to define it gives it;
* every data word is the literal or the address of the label modulo 65536, and every label in an
  address field is encoded from its address in the symbols. -/
theorem Run.words_and_symbols_of_outcome {options : Options} {file : Text} {lines : List Text}
    {program : Program} (hrun : (Run.ofLines options file lines).outcome = .ok program) :
    program.image.words.map (fun placed => (placed.line, placed.address)) =
        ((Source.positions (lines.map Text.dropLineEnds)).filter
          (fun position => Line.takesWord position.raw)).map
            (fun position => (position.number, Source.counter position.before)) ∧
      program.symbols.map Prod.fst =
        ((lines.map Text.dropLineEnds).filterMap Line.label?).eraseDups ∧
      (∀ label address, (label, address) ∈ program.symbols ↔
        ∃ before raw after, lines.map Text.dropLineEnds = before ++ raw :: after ∧
          Line.Defines raw label ∧ (∀ later ∈ after, ¬ Line.Defines later label) ∧
          address =
            if Line.kind raw = .origin then Line.origin raw else Source.counter before) ∧
      ∀ placed ∈ program.image.words, ∀ position ∈ Source.positions (lines.map Text.dropLineEnds),
        placed.line = position.number →
          (Line.kind position.raw = .data →
            ∃ (value : Value) (address : Int),
              Value.ofToken? (Line.argument position.raw) = some value ∧
              value.address? program.symbols = some address ∧
              (placed.word.toNat : Int) = address % 65536) ∧
          (Line.kind position.raw = .instruction →
            ∀ (instruction : Instruction) (register index : Fin 4) (indirect : Bool) (label : Text),
              Line.keyword position.raw = instruction.mnemonic →
              (Operands.memory register index indirect (.label label)).Spelled options.strictFlags
                instruction (Line.argument position.raw) →
              ∃ address, program.symbols.lookup label = some address ∧
                (placed.word.toNat : Int) % 32 = address % 32) := by
  obtain ⟨outputs, hassembled⟩ := Run.assembled_of_outcome hrun
  refine ⟨hassembled.map_words, ?_, ?_, ?_⟩
  · rw [hassembled.symbols]
    exact Source.map_fst_symbols file _
  · rw [hassembled.symbols]
    exact Source.mem_symbols_iff file _
  · intro placed hplaced position hposition hline
    obtain ⟨log, hyields⟩ := hassembled.yields_of_line hplaced hposition hline
    refine ⟨hyields.makes.data_word, ?_⟩
    intro hkind instruction register index indirect label hkeyword hspelled
    exact hyields.makes.label_field hkind hkeyword hspelled

/-- A label used before its first definition, and moved by its last. -/
theorem Run.words_and_symbols_of_moved_label :
    ∃ program, (Run.ofLines Options.default "a.asm".text
        ["LOC 6".text, "LDR 1,0,y".text, "x: Data y".text, "y: HLT".text,
          "LOC 40".text, "y: Data -1".text]).outcome = .ok program ∧
      program.image.words.map (fun placed => (placed.line, placed.address)) =
        [(2, 6), (3, 7), (4, 8), (6, 40)] ∧
      program.symbols.map Prod.fst = ["x".text, "y".text] := by
  refine Run.exists_program Program.symbols [("x".text, 7), ("y".text, 40)] (by decide +kernel)
    fun program hrun _ => ?_
  obtain ⟨hwords, hlabels, -⟩ := Run.words_and_symbols_of_outcome hrun
  exact ⟨hwords.trans (by decide +kernel), hlabels.trans (by decide +kernel)⟩

end TwoPass
