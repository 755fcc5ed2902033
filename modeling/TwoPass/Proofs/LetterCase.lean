import TwoPass.Proofs.Correspondence
import TwoPass.Proofs.Operand.LetterCase

/-!
# Operations and flags in either case

Operations and flags may be written in capitals or in small letters, or in a mixture.  The run ends as
before, with the same words and symbols.  Labels are another matter, and where a field can be a flag or
a label its own capitals decide.
-/

namespace TwoPass

namespace Line

/-- The field of the argument at a position, counted from zero, is read as a flag.  Only instructions
have flags. -/
def isFlagField (raw : Text) (position : Nat) : Bool :=
  match Instruction.ofMnemonic? (keyword raw) with
  | some instruction => instruction.isFlagField (Text.fields (argument raw)) position
  | none => false

/-- The second line has letters of another case, but not in its label nor in a field of its argument
that is no flag. -/
structure Recased (raw text : Text) : Prop where
  letters : Text.Recased raw text
  label : label? text = label? raw
  fields : ∀ position < ((argument raw).splitOn (.char ',')).length, isFlagField raw position = false →
    ((argument text).splitOn (.char ','))[position]? = ((argument raw).splitOn (.char ','))[position]?

instance (raw text : Text) : Decidable (Recased raw text) :=
  decidable_of_iff
    (Text.Recased raw text ∧ label? text = label? raw ∧
      ∀ position < ((argument raw).splitOn (.char ',')).length, isFlagField raw position = false →
        ((argument text).splitOn (.char ','))[position]? = ((argument raw).splitOn (.char ','))[position]?)
    ⟨fun ⟨letters, label, fields⟩ => ⟨letters, label, fields⟩,
      fun ⟨letters, label, fields⟩ => ⟨letters, label, fields⟩⟩

namespace Recased

variable {raw text : Text} (hcase : Recased raw text)

include hcase

theorem code : Text.Recased (Line.code raw) (Line.code text) := by
  rw [code_eq_takeWhile, code_eq_takeWhile]
  apply hcase.letters.takeWhile
  intro c d hletter
  rw [Bool.eq_iff_iff, bne_iff_ne, bne_iff_ne, Ne, hletter.eq_mark_iff (by decide)]

theorem body : Text.Recased (Line.body raw) (Line.body text) :=
  hcase.code.splitLabel.trim

theorem keyword_eq : keyword text = keyword raw :=
  hcase.body.firstWord.upper_eq

theorem kind_eq : kind text = kind raw := by
  have hempty : (Line.body text).isEmpty = (Line.body raw).isEmpty := by
    rw [Bool.eq_iff_iff, List.isEmpty_iff, List.isEmpty_iff, hcase.body.eq_nil_iff]
  simp only [kind, hempty, hcase.label, hcase.keyword_eq]

theorem pieces :
    List.Forall₂ Text.Recased ((argument raw).splitOn (.char ','))
      ((argument text).splitOn (.char ',')) :=
  hcase.body.afterFirstWord.splitOn

/-- A field that is no flag is the same, wherever it stands. -/
theorem piece_eq {position : Nat} (hfield : isFlagField raw position = false) :
    ((argument text).splitOn (.char ','))[position]? = ((argument raw).splitOn (.char ','))[position]? := by
  by_cases hlt : position < ((argument raw).splitOn (.char ',')).length
  · exact hcase.fields position hlt hfield
  · have hlength := hcase.pieces.length_eq
    rw [List.getElem?_eq_none (by omega), List.getElem?_eq_none (by omega)]

/-- What does not name an instruction has no flags behind it. -/
theorem argument_eq (hmnemonic : Instruction.ofMnemonic? (keyword raw) = none) :
    argument text = argument raw := by
  have hpieces : (argument text).splitOn (.char ',') = (argument raw).splitOn (.char ',') := by
    apply List.ext_getElem?
    intro position
    apply hcase.piece_eq
    simp only [isFlagField, hmnemonic]
  calc argument text = [CodePoint.char ','].intercalate ((argument text).splitOn (.char ',')) :=
        (List.intercalate_splitOn (CodePoint.char ',')).symm
    _ = [CodePoint.char ','].intercalate ((argument raw).splitOn (.char ',')) := by rw [hpieces]
    _ = argument raw := List.intercalate_splitOn (CodePoint.char ',')

theorem flagsRecased {instruction : Instruction}
    (hmnemonic : Instruction.ofMnemonic? (keyword raw) = some instruction) :
    instruction.FlagsRecased (Text.fields (argument raw)) (Text.fields (argument text)) where
  recased := by
    rw [Text.fields, Text.fields, List.forall₂_map_left_iff, List.forall₂_map_right_iff]
    exact hcase.pieces.imp fun _ _ => Text.Recased.trim
  kept position hfield := by
    have hline : isFlagField raw position = false := by
      simp only [isFlagField, hmnemonic]
      exact hfield
    rw [Text.fields, List.getElem?_map, hcase.piece_eq hline, Text.fields, List.getElem?_map]

/-- A line in letters of another case says what the line says. -/
theorem counterpart : Counterpart Warning.inCapitals id raw text := by
  have horigin : kind raw = .origin → argument text = argument raw := by
    intro hkind
    apply hcase.argument_eq
    rw [keyword_of_origin hkind]
    decide +kernel
  have hdata : kind raw = .data → argument text = argument raw := by
    intro hkind
    apply hcase.argument_eq
    rw [keyword_of_data hkind]
    decide +kernel
  refine ⟨hcase.kind_eq, ?_, horigin, ?_, ?_, fun _ => hcase.keyword_eq, ?_⟩
  · rw [hcase.label, Option.map_id, id]
  · intro hkind
    have hid : Value.renamed id = id := funext Value.renamed_id
    rw [hid, Option.map_id, hdata hkind, id]
  · intro hkind
    rw [hdata hkind]
  · intro _ instruction hkeyword
    exact Operands.counterpart_of_flagsRecased
      (hcase.flagsRecased ((ofMnemonic?_keyword_iff raw instruction).mpr hkeyword))

end Recased

end Line

/-- Two programs that only differ in the case in which warnings spell unknown flags. -/
structure Program.SameButCase (program other : Program) : Prop where
  words : other.image.words = program.image.words
  load : other.image.load = program.image.load
  symbols : other.symbols = program.symbols
  warnings : other.log.map Warning.inCapitals = program.log.map Warning.inCapitals
  warningLines : other.log.map Warning.line = program.log.map Warning.line

theorem Program.Counterpart.sameButCase {program other : Program}
    (hcounterpart : program.Counterpart Warning.inCapitals id id other) :
    program.SameButCase other := by
  have hwords : other.image.words = program.image.words := by simpa using hcounterpart.words
  have hmoved : Warning.moved id id = id := funext Warning.moved_id
  have hlog : other.log.map Warning.inCapitals = program.log.map Warning.inCapitals := by
    rw [hcounterpart.log, hmoved, Function.comp_id]
  have hlines : ∀ log : Log, log.map Warning.line =
      (log.map Warning.inCapitals).map Warning.line := by
    intro log
    rw [List.map_map]
    rfl
  refine ⟨hwords, ?_, by simpa using hcounterpart.symbols, hlog, ?_⟩
  · rw [Image.load, Image.loadLines, hwords, Image.load, Image.loadLines]
  · rw [hlines, hlog, ← hlines]

/-- The case of operations and flags has no effect.  A source in which their letters have another case
is assembled if the source is, and only then.  The words, the load text, the symbols and the lines of the
warnings stay.  Otherwise both runs stop with an error of the same family at the same line. -/
theorem Run.corresponds_of_recased {lines others : List Text}
    (hlines : List.Forall₂ Line.Recased lines others) (options : Options) (file : Text) :
    (ofLines options file lines).Corresponds id Program.SameButCase
      (ofLines options file others) := by
  have hcounterparts := hlines.imp fun _ _ => Line.Recased.counterpart
  have hcorresponds :=
    Run.corresponds_of_forall₂ Text.keepsNamesApart_id hcounterparts options file
  exact hcorresponds.mono fun program other => Program.Counterpart.sameButCase

/-- A source with operations and flags in small letters, in capitals and in mixtures.  One flag is
unknown, and one small letter is a label. -/
def Source.mixedCase : List Text :=
  ["i: loc 6".text, "LDX 1,2,i ; i".text, "lDr 1,0,i,I".text, "x:dAtA i".text,
    "SRC 3,1,l,Maybe".text, "ldr 1,2,i".text]

/-- The same source in another case. -/
def Source.mixedCaseChanged : List Text :=
  ["i: LOC 6".text, "ldx 1,2,I ; I".text, "LDR 1,0,i,i".text, "x:DATA i".text,
    "src 3,1,L,mAYBE".text, "LDR 1,2,i".text]

/-- The third field is a flag behind `LDX` and changes its case, and is a label behind `LDR`. -/
theorem Run.corresponds_of_mixedCase :
    List.Forall₂ Line.Recased Source.mixedCase Source.mixedCaseChanged ∧
      (ofLines Options.default [] Source.mixedCaseChanged).outcome.map
          (fun program => (program.symbols, program.log.map Warning.line)) =
        .ok ([("i".text, 6), ("x".text, 8)], [some 5]) ∧
      (ofLines Options.default [] Source.mixedCase).Corresponds id Program.SameButCase
        (ofLines Options.default [] Source.mixedCaseChanged) := by
  have hlines : List.Forall₂ Line.Recased Source.mixedCase Source.mixedCaseChanged := by
    decide +kernel
  exact ⟨hlines, by decide +kernel, Run.corresponds_of_recased hlines Options.default []⟩

end TwoPass
