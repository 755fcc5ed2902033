import TwoPass.Proofs.Listing
import TwoPass.Proofs.Machine.Disassembly

/-!
# Assembling a memory image again

Any words at any addresses can be written as a source: an origin line for each word, and behind it a
data line or the instruction that the word holds.  The source is assembled in every mode, without a
warning, to exactly these words.  Written from a load file, it leads to the same load file.
-/

namespace TwoPass

/-- The line that puts a word into the image as a number. -/
def Word.dataStatement (word : Word) : Text :=
  Line.plain "Data".text (Text.ofNat word.toNat)

/-- The line that moves the location counter to an address. -/
def Word.originStatement (address : Word) : Text :=
  Line.plain "LOC".text (Text.ofNat address.toNat)

/-- A word with its address, and the line that is to make the word: a data line, or the instruction that
the word holds. -/
structure Cell where
  address : Word
  word : Word
  statement : Text
  written : statement = word.dataStatement ∨
    ∃ instruction, word.Holds instruction ∧ statement = instruction.statement word

def Cell.source (cells : List Cell) : List Text :=
  cells.flatMap fun cell => [cell.address.originStatement, cell.statement]

section Directive

variable {keyword : Text} (hne : keyword ≠ []) (hkeyword : ∀ c ∈ keyword, Text.isPlain c = true)
  {number : Nat} (hlt : number < 65536)

include hne hkeyword

theorem Line.argument_plain_numeral : argument (plain keyword (Text.ofNat number)) =
    Text.ofNat number :=
  argument_plain hne hkeyword Text.isPlain_of_mem_ofNat

include hlt in
theorem Line.converts_plain_numeral : Converts (plain keyword (Text.ofNat number)) := by
  intro _ _
  rw [argument_plain_numeral hne hkeyword, Text.dropSign_of_isDigits (Text.isDigits_ofNat number)]
  exact Text.length_ofNat_le hlt

end Directive

theorem Word.isPlain_of_mem_data : ∀ c ∈ "Data".text, Text.isPlain c = true :=
  List.all_eq_true.mp (by decide)

theorem Word.isPlain_of_mem_loc : ∀ c ∈ "LOC".text, Text.isPlain c = true :=
  List.all_eq_true.mp (by decide)

namespace Word

variable (word : Word)

theorem kind_originStatement : Line.kind word.originStatement = .origin := by
  rw [originStatement,
    Line.kind_plain (by decide) isPlain_of_mem_loc Text.isPlain_of_mem_ofNat]
  decide

theorem kind_dataStatement : Line.kind word.dataStatement = .data := by
  rw [dataStatement, Line.kind_plain (by decide) isPlain_of_mem_data Text.isPlain_of_mem_ofNat]
  decide

/-- The counter moves to the address. -/
theorem origin_originStatement : Line.origin word.originStatement = word.toNat := by
  rw [Line.origin, originStatement, Line.argument_plain_numeral (by decide) isPlain_of_mem_loc,
    Text.digitsValue_ofNat]

theorem readable_originStatement : Line.Readable word.originStatement := by
  have hlt := word.isLt
  refine ⟨?_, Line.converts_plain_numeral (by decide) isPlain_of_mem_loc hlt⟩
  simp only [Line.Sound, kind_originStatement, origin_originStatement, Word.largest]
  refine ⟨?_, by omega⟩
  rw [originStatement, Line.argument_plain_numeral (by decide) isPlain_of_mem_loc]
  exact Text.isDigits_ofNat _

theorem readable_dataStatement : Line.Readable word.dataStatement := by
  refine ⟨?_, Line.converts_plain_numeral (by decide) isPlain_of_mem_data word.isLt⟩
  simp only [Line.Sound, kind_dataStatement]
  rw [dataStatement, Line.argument_plain_numeral (by decide) isPlain_of_mem_data,
    Text.dropSign_of_isDigits (Text.isDigits_ofNat _)]
  exact Or.inl (Text.isDigits_ofNat _)

/-- A data line makes its number. -/
theorem makes_dataStatement (strict : Bool) (symbols : List (Text × Int)) (place : Place) :
    Line.Makes strict symbols place word.dataStatement word [] := by
  have hvalue : Value.ofToken? (Line.argument word.dataStatement) = some (.literal word.toNat) := by
    rw [dataStatement, Line.argument_plain_numeral (by decide) isPlain_of_mem_data]
    exact (Value.written_numeral word.isLt).1
  have hword : Word.ofInt word.toNat = word := by
    apply BitVec.eq_of_toNat_eq
    have hlt := word.isLt
    rw [toNat_ofInt]
    omega
  have hmakes : Line.Makes strict symbols place word.dataStatement (Word.ofInt word.toNat) [] :=
    .data word.kind_dataStatement hvalue rfl
  rwa [hword] at hmakes

end Word

namespace Cell

variable (cell : Cell)

/-- The statement makes the word of the cell. -/
theorem makes (strict : Bool) (symbols : List (Text × Int)) (place : Place) :
    Line.Makes strict symbols place cell.statement cell.word [] := by
  rcases cell.written with hdata | ⟨instruction, hholds, hinstruction⟩
  · rw [hdata]
    exact cell.word.makes_dataStatement strict symbols place
  · rw [hinstruction]
    exact hholds.makes strict symbols place

theorem takesWord : Line.takesWord cell.statement = true := by
  rw [Line.takesWord_iff]
  rcases cell.written with hdata | ⟨instruction, -, hinstruction⟩
  · rw [hdata]
    exact Or.inl cell.word.kind_dataStatement
  · rw [hinstruction]
    exact Or.inr (instruction.kind_statement cell.word)

theorem readable : Line.Readable cell.statement := by
  rcases cell.written with hdata | ⟨instruction, -, hinstruction⟩
  · rw [hdata]
    exact cell.word.readable_dataStatement
  · have hkind := instruction.kind_statement cell.word
    rw [hinstruction]
    refine ⟨by simp only [Line.Sound, hkind], ?_⟩
    intro hdirective
    simp [hkind] at hdirective

/-- Every line of the source is an operation with its argument. -/
theorem exists_plain {cells : List Cell} {raw : Text} (hmem : raw ∈ source cells) :
    ∃ op arg, raw = Line.plain op arg ∧ (∀ c ∈ op, Text.isPlain c = true) ∧
      ∀ c ∈ arg, Text.isPlain c = true := by
  obtain ⟨cell, -, hraw⟩ := List.mem_flatMap.mp hmem
  simp only [List.mem_cons, List.not_mem_nil, or_false] at hraw
  rcases hraw with rfl | rfl
  · exact ⟨_, _, rfl, Word.isPlain_of_mem_loc, Text.isPlain_of_mem_ofNat⟩
  · rcases cell.written with hdata | ⟨instruction, -, hinstruction⟩
    · exact ⟨_, _, hdata, Word.isPlain_of_mem_data, Text.isPlain_of_mem_ofNat⟩
    · exact ⟨_, _, hinstruction, Instruction.isPlain_of_mem_mnemonic,
        Format.isPlain_of_mem_operandText⟩

theorem readable_source {cells : List Cell} : ∀ raw ∈ source cells, Line.Readable raw := by
  intro raw hmem
  obtain ⟨cell, -, hraw⟩ := List.mem_flatMap.mp hmem
  simp only [List.mem_cons, List.not_mem_nil, or_false] at hraw
  rcases hraw with rfl | rfl
  · exact cell.address.readable_originStatement
  · exact cell.readable

theorem isLine_source {cells : List Cell} : ∀ raw ∈ source cells, Text.IsLine raw := by
  intro raw hmem
  obtain ⟨op, arg, rfl, hop, harg⟩ := exists_plain hmem
  exact Line.isLine_plain hop harg

theorem label?_source {cells : List Cell} : ∀ raw ∈ source cells, Line.label? raw = none := by
  intro raw hmem
  obtain ⟨op, arg, rfl, hop, harg⟩ := exists_plain hmem
  exact Line.label?_plain hop harg

/-- The position is that of the statement of the cell. -/
def At (position : Position) (cell : Cell) : Prop :=
  position.raw = cell.statement ∧ position.counter = cell.address.toNat

/-- Each statement stands at the address that the line before it set. -/
theorem forall₂_wordPositions (cells : List Cell) :
    List.Forall₂ At (Source.wordPositions (source cells)) cells := by
  -- Whatever lines come before, each origin line starts the counter anew.
  suffices hgeneral : ∀ before, List.Forall₂ At
      ((Source.positionsFrom before (source cells)).filter
        (fun position => Line.takesWord position.raw)) cells from hgeneral []
  induction cells with
  | nil => exact fun before => .nil
  | cons cell rest ih =>
      intro before
      have horigin := Source.takesWord_of_origin cell.address.kind_originStatement
      have hcounter : Source.counter (before ++ [cell.address.originStatement]) =
          cell.address.toNat := by
        rw [Source.counter_append_origin cell.address.kind_originStatement,
          Word.origin_originStatement]
      have hsource : source (cell :: rest) =
          cell.address.originStatement :: cell.statement :: source rest := rfl
      rw [hsource, Source.positionsFrom, Source.positionsFrom,
        List.filter_cons_of_neg (by simp [horigin]), List.filter_cons_of_pos (by exact cell.takesWord)]
      exact .cons ⟨rfl, hcounter⟩ (ih _)

/-- Nothing in the survey of the source is doubtful. -/
theorem surveyWarnings_source {cells : List Cell} (file : Text) :
    ∀ position ∈ Source.positions (source cells), position.surveyWarnings file = [] := by
  intro position hposition
  have hraw : position.raw ∈ source cells := by
    rw [← Source.map_raw_positions (source cells)]
    exact List.mem_map_of_mem hposition
  have hlabel : position.redefinitionWarnings file = [] := by
    simp [Position.redefinitionWarnings, Position.definition?, label?_source _ hraw]
  have hcounter : position.overflowWarnings file = [] := by
    unfold Position.overflowWarnings
    split
    · rename_i hoverflow
      rw [Bool.and_eq_true, decide_eq_true_eq] at hoverflow
      obtain ⟨cell, -, -, haddress⟩ := exists_of_mem_left (forall₂_wordPositions cells)
        ((Source.mem_wordPositions_iff _ _).mpr ⟨hposition, hoverflow.1⟩)
      have hlt := cell.address.isLt
      simp only [Word.largest] at hoverflow
      omega
    · rfl
  rw [Position.surveyWarnings, hlabel, hcounter]
  rfl

end Cell

theorem forall₂_of_common {α β γ : Type} {R : α → β → Prop} {S : α → γ → Prop} {T : β → γ → Prop}
    {firsts : List α} {seconds : List β} {thirds : List γ} (hleft : List.Forall₂ R firsts seconds)
    (hright : List.Forall₂ S firsts thirds)
    (hmeet : ∀ first second third, R first second → S first third → T second third) :
    List.Forall₂ T seconds thirds := by
  induction hleft generalizing thirds with
  | nil =>
      cases hright
      exact .nil
  | cons hhead _ ih =>
      cases hright with
      | cons hother hrest => exact .cons (hmeet _ _ _ hhead hother) (ih hrest)

/-- The outputs of an assembled source of cells are the cells. -/
theorem Assembled.forall₂_cells {options : Options} {file : Text} {cells : List Cell}
    {program : Program} {outputs : List (PlacedWord × Log)}
    (hassembled : Assembled options file (Cell.source cells) program outputs) :
    List.Forall₂ (fun output cell => output.1.address = cell.address.toNat ∧
      output.1.word = cell.word ∧ output.2 = []) outputs cells := by
  apply forall₂_of_common hassembled.yields (Cell.forall₂_wordPositions cells)
  intro position output cell hyields hat
  have hmakes := hyields.makes
  rw [hat.1] at hmakes
  exact ⟨hyields.address.trans hat.2, hmakes.unique (cell.makes _ _ _)⟩

theorem Assembled.log_cells {options : Options} {file : Text} {cells : List Cell}
    {program : Program} {outputs : List (PlacedWord × Log)}
    (hassembled : Assembled options file (Cell.source cells) program outputs) :
    program.log = [] := by
  rw [hassembled.log, List.append_eq_nil_iff]
  refine ⟨List.flatMap_eq_nil_iff.mpr (Cell.surveyWarnings_source file), ?_⟩
  apply List.flatMap_eq_nil_iff.mpr
  intro output hmem
  obtain ⟨cell, -, -, -, hquiet⟩ := exists_of_mem_left hassembled.forall₂_cells hmem
  exact hquiet

/-- The source of cells is assembled to the cells in every mode. -/
theorem Cell.exists_program (options : Options) (file : Text) (cells : List Cell) :
    ∃ program, (Run.ofLines options file (source cells)).outcome = .ok program ∧
      program.log = [] ∧
      program.image.words.map (fun placed => (placed.address, placed.word)) =
        cells.map (fun cell => ((cell.address.toNat : Int), cell.word)) := by
  have hsame : (source cells).map Text.dropLineEnds = source cells :=
    Text.map_dropLineEnds_of_isLine isLine_source
  have hprogram : ∃ program,
      (Run.ofLines { options with warningsAsErrors := false } file (source cells)).outcome =
        .ok program := by
    apply Run.exists_program_of_makes rfl
    · rw [hsame]
      exact readable_source
    · rw [hsame]
      intro position hposition
      obtain ⟨cell, -, hraw, -⟩ := exists_of_mem_left (forall₂_wordPositions cells) hposition
      rw [hraw]
      exact ⟨cell.word, [], cell.makes _ _ _⟩
  obtain ⟨program, hrun⟩ := hprogram
  obtain ⟨outputs, hassembled⟩ := Run.assembled_of_outcome hrun
  rw [hsame] at hassembled
  have hlog := hassembled.log_cells
  refine ⟨program, ?_, hlog, ?_⟩
  · -- Without warnings there is nothing to count as an error.
    rw [Run.ofLines_eq_judge, hrun]
    simp [Except.bind, Run.judge, hlog]
  · rw [hassembled.words, List.map_map]
    apply map_eq_map_of_forall₂
    refine hassembled.forall₂_cells.imp ?_
    rintro output cell ⟨haddress, hword, -⟩
    simp [haddress, hword]

/-- Load files that are read alike are the same. -/
theorem Image.load_eq_of_read? {image other : Image}
    (hread : (Text.lines image.load).map PlacedWord.read? =
      (Text.lines other.load).map PlacedWord.read?) : image.load = other.load := by
  have hlines : image.loadLines = other.loadLines := by
    rw [lines_load, lines_load, loadLines, loadLines, List.map_map, List.map_map,
      ← List.forall₂_eq_eq_eq, List.forall₂_map_left_iff, List.forall₂_map_right_iff] at hread
    apply map_eq_map_of_forall₂
    refine hread.imp ?_
    intro placed partner hsame
    simp only [Function.comp_apply, PlacedWord.read?_text, Option.some.injEq,
      Prod.mk.injEq] at hsame
    have haddress : Word.ofInt placed.address = Word.ofInt partner.address := by
      apply BitVec.eq_of_toNat_eq
      rw [Word.toNat_ofInt, Word.toNat_ofInt]
      exact hsame.1
    have hword : placed.word = partner.word := BitVec.eq_of_toNat_eq hsame.2
    rw [PlacedWord.text, PlacedWord.text, octalOfInt, octalOfInt, haddress, hword]
  rw [load, load, hlines]

/-- The cells are the words of the load file, with their addresses. -/
def Cell.ReadFrom (load : Text) (cells : List Cell) : Prop :=
  (Text.lines load).map PlacedWord.read? =
    cells.map (fun cell => some (cell.address.toNat, cell.word.toNat))

/-- Every load file can be read as cells, if only with data lines. -/
theorem Image.exists_readFrom (image : Image) : ∃ cells, Cell.ReadFrom image.load cells := by
  refine ⟨image.words.map fun placed =>
    ⟨Word.ofInt placed.address, placed.word, _, Or.inl rfl⟩, ?_⟩
  rw [Cell.ReadFrom, lines_load, loadLines, List.map_map, List.map_map]
  refine List.map_congr_left fun placed _ => ?_
  simp only [Function.comp_apply, PlacedWord.read?_text, Word.toNat_ofInt]

/-- The load file of an image is read as the words of the image. -/
theorem Cell.readFrom_of_words {image : Image} {cells : List Cell}
    (hwords : image.words.map (fun placed => (placed.address, placed.word)) =
      cells.map (fun cell => ((cell.address.toNat : Int), cell.word))) :
    ReadFrom image.load cells := by
  have hpairs := congrArg
    (List.map fun pair : Int × Word => some ((pair.1 % 65536).toNat, pair.2.toNat)) hwords
  rw [List.map_map, List.map_map] at hpairs
  rw [ReadFrom, Image.lines_load, Image.loadLines, List.map_map]
  calc image.words.map (PlacedWord.read? ∘ PlacedWord.text)
      = image.words.map ((fun pair => some ((pair.1 % 65536).toNat, pair.2.toNat)) ∘
          fun placed => (placed.address, placed.word)) :=
        List.map_congr_left fun placed _ => placed.read?_text
    _ = cells.map ((fun pair => some ((pair.1 % 65536).toNat, pair.2.toNat)) ∘
          fun cell => ((cell.address.toNat : Int), cell.word)) := hpairs
    _ = cells.map (fun cell => some (cell.address.toNat, cell.word.toNat)) := by
        refine List.map_congr_left fun cell _ => ?_
        have hlt := cell.address.isLt
        have hmod : ((cell.address.toNat : Int) % 65536).toNat = cell.address.toNat := by omega
        simp only [Function.comp_apply, hmod]

/-- Every list of words with their addresses is the outcome of a source: two lines for each word, and
the second one a data line or the instruction that the word holds, as one likes.  Given as lines or as
one text, the source is assembled in every mode, without a warning, to these words in order.  When the
words are read from the load file of a program, the source leads to the same load file. -/
theorem Run.reassembly (options : Options) (file : Text) :
    (∀ cells,
      (∃ program, (Run.ofLines options file (Cell.source cells)).outcome = .ok program ∧
        program.log = [] ∧
        program.image.words.map (fun placed => (placed.address, placed.word)) =
          cells.map (fun cell => ((cell.address.toNat : Int), cell.word))) ∧
      Run.ofText options file (Text.unlines (Cell.source cells)) =
        Run.ofLines options file (Cell.source cells)) ∧
      ∀ original : Program, (∃ cells, Cell.ReadFrom original.image.load cells) ∧
        ∀ cells, Cell.ReadFrom original.image.load cells →
          ∃ program, (Run.ofLines options file (Cell.source cells)).outcome = .ok program ∧
            program.image.load = original.image.load := by
  refine ⟨?_, ?_⟩
  · intro cells
    refine ⟨Cell.exists_program options file cells, ?_⟩
    rw [Run.ofText, Text.lines_unlines Cell.isLine_source]
  · intro original
    refine ⟨original.image.exists_readFrom, ?_⟩
    intro cells hread
    obtain ⟨program, hrun, -, hwords⟩ := Cell.exists_program options file cells
    exact ⟨program, hrun,
      Image.load_eq_of_read? ((Cell.readFrom_of_words hwords).trans hread.symm)⟩

/-- Two words at the last address, one as a shift and one as data, in the strictest mode.  Written as a
text and read back from the load file, they are the same words. -/
theorem Run.reassembly_of_two_words :
    ∃ program, (Run.ofText ⟨false, true, true⟩ "a.asm".text
        "LOC 65535\nSRC 3,15,1,0\nLOC 65535\nData 65535\n".text).outcome = .ok program ∧
      program.log = [] ∧
      program.image.words.map (fun placed => (placed.address, placed.word)) =
        [(65535, 0o063770), (65535, 0o177777)] ∧
      ∃ again, (Run.ofLines Options.default "b.asm".text
          ["LOC 65535".text, "SRC 3,15,1,0".text, "LOC 65535".text,
            "Data 65535".text]).outcome = .ok again ∧
        again.image.load = program.image.load := by
  let cells : List Cell :=
    [⟨0o177777, 0o063770, "SRC 3,15,1,0".text, Or.inr ⟨.src, by decide, by decide +kernel⟩⟩,
      ⟨0o177777, 0o177777, "Data 65535".text, Or.inl (by decide +kernel)⟩]
  have hsource : Cell.source cells = ["LOC 65535".text, "SRC 3,15,1,0".text,
      "LOC 65535".text, "Data 65535".text] := by decide +kernel
  have htext : Text.unlines (Cell.source cells) =
      "LOC 65535\nSRC 3,15,1,0\nLOC 65535\nData 65535\n".text := by decide +kernel
  obtain ⟨⟨program, hrun, hlog, hwords⟩, hsame⟩ :=
    (Run.reassembly ⟨false, true, true⟩ "a.asm".text).1 cells
  obtain ⟨again, hagain, hload⟩ := ((Run.reassembly Options.default "b.asm".text).2 program).2
    cells (Cell.readFrom_of_words hwords)
  rw [← hsame, htext] at hrun
  rw [hsource] at hagain
  exact ⟨program, hrun, hlog, hwords, again, hagain, hload⟩

end TwoPass
