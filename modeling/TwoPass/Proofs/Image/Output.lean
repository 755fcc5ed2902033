import TwoPass.Proofs.Assembly

/-!
# The output of a line

Which word a line makes, and with which warnings, is a function of its text, of its place and of the
addresses of the labels.  The words of an assembled program are the outputs of its lines in order, and
so are the warnings that came up when they were encoded.  A source is assembled exactly when every line
can be read and every word line has an output.
-/

namespace TwoPass

namespace Operands

def ofText? (strict : Bool) (instruction : Instruction) (text : Text) : Option Operands :=
  (OperandReader.read ⟨[], none, none, strict⟩ instruction text).toOption.map Prod.fst

theorem ofText?_eq_some_iff (strict : Bool) (instruction : Instruction) (text : Text)
    (operands : Operands) :
    ofText? strict instruction text = some operands ↔
      operands.Spelled strict instruction text := by
  constructor
  · intro hsome
    obtain ⟨⟨found, log⟩, hread, rfl⟩ := Option.map_eq_some_iff.mp hsome
    cases hresult : OperandReader.read ⟨[], none, none, strict⟩ instruction text with
    | error abort => simp [hresult, Except.toOption] at hread
    | ok result =>
        obtain rfl : result = (found, log) := by simpa [hresult, Except.toOption] using hread
        exact ((OperandReader.read_eq_ok_iff _ _ _ _ _).mp hresult).1
  · intro hspelled
    have hread := (OperandReader.read_eq_ok_iff ⟨[], none, none, strict⟩ instruction text operands
      _).mpr ⟨hspelled, rfl⟩
    rw [ofText?, hread]
    rfl

theorem ofText?_eq_none_iff (strict : Bool) (instruction : Instruction) (text : Text) :
    ofText? strict instruction text = none ↔
      ∀ operands : Operands, ¬ operands.Spelled strict instruction text := by
  simp only [Option.eq_none_iff_forall_ne_some, ne_eq, ofText?_eq_some_iff]

end Operands

namespace Line

/-- The word and the warnings of a line, if it has a word. -/
def output? (strict : Bool) (symbols : List (Text × Int)) (place : Place) (raw : Text) :
    Option (Word × Log) :=
  match kind raw with
  | .data => do
      let value ← Value.ofToken? (argument raw)
      let address ← value.address? symbols
      return (Word.ofInt address, [])
  | .instruction => do
      let instruction ← Instruction.ofMnemonic? (keyword raw)
      let operands ← Operands.ofText? strict instruction (argument raw)
      let address ← operands.value.address? symbols
      if 0 ≤ address then
        some (operands.word instruction.opcode address,
          Operands.flagWarnings (some place) instruction (argument raw) ++
            operands.value.warnings place address)
      else none
  | _ => none

/-- The output of a line is what the line makes. -/
theorem output?_eq_some_iff (strict : Bool) (symbols : List (Text × Int)) (place : Place)
    (raw : Text) (word : Word) (log : Log) :
    output? strict symbols place raw = some (word, log) ↔
      Makes strict symbols place raw word log := by
  constructor
  · intro houtput
    unfold output? at houtput
    split at houtput
    · rename_i hkind
      simp only [bind, Option.bind_eq_some_iff, pure, Option.some.injEq, Prod.mk.injEq] at houtput
      obtain ⟨value, hvalue, address, haddress, rfl, rfl⟩ := houtput
      exact .data hkind hvalue haddress
    · rename_i hkind
      simp only [bind, Option.bind_eq_some_iff, Operands.ofText?_eq_some_iff,
        ofMnemonic?_keyword_iff, Option.ite_none_right_eq_some, Option.some.injEq, Prod.mk.injEq]
        at houtput
      obtain ⟨instruction, hkeyword, operands, hspelled, address, haddress, hnonneg, rfl, rfl⟩ :=
        houtput
      exact .instruction hkind hkeyword hspelled haddress hnonneg
    · contradiction
  · intro hmakes
    cases hmakes with
    | data hkind hvalue haddress =>
        simp only [output?, hkind, hvalue, haddress, bind, Option.bind_some, pure]
    | instruction hkind hkeyword hspelled haddress hnonneg =>
        simp only [output?, hkind, (ofMnemonic?_keyword_iff _ _).mpr hkeyword,
          (Operands.ofText?_eq_some_iff _ _ _ _).mpr hspelled, haddress, hnonneg, bind,
          Option.bind_some, ↓reduceIte]

theorem output?_of_not_takesWord {raw : Text} (hword : takesWord raw = false) (strict : Bool)
    (symbols : List (Text × Int)) (place : Place) : output? strict symbols place raw = none := by
  unfold output?
  split
  · rename_i hkind
    simp [takesWord, hkind] at hword
  · rename_i hkind
    simp [takesWord, hkind] at hword
  · rfl

end Line

/-- The placed word and the warnings of the line at a position, if it has a word. -/
def Position.output? (strict : Bool) (file : Text) (symbols : List (Text × Int))
    (position : Position) : Option (PlacedWord × Log) :=
  (Line.output? strict symbols (position.place file) position.raw).map
    (fun made => (⟨position.counter, made.1, position.number⟩, made.2))

theorem Position.Yields.output?_eq {options : Options} {file : Text} {symbols : List (Text × Int)}
    {position : Position} {output : PlacedWord × Log}
    (hyields : position.Yields options file symbols output) :
    position.output? options.strictFlags file symbols = some output := by
  rw [Position.output?, (Line.output?_eq_some_iff _ _ _ _ _ _).mpr hyields.makes, Option.map_some,
    ← hyields.address, ← hyields.line]

theorem filterMap_eq_of_forall₂ {α β : Type} {f : α → Option β} {firsts : List α}
    {seconds : List β}
    (hsome : List.Forall₂ (fun first second => f first = some second) firsts seconds) :
    firsts.filterMap f = seconds := by
  induction hsome with
  | nil => rfl
  | cons hhead _ ih => rw [List.filterMap_cons_some hhead, ih]

theorem Source.filterMap_wordPositions (strict : Bool) (file : Text) (symbols : List (Text × Int))
    (source : List Text) :
    (wordPositions source).filterMap (Position.output? strict file symbols) =
      (positions source).filterMap (Position.output? strict file symbols) := by
  unfold wordPositions
  induction positions source with
  | nil => rfl
  | cons position rest ih =>
      cases hword : Line.takesWord position.raw with
      | true => simp only [List.filter_cons, hword, ↓reduceIte, List.filterMap_cons, ih]
      | false =>
          have hnone : position.output? strict file symbols = none := by
            rw [Position.output?, Line.output?_of_not_takesWord hword]
            rfl
          rw [List.filter_cons_of_neg (by simp [hword]), List.filterMap_cons_none hnone, ih]

namespace Assembled

variable {options : Options} {file : Text} {source : List Text} {program : Program}
  {outputs : List (PlacedWord × Log)}

/-- The outputs of a program are those of its lines. -/
theorem outputs_eq (hassembled : Assembled options file source program outputs) :
    outputs = (Source.positions source).filterMap
      (Position.output? options.strictFlags file program.symbols) := by
  rw [← Source.filterMap_wordPositions]
  exact (filterMap_eq_of_forall₂ (hassembled.yields.imp fun _ _ => Position.Yields.output?_eq)).symm

theorem words_eq (hassembled : Assembled options file source program outputs) :
    program.image.words = ((Source.positions source).filterMap
      (Position.output? options.strictFlags file program.symbols)).map Prod.fst := by
  rw [hassembled.words, hassembled.outputs_eq]

theorem log_eq_outputs (hassembled : Assembled options file source program outputs) :
    program.log = (Source.positions source).flatMap (Position.surveyWarnings file) ++
      ((Source.positions source).filterMap
        (Position.output? options.strictFlags file program.symbols)).flatMap Prod.snd := by
  rw [hassembled.log, hassembled.outputs_eq]

end Assembled

/-- A source is assembled exactly when every line can be read and every word line has an output. -/
theorem Run.exists_program_iff {options : Options} (hlenient : options.warningsAsErrors = false)
    (file : Text) (lines : List Text) :
    (∃ program, (Run.ofLines options file lines).outcome = .ok program) ↔
      (∀ raw ∈ lines.map Text.dropLineEnds, Line.Readable raw) ∧
        ∀ position ∈ Source.positions (lines.map Text.dropLineEnds),
          Line.takesWord position.raw = true →
            (position.output? options.strictFlags file
              (Source.symbols file (lines.map Text.dropLineEnds))).isSome = true := by
  constructor
  · rintro ⟨program, hrun⟩
    obtain ⟨outputs, hassembled⟩ := Run.assembled_of_outcome hrun
    refine ⟨hassembled.readable, ?_⟩
    intro position hposition hword
    obtain ⟨output, -, hyields⟩ := hassembled.exists_output hposition hword
    rw [← hassembled.symbols, hyields.output?_eq]
    rfl
  · rintro ⟨hreadable, houtput⟩
    apply Run.exists_program_of_makes hlenient hreadable
    intro position hposition
    obtain ⟨hmem, hword⟩ := (Source.mem_wordPositions_iff _ _).mp hposition
    obtain ⟨output, hsome⟩ := Option.isSome_iff_exists.mp (houtput position hmem hword)
    obtain ⟨⟨word, log⟩, hmade, -⟩ := Option.map_eq_some_iff.mp hsome
    exact ⟨word, log, (Line.output?_eq_some_iff _ _ _ _ _ _).mp hmade⟩

end TwoPass
