import TwoPass.Assembly
import TwoPass.Proofs.Image.Encoding
import TwoPass.Proofs.Source.Survey

/-!
# What a run does with its source

A run that ends with a program has read every line, bound every label to the address of its last
definition, and made one word from each word line in order.  The facts about whole programs all start
from here, so that none of them has to follow the two readings of the source again.
-/

namespace TwoPass

namespace Source

/-- The table that the whole source leads to. -/
def table (file : Text) (source : List Text) : SymbolTable :=
  ⟨SymbolTable.build (definitions file source), true⟩

/-- The symbols of a source: its labels with the addresses of their last definitions. -/
def symbols (file : Text) (source : List Text) : List (Text × Int) :=
  (table file source).bindings

theorem map_fst_symbols (file : Text) (source : List Text) :
    (symbols file source).map Prod.fst = (source.filterMap Line.label?).eraseDups := by
  rw [← map_name_definitions file source, ← SymbolTable.map_name_build, symbols,
    SymbolTable.bindings, List.map_map]
  rfl

/-- A label is bound at the last line that defines it. -/
theorem mem_symbols_iff (file : Text) (source : List Text) (label : Text) (address : Int) :
    (label, address) ∈ symbols file source ↔
      ∃ before raw after, source = before ++ raw :: after ∧ Line.Defines raw label ∧
        (∀ later ∈ after, ¬ Line.Defines later label) ∧
        address = Position.bound ⟨before, raw⟩ := by
  rw [symbols, table, SymbolTable.mem_bindings_build_iff]
  simp only [last?_definitions_eq_some_iff, ne_eq, Line.label?_eq_some_iff]
  constructor
  · rintro ⟨last, ⟨before, raw, after, hsource, hdefines, hlater, rfl⟩, rfl⟩
    exact ⟨before, raw, after, hsource, hdefines, hlater, rfl⟩
  · rintro ⟨before, raw, after, hsource, hdefines, hlater, rfl⟩
    exact ⟨_, ⟨before, raw, after, hsource, hdefines, hlater, rfl⟩, rfl⟩

theorem lookup_symbols (file : Text) (source : List Text) (label : Text) :
    (symbols file source).lookup label =
      (Definition.last? label (definitions file source)).map Definition.address := by
  rw [symbols, SymbolTable.lookup_bindings, table, SymbolTable.address?_build]

/-- Exactly the labels that no line defines have no address. -/
theorem lookup_symbols_eq_none_iff (file : Text) (source : List Text) (label : Text) :
    (symbols file source).lookup label = none ↔ ∀ raw ∈ source, ¬ Line.Defines raw label := by
  have hdefined := Definition.last?_isSome_iff label (definitions file source)
  rw [map_name_definitions, List.mem_filterMap] at hdefined
  simp only [Line.label?_eq_some_iff] at hdefined
  rw [lookup_symbols, Option.map_eq_none_iff, ← Option.not_isSome_iff_eq_none, hdefined]
  simp only [not_exists, not_and]

theorem lookup_symbols_nonneg {file : Text} {source : List Text} {label : Text} {address : Int}
    (hlookup : (symbols file source).lookup label = some address) : 0 ≤ address := by
  rw [lookup_symbols] at hlookup
  obtain ⟨last, hlast, rfl⟩ := Option.map_eq_some_iff.mp hlookup
  obtain ⟨before, raw, after, -, -, -, rfl⟩ := (last?_definitions_eq_some_iff _ _ _ _).mp hlast
  exact Position.bound_nonneg ⟨before, raw⟩

def wordPositions (source : List Text) : List Position :=
  (positions source).filter (fun position => Line.takesWord position.raw)

theorem mem_wordPositions_iff (position : Position) (source : List Text) :
    position ∈ wordPositions source ↔
      position ∈ positions source ∧ Line.takesWord position.raw = true := by
  simp [wordPositions]

theorem filter_occupiesWord_map_record (file : Text) (source : List Text) :
    ((positions source).map (Position.record file)).filter Record.occupiesWord =
      (wordPositions source).map (Position.record file) := by
  rw [List.filter_map]
  rfl

end Source

/-- The word and the warnings belong to the line at the position. -/
structure Position.Yields (options : Options) (file : Text) (symbols : List (Text × Int))
    (position : Position) (output : PlacedWord × Log) : Prop where
  address : output.1.address = position.counter
  line : output.1.line = position.number
  makes : Line.Makes options.strictFlags symbols (position.place file) position.raw output.1.word
    output.2

/-- A program and the source it was assembled from.  The outputs are the words with the warnings that
came up when they were encoded. -/
structure Assembled (options : Options) (file : Text) (source : List Text) (program : Program)
    (outputs : List (PlacedWord × Log)) : Prop where
  readable : ∀ raw ∈ source, Line.Readable raw
  symbols : program.symbols = Source.symbols file source
  yields : List.Forall₂ (Position.Yields options file program.symbols)
    (Source.wordPositions source) outputs
  words : program.image.words = outputs.map Prod.fst
  log : program.log =
    (Source.positions source).flatMap (Position.surveyWarnings file) ++ outputs.flatMap Prod.snd

theorem exists_of_mem_left {α β : Type} {R : α → β → Prop} {firsts : List α} {seconds : List β}
    (hrelated : List.Forall₂ R firsts seconds) {first : α} (hmem : first ∈ firsts) :
    ∃ second ∈ seconds, R first second := by
  induction hrelated with
  | nil => simp at hmem
  | cons hhead _ ih =>
      rcases List.mem_cons.mp hmem with rfl | hrest
      · exact ⟨_, List.mem_cons_self, hhead⟩
      · obtain ⟨second, hsecond, hrel⟩ := ih hrest
        exact ⟨second, List.mem_cons_of_mem _ hsecond, hrel⟩

theorem map_eq_map_of_forall₂ {α β γ : Type} {f : α → γ} {g : β → γ} {firsts : List α}
    {seconds : List β} (hequal : List.Forall₂ (fun first second => f first = g second) firsts seconds) :
    firsts.map f = seconds.map g := by
  rwa [← List.forall₂_eq_eq_eq, List.forall₂_map_left_iff, List.forall₂_map_right_iff]

namespace Assembled

variable {options : Options} {file : Text} {source : List Text} {program : Program}
  {outputs : List (PlacedWord × Log)}

/-- Every word line has its word in the program. -/
theorem exists_output (hassembled : Assembled options file source program outputs)
    {position : Position} (hposition : position ∈ Source.positions source)
    (hword : Line.takesWord position.raw = true) :
    ∃ output ∈ outputs, position.Yields options file program.symbols output :=
  exists_of_mem_left hassembled.yields ((Source.mem_wordPositions_iff _ _).mpr ⟨hposition, hword⟩)

/-- Every word of the program comes from a word line. -/
theorem exists_position (hassembled : Assembled options file source program outputs)
    {placed : PlacedWord} (hplaced : placed ∈ program.image.words) :
    ∃ position ∈ Source.wordPositions source, ∃ log,
      position.Yields options file program.symbols (placed, log) := by
  rw [hassembled.words] at hplaced
  obtain ⟨⟨other, log⟩, hmem, rfl⟩ := List.mem_map.mp hplaced
  obtain ⟨position, hposition, hyields⟩ := exists_of_mem_left hassembled.yields.flip hmem
  exact ⟨position, hposition, log, hyields⟩

/-- The word with a line's number is the one that the line made. -/
theorem yields_of_line (hassembled : Assembled options file source program outputs)
    {placed : PlacedWord} (hplaced : placed ∈ program.image.words) {position : Position}
    (hposition : position ∈ Source.positions source) (hline : placed.line = position.number) :
    ∃ log, position.Yields options file program.symbols (placed, log) := by
  obtain ⟨other, hother, log, hyields⟩ := hassembled.exists_position hplaced
  have hnumber : other.number = position.number := hyields.line.symm.trans hline
  obtain rfl := Source.position_eq_of_number_eq ((Source.mem_wordPositions_iff _ _).mp hother).1
    hposition hnumber
  exact ⟨log, hyields⟩

end Assembled

namespace Run

/-- A run whose program has some view of it computed does end with a program. -/
theorem exists_program {run : Run} {α : Type} {P : Program → Prop} (view : Program → α) (seen : α)
    (hseen : run.outcome.toOption.map view = some seen)
    (hprogram : ∀ program, run.outcome = .ok program → view program = seen → P program) :
    ∃ program, run.outcome = .ok program ∧ P program := by
  cases houtcome : run.outcome with
  | error abort => simp [houtcome, Except.toOption] at hseen
  | ok program =>
      refine ⟨program, rfl, hprogram program houtcome ?_⟩
      simpa [houtcome, Except.toOption] using hseen

/-- A run over lines that can be read encodes their records. -/
theorem ofLines_of_readable {lines : List Text}
    (hreadable : ∀ raw ∈ lines.map Text.dropLineEnds, Line.Readable raw) (options : Options)
    (file : Text) :
    ofLines options file lines =
      encode options (Source.survey file (lines.map Text.dropLineEnds))
        ((Source.positions (lines.map Text.dropLineEnds)).map (Position.record file)) := by
  rw [ofLines, Source.readSource_of_readable file hreadable]

theorem readable_of_outcome {options : Options} {file : Text} {lines : List Text}
    {program : Program} (hrun : (ofLines options file lines).outcome = .ok program) :
    ∀ raw ∈ lines.map Text.dropLineEnds, Line.Readable raw := by
  rw [ofLines] at hrun
  cases hread : Survey.readSource file lines with
  | mk survey result =>
      cases result with
      | error abort => simp [hread] at hrun
      | ok records => exact Source.readable_of_readSource hread

def encoding (options : Options) (file : Text) (source : List Text) : Encoding :=
  Encoding.ofRecords (Source.table file source) options.strictFlags
    ((Source.positions source).map (Position.record file))

theorem outcome_encode (options : Options) (file : Text) (source : List Text) :
    (encode options (Source.survey file source)
        ((Source.positions source).map (Position.record file))).outcome =
      match (encoding options file source).stop with
      | some abort => .error abort
      | none =>
          judge options
            ⟨⟨(Source.positions source).map (Position.record file),
                (encoding options file source).words⟩,
              Source.symbols file source,
              (Source.survey file source).log ++ (encoding options file source).log⟩ := by
  change (match (encoding options file source).stop with
    | some abort => _
    | none => _ : Run).outcome = _
  cases (encoding options file source).stop <;> rfl

theorem judge_eq_ok {options : Options} {program result : Program}
    (hjudge : judge options program = .ok result) : result = program := by
  unfold judge at hjudge
  split at hjudge
  · contradiction
  · exact (Except.ok.inj hjudge).symm

/-- A source that can be read, and whose word lines all make a word, is assembled. -/
theorem exists_program_of_makes {options : Options} {file : Text} {lines : List Text}
    (hlenient : options.warningsAsErrors = false)
    (hreadable : ∀ raw ∈ lines.map Text.dropLineEnds, Line.Readable raw)
    (hmakes : ∀ position ∈ Source.wordPositions (lines.map Text.dropLineEnds), ∃ word log,
      Line.Makes options.strictFlags (Source.symbols file (lines.map Text.dropLineEnds))
        (position.place file) position.raw word log) :
    ∃ program, (ofLines options file lines).outcome = .ok program := by
  have hstop : (encoding options file (lines.map Text.dropLineEnds)).stop = none := by
    rw [encoding, ← List.append_nil (List.map (Position.record file) _),
      Encoding.stop_append_of_ok]
    · rfl
    · intro record hrecord hoccupies
      obtain ⟨position, hposition, rfl⟩ := List.mem_map.mp hrecord
      obtain ⟨word, log, hline⟩ :=
        hmakes position ((Source.mem_wordPositions_iff _ _).mpr ⟨hposition, hoccupies⟩)
      exact ⟨(word, log), (Encoding.encode_eq_ok_iff _ _ _ _ hoccupies _ _).mpr hline⟩
  rw [ofLines_of_readable hreadable, outcome_encode, hstop]
  simp [judge, hlenient]

/-- Only the judgement at the end depends on whether warnings count as errors. -/
theorem ofLines_eq_judge (options : Options) (file : Text) (lines : List Text) :
    ofLines options file lines =
      { ofLines { options with warningsAsErrors := false } file lines with
        outcome := (ofLines { options with warningsAsErrors := false } file lines).outcome.bind
          (judge options) } := by
  unfold ofLines
  rcases Survey.readSource file lines with ⟨survey, abort | records⟩
  · rfl
  · simp only [encode]
    cases (Encoding.ofRecords survey.table.close options.strictFlags records).stop <;> rfl

/-- A run that ends with a program has the image and the log of the program. -/
theorem image_and_log_of_outcome {options : Options} {file : Text} {lines : List Text}
    {program : Program} (hrun : (ofLines options file lines).outcome = .ok program) :
    (ofLines options file lines).image = program.image ∧
      (ofLines options file lines).log = program.log := by
  unfold ofLines at hrun ⊢
  rcases hread : Survey.readSource file lines with ⟨survey, abort | records⟩
  · simp [hread] at hrun
  · simp only [hread, encode] at hrun ⊢
    cases hstop : (Encoding.ofRecords survey.table.close options.strictFlags records).stop with
    | some abort => simp [hstop] at hrun
    | none =>
        simp only [hstop] at hrun ⊢
        rw [judge_eq_ok hrun]
        exact ⟨rfl, rfl⟩

/-- A run that ends with a program assembled its source. -/
theorem assembled_of_outcome {options : Options} {file : Text} {lines : List Text}
    {program : Program} (hrun : (ofLines options file lines).outcome = .ok program) :
    ∃ outputs, Assembled options file (lines.map Text.dropLineEnds) program outputs := by
  have hreadable := readable_of_outcome hrun
  rw [ofLines_of_readable hreadable, outcome_encode] at hrun
  cases hstop : (encoding options file (lines.map Text.dropLineEnds)).stop with
  | some abort => simp [hstop] at hrun
  | none =>
      rw [hstop] at hrun
      obtain ⟨outputs, houtputs, hwords, hlog⟩ := Encoding.outputs_of_stop_eq_none hstop
      rw [Source.filter_occupiesWord_map_record, List.forall₂_map_left_iff] at houtputs
      obtain rfl := judge_eq_ok hrun
      refine ⟨outputs, hreadable, rfl, ?_, hwords, ?_⟩
      · have htakes : ∀ position ∈ Source.wordPositions (lines.map Text.dropLineEnds),
            Line.takesWord position.raw = true :=
          fun position hmem => ((Source.mem_wordPositions_iff _ _).mp hmem).2
        refine ((List.forall₂_and_left _ _).mpr ⟨htakes, houtputs⟩).imp ?_
        rintro position output ⟨hword, hencode, haddress, hline⟩
        exact ⟨haddress.trans (Position.bound_of_takesWord hword), hline,
          (Encoding.encode_eq_ok_iff _ _ _ _ hword _ _).mp hencode⟩
      · rw [← hlog]
        rfl

end Run

end TwoPass
