import TwoPass.Proofs.Image.Output
import TwoPass.Proofs.Source.Counterpart
import TwoPass.Proofs.Source.Segment

/-!
# The order of segments

Segments that define no label in common may stand in any order.  Each has the same words at the same
addresses wherever it stands, and every label has the same address; references forward and backward make
no difference, since a word is encoded with the labels of the whole source.
-/

namespace TwoPass

namespace Line

variable (strict : Bool) {symbols others : List (Text × Int)}
  (hlookup : ∀ label, others.lookup label = symbols.lookup label) (file : Text) (line number : Int)
  (raw : Text)

include hlookup

/-- Which word a line makes, and with how many warnings, depends on the addresses of labels alone. -/
theorem output?_alike :
    (output? strict others ⟨file, number⟩ raw).map (Prod.map id (List.map fun _ => ())) =
      (output? strict symbols ⟨file, line⟩ raw).map (Prod.map id (List.map fun _ => ())) :=
  (Counterpart.of_body (fun _ => ()) rfl rfl).output? (fun label _ => hlookup label) strict
    (fun _ => number) ⟨file, line⟩

theorem isSome_output?_alike :
    (output? strict others ⟨file, number⟩ raw).isSome =
      (output? strict symbols ⟨file, line⟩ raw).isSome := by
  have halike := congrArg Option.isSome (output?_alike strict hlookup file line number raw)
  rwa [Option.isSome_map, Option.isSome_map] at halike

end Line

namespace Segment

variable {segments others : List Segment}

theorem apart_of_perm (hperm : segments.Perm others) (hapart : Apart segments) : Apart others := by
  refine (hperm.pairwise_iff ?_).mp hapart
  intro first second hdisjoint label hsecond hfirst
  exact hdisjoint label hfirst hsecond

/-- Labels have the same addresses in any order of the segments. -/
theorem lookup_symbols_of_perm (hperm : segments.Perm others) (hapart : Apart segments) (file : Text)
    (label : Text) :
    (Source.symbols file (source others)).lookup label =
      (Source.symbols file (source segments)).lookup label := by
  by_cases hlabel : ∃ segment ∈ segments, label ∈ segment.labels
  · obtain ⟨segment, hsegment, hmem⟩ := hlabel
    rw [lookup_symbols_source hapart hsegment hmem,
      lookup_symbols_source (apart_of_perm hperm hapart) (hperm.mem_iff.mp hsegment) hmem]
  · simp only [not_exists, not_and] at hlabel
    rw [Source.lookup_symbols_of_absent (label?_ne_of_source hlabel),
      Source.lookup_symbols_of_absent (label?_ne_of_source fun segment hsegment =>
        hlabel segment (hperm.mem_iff.mpr hsegment))]

theorem mem_source_of_perm (hperm : segments.Perm others) {raw : Text} :
    raw ∈ source others ↔ raw ∈ source segments :=
  (hperm.flatMap_right lines).symm.mem_iff

theorem lines_stripped (segment : Segment) :
    segment.stripped.lines = segment.lines.map Text.dropLineEnds := rfl

theorem source_stripped (segments : List Segment) :
    source (segments.map stripped) = (source segments).map Text.dropLineEnds := by
  simp only [source, List.flatMap_map, List.map_flatMap]
  rfl

theorem apart_stripped (hapart : Apart segments) : Apart (segments.map stripped) := by
  have hlabels : ∀ segment : Segment, segment.stripped.labels = segment.labels := by
    intro segment
    simp [labels, lines, stripped, List.filterMap_cons, List.filterMap_map]
  rw [Apart, List.pairwise_map]
  simp only [hlabels]
  exact hapart

/-- What a segment has to say in the survey, apart from places. -/
def surveyMarks (file : Text) (segment : Segment) : List Unit :=
  (Source.positions segment.lines).flatMap
    fun position => (position.surveyWarnings file).map fun _ => ()

/-- The words of a segment with their addresses, and the warnings that come up when they are encoded,
apart from places. -/
def outputs (strict : Bool) (file : Text) (symbols : List (Text × Int)) (segment : Segment) :
    List ((Int × Word) × List Unit) :=
  (Source.positions segment.lines).filterMap fun position =>
    (position.output? strict file symbols).map fun output =>
      ((output.1.address, output.1.word), output.2.map fun _ => ())

/-- The survey finds as much in each segment as in the segment alone. -/
theorem surveyMarks_source (hapart : Apart segments) (file : Text) :
    (Source.positions (source segments)).flatMap
        (fun position => (position.surveyWarnings file).map fun _ => ()) =
      segments.flatMap (surveyMarks file) := by
  apply flatMap_positions_source
  rintro front segment back rfl
  apply segment.flatMap_positionsFrom
  intro more raw after hsplit hbound
  refine Position.surveyWarnings_alike () file ?_ hbound ?_
  · rfl
  · intro label hlabel
    exact lookup_symbols_before hapart hsplit hlabel file

/-- The outputs of a source are those of its segments. -/
theorem outputs_source (strict : Bool) (file : Text) {symbols others : List (Text × Int)}
    (hlookup : ∀ label, others.lookup label = symbols.lookup label) (segments : List Segment) :
    ((Source.positions (source segments)).filterMap (Position.output? strict file others)).map
        (fun output => ((output.1.address, output.1.word), output.2.map fun _ => ())) =
      segments.flatMap (outputs strict file symbols) := by
  rw [List.map_filterMap, List.filterMap_eq_flatMap_toList]
  apply flatMap_positions_source
  intro front segment back _
  rw [outputs, List.filterMap_eq_flatMap_toList]
  apply segment.flatMap_positionsFrom
  intro more raw after _ hbound
  apply congrArg Option.toList
  cases hword : Line.takesWord raw with
  | false => simp only [Position.output?, Line.output?_of_not_takesWord hword, Option.map_none]
  | true =>
      have hcounter : Position.counter ⟨source front ++ more, raw⟩ = Position.counter ⟨more, raw⟩ :=
        Position.counter_eq_of_bound rfl hbound hword
      have hline := congrArg
        (Option.map fun made => ((Position.counter ⟨more, raw⟩, made.1), made.2))
        (Line.output?_alike strict hlookup file (Position.number ⟨more, raw⟩)
          (Position.number ⟨source front ++ more, raw⟩) raw)
      simp only [Position.output?, Position.place, hcounter, Option.map_map] at hline ⊢
      exact hline

section Assembled

variable {options : Options} {file : Text} {program : Program} {made : List (PlacedWord × Log)}
  {symbols : List (Text × Int)}

/-- In an assembled source exactly the word lines have outputs. -/
theorem isSome_output?_of_assembled {source : List Text}
    (hassembled : Assembled options file source program made) {raw : Text} (hmem : raw ∈ source)
    (number : Int) :
    (Line.output? options.strictFlags program.symbols ⟨file, number⟩ raw).isSome =
      Line.takesWord raw := by
  cases hword : Line.takesWord raw with
  | false => rw [Line.output?_of_not_takesWord hword, Option.isSome_none]
  | true =>
      rw [← Source.map_raw_positions source] at hmem
      obtain ⟨position, hposition, rfl⟩ := List.mem_map.mp hmem
      obtain ⟨output, -, hyields⟩ := hassembled.exists_output hposition hword
      have hsome := congrArg Option.isSome hyields.output?_eq
      rw [Position.output?, Option.isSome_map, Option.isSome_some] at hsome
      rw [← hsome]
      exact Line.isSome_output?_alike options.strictFlags (fun _ => rfl) file _ _ _

/-- A segment of an assembled source has as many outputs as word lines. -/
theorem length_outputs (hassembled : Assembled options file (source segments) program made)
    {segment : Segment} (hsegment : segment ∈ segments) :
    (outputs options.strictFlags file program.symbols segment).length =
      segment.lines.countP Line.takesWord := by
  have hraw := Source.map_raw_positions segment.lines
  rw [outputs, List.length_filterMap_eq_countP]
  nth_rewrite 2 [← hraw]
  rw [List.countP_map]
  apply List.countP_congr
  intro position hposition
  have hmem : position.raw ∈ source segments := by
    apply List.mem_flatMap.mpr
    refine ⟨segment, hsegment, ?_⟩
    rw [← hraw]
    exact List.mem_map_of_mem hposition
  have hsome := isSome_output?_of_assembled hassembled hmem position.number
  simp only [Position.output?, Position.place, Option.isSome_map, hsome, Function.comp]

variable (hassembled : Assembled options file (source segments) program made)
  (hlookup : ∀ label, program.symbols.lookup label = symbols.lookup label)

include hassembled hlookup

theorem words_of_assembled :
    program.image.words.map (fun placed => (placed.address, placed.word)) =
      segments.flatMap
        fun segment => (outputs options.strictFlags file symbols segment).map Prod.fst := by
  have houtputs := congrArg (List.map Prod.fst)
    (outputs_source options.strictFlags file hlookup segments)
  rw [List.map_map, List.map_flatMap] at houtputs
  rw [hassembled.words_eq, List.map_map, ← houtputs]
  rfl

/-- The warnings are those of the segments, apart from places. -/
theorem log_of_assembled (hapart : Apart segments) :
    program.log.map (fun _ => ()) = segments.flatMap (surveyMarks file) ++
      (segments.flatMap (outputs options.strictFlags file symbols)).flatMap Prod.snd := by
  rw [hassembled.log_eq_outputs, List.map_append, List.map_flatMap, surveyMarks_source hapart,
    ← outputs_source options.strictFlags file hlookup, List.flatMap_map, List.map_flatMap]

end Assembled

/-- Whether a source is assembled does not depend on the order of its segments. -/
theorem exists_program_of_perm (hperm : segments.Perm others) (hapart : Apart segments)
    {options : Options} (hlenient : options.warningsAsErrors = false) {file : Text}
    (hok : ∃ program, (Run.ofLines options file (source segments)).outcome = .ok program) :
    ∃ program, (Run.ofLines options file (source others)).outcome = .ok program := by
  obtain ⟨program, hrun⟩ := hok
  obtain ⟨_, hassembled⟩ := Run.assembled_of_outcome hrun
  rw [← source_stripped] at hassembled
  have hstripped := hperm.map stripped
  have hlookup : ∀ label, (Source.symbols file (source (others.map stripped))).lookup label =
      program.symbols.lookup label := by
    rw [hassembled.symbols]
    exact lookup_symbols_of_perm hstripped (apart_stripped hapart) file
  rw [Run.exists_program_iff hlenient, ← source_stripped]
  constructor
  · intro raw hmem
    exact hassembled.readable raw ((mem_source_of_perm hstripped).mp hmem)
  · intro position hposition hword
    have hmem : position.raw ∈ source (segments.map stripped) := by
      rw [← mem_source_of_perm hstripped, ← Source.map_raw_positions (source (others.map stripped))]
      exact List.mem_map_of_mem hposition
    rw [Position.output?, Option.isSome_map, ← hword,
      ← isSome_output?_of_assembled hassembled hmem position.number]
    exact Line.isSome_output?_alike options.strictFlags hlookup file _ _ _

end Segment

/-- The order of segments does not matter.  If no label is defined in two segments, a source can be
assembled in any order of its segments or in none; each segment has the same words at the same addresses
in every order, every label has the same address, and there are as many warnings. -/
theorem Run.segments_in_any_order {segments others : List Segment} (hperm : segments.Perm others)
    (hapart : Segment.Apart segments) {options : Options}
    (hlenient : options.warningsAsErrors = false) (file : Text) :
    ((∃ program, (ofLines options file (Segment.source segments)).outcome = .ok program) ↔
      ∃ program, (ofLines options file (Segment.source others)).outcome = .ok program) ∧
    ∀ program other, (ofLines options file (Segment.source segments)).outcome = .ok program →
      (ofLines options file (Segment.source others)).outcome = .ok other →
        (∃ wordsOf : Segment → List (Int × Word),
          (∀ segment ∈ segments,
            (wordsOf segment).length = segment.lines.countP Line.takesWord) ∧
          program.image.words.map (fun placed => (placed.address, placed.word)) =
            segments.flatMap wordsOf ∧
          other.image.words.map (fun placed => (placed.address, placed.word)) =
            others.flatMap wordsOf) ∧
        (∀ label, other.symbols.lookup label = program.symbols.lookup label) ∧
        other.log.length = program.log.length := by
  refine ⟨⟨Segment.exists_program_of_perm hperm hapart hlenient,
    Segment.exists_program_of_perm hperm.symm (Segment.apart_of_perm hperm hapart) hlenient⟩, ?_⟩
  intro program other hrun hother
  obtain ⟨_, hassembled⟩ := assembled_of_outcome hrun
  obtain ⟨_, hassembledOther⟩ := assembled_of_outcome hother
  rw [← Segment.source_stripped] at hassembled hassembledOther
  have hstripped := hperm.map Segment.stripped
  have hapartStripped := Segment.apart_stripped hapart
  have hlookup : ∀ label, other.symbols.lookup label = program.symbols.lookup label := by
    rw [hassembled.symbols, hassembledOther.symbols]
    exact Segment.lookup_symbols_of_perm hstripped hapartStripped file
  refine ⟨?_, hlookup, ?_⟩
  · refine ⟨fun segment => (Segment.outputs options.strictFlags file program.symbols
      segment.stripped).map Prod.fst, ?_, ?_, ?_⟩
    · intro segment hsegment
      rw [List.length_map, Segment.length_outputs hassembled (List.mem_map_of_mem hsegment),
        Segment.lines_stripped, List.countP_map]
      exact List.countP_congr fun raw _ => by rw [Function.comp, Line.takesWord_dropLineEnds]
    · rw [Segment.words_of_assembled hassembled fun _ => rfl, List.flatMap_map]
    · rw [Segment.words_of_assembled hassembledOther hlookup, List.flatMap_map]
  · have hlog := Segment.log_of_assembled hassembled (fun _ => rfl) hapartStripped
    have hlogOther := Segment.log_of_assembled hassembledOther hlookup
      (Segment.apart_of_perm hstripped hapartStripped)
    have hmarks := (hstripped.flatMap_right (Segment.surveyMarks file)).append
      ((hstripped.flatMap_right (Segment.outputs options.strictFlags file
        program.symbols)).flatMap_right Prod.snd)
    rw [← hlog, ← hlogOther] at hmarks
    simpa using hmarks.length_eq.symm

/-- A segment that refers to the other one and moves its own label. -/
def Segment.table : Segment where
  first := "LOC 40".text
  rest := ["A: Data B".text, "A: HLT".text]
  begins := by decide +kernel

def Segment.entry : Segment where
  first := "LOC 6".text
  rest := ["B: LDR 1,0,A".text]
  begins := by decide +kernel

/-- Of the two references between the segments, one points forward and one backward in either order. -/
theorem Run.two_segments_in_any_order :
    [Segment.table, Segment.entry].Perm [Segment.entry, Segment.table] ∧
      Segment.Apart [Segment.table, Segment.entry] ∧
      ∃ program, (ofLines Options.default [] (Segment.source [Segment.table, Segment.entry])).outcome =
          .ok program ∧ program.log.length = 2 ∧
        ∃ other, (ofLines Options.default [] (Segment.source
            [Segment.entry, Segment.table])).outcome = .ok other ∧
          (∃ wordsOf : Segment → List (Int × Word),
            (∀ segment ∈ [Segment.table, Segment.entry],
              (wordsOf segment).length = segment.lines.countP Line.takesWord) ∧
            program.image.words.map (fun placed => (placed.address, placed.word)) =
              wordsOf Segment.table ++ wordsOf Segment.entry ∧
            other.image.words.map (fun placed => (placed.address, placed.word)) =
              wordsOf Segment.entry ++ wordsOf Segment.table) ∧
          (∀ label, other.symbols.lookup label = program.symbols.lookup label) ∧
          other.log.length = program.log.length := by
  have hperm : [Segment.table, Segment.entry].Perm [Segment.entry, Segment.table] := .swap _ _ []
  have hapart : Segment.Apart [Segment.table, Segment.entry] := by decide +kernel
  have hlenient : Options.default.warningsAsErrors = false := rfl
  have horder := Run.segments_in_any_order hperm hapart hlenient []
  refine ⟨hperm, hapart, ?_⟩
  refine Run.exists_program (fun program => program.log.length) 2 (by decide +kernel)
    fun program hrun hlength => ⟨hlength, ?_⟩
  obtain ⟨other, hother⟩ := horder.1.mp ⟨program, hrun⟩
  refine ⟨other, hother, ?_⟩
  simpa using horder.2 program other hrun hother

end TwoPass
