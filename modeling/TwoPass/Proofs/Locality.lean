import TwoPass.Proofs.Image.Output
import TwoPass.Proofs.Source.Edit
import TwoPass.Proofs.Source.Wording
import TwoPass.Proofs.WarningLog

/-!
# Changing one word line

The operands of a word line decide its own word and nothing else.  If one word line is replaced by
another with the same label, all labels keep their addresses, all words keep their places, and no other
word changes.  Warnings about other lines stay as they are, and so do those of the survey about the line
itself.
-/

namespace TwoPass

/-- The warning arises when a word is encoded, and not already when the source is surveyed. -/
def Warning.arisesInEncoding (warning : Warning) : Bool :=
  match warning.cause with
  | .unknownFlag _ _ | .addressOverflow _ | .addressTruncated _ _ => true
  | .counterOverflow _ | .redefined _ _ _ _ | .stated _ => false

/-- The log without what the encoding of the line had to say. -/
def Log.exceptEncodingOf (line : Int) (log : Log) : Log :=
  log.filter fun warning => !(warning.arisesInEncoding && warning.line == some line)

theorem Value.arisesInEncoding_of_mem_warnings {place : Place} {value : Value} {address : Int}
    {warning : Warning} (hmem : warning ∈ value.warnings place address) :
    warning.arisesInEncoding = true := by
  rcases List.mem_append.mp hmem with hoverflow | htruncated
  · split at hoverflow
    · rw [List.mem_singleton.mp hoverflow]
      rfl
    · simp at hoverflow
  · split at htruncated
    · rw [List.mem_singleton.mp htruncated]
      rfl
    · simp at htruncated

theorem ShiftFlag.arisesInEncoding_of_mem_warnings {place : Option Place} {flag : ShiftFlag}
    {token : Text} {warning : Warning} (hmem : warning ∈ flag.warnings place token) :
    warning.arisesInEncoding = true := by
  unfold warnings at hmem
  split at hmem
  · rw [List.mem_singleton.mp hmem]
    rfl
  · simp at hmem

theorem Operands.arisesInEncoding_of_mem_flagWarnings {place : Option Place}
    {instruction : Instruction} {text : Text} {warning : Warning}
    (hmem : warning ∈ flagWarnings place instruction text) : warning.arisesInEncoding = true := by
  unfold flagWarnings at hmem
  split at hmem
  · rcases List.mem_append.mp hmem with hdirection | hkind
    · exact ShiftFlag.arisesInEncoding_of_mem_warnings hdirection
    · exact ShiftFlag.arisesInEncoding_of_mem_warnings hkind
  · simp at hmem

/-- All that the encoding of a line has to say is about that line. -/
theorem Line.Makes.exceptEncodingOf {strict : Bool} {symbols : List (Text × Int)} {place : Place}
    {raw : Text} {word : Word} {log : Log} (hmakes : Line.Makes strict symbols place raw word log) :
    log.exceptEncodingOf place.line = [] := by
  apply List.filter_eq_nil_iff.mpr
  intro warning hmem
  have hboth : warning.arisesInEncoding = true ∧ warning.place = some place := by
    cases hmakes with
    | data => simp at hmem
    | instruction =>
        rcases List.mem_append.mp hmem with hflag | haddress
        · exact ⟨Operands.arisesInEncoding_of_mem_flagWarnings hflag,
            Operands.place_of_mem_flagWarnings hflag⟩
        · exact ⟨Value.arisesInEncoding_of_mem_warnings haddress,
            Value.place_of_mem_warnings haddress⟩
  simp [hboth, Warning.line]

/-- The edit that replaces one line. -/
def Edit.ofLine (front : List Text) (raw text : Text) (rest : List Text) : Edit :=
  front.map (fun line => ⟨some line, line⟩) ++
    ⟨some raw, text⟩ :: rest.map (fun line => ⟨some line, line⟩)

theorem Edit.originals_ofLine (front : List Text) (raw text : Text) (rest : List Text) :
    (Edit.ofLine front raw text rest).originals = front ++ raw :: rest := by
  simp [ofLine, originals, List.filterMap_map]

theorem Edit.texts_ofLine (front : List Text) (raw text : Text) (rest : List Text) :
    (Edit.ofLine front raw text rest).texts = front ++ text :: rest := by
  simp [ofLine, texts, Function.comp_def]

theorem Edit.tracks_ofLine (front : List Text) (raw text : Text) (rest : List Text) :
    (Edit.ofLine front raw text rest).Tracks id := by
  apply tracks_id
  simp [ofLine, or_imp, forall_and]

theorem Line.LaidOutAs.refl (raw : Text) : LaidOutAs id raw raw where
  label := by simp
  takesWord := rfl
  origin := rfl

section Replaced

variable {raw text : Text} (hword : Line.takesWord raw = true)
  (hwordText : Line.takesWord text = true) (hlabel : Line.label? text = Line.label? raw)

include hword in
theorem Line.origin?_of_takesWord : Line.origin? raw = none := by
  rw [origin?, if_neg]
  intro hkind
  rw [Source.takesWord_of_origin hkind] at hword
  contradiction

include hword hwordText hlabel

theorem Line.LaidOutAs.of_takesWord : LaidOutAs id raw text where
  label := by simp [hlabel]
  takesWord := by rw [hword, hwordText]
  origin := by rw [origin?_of_takesWord hword, origin?_of_takesWord hwordText]

theorem Edit.follows_ofLine (front rest : List Text) :
    ∀ line ∈ Edit.ofLine front raw text rest, line.Follows (Line.LaidOutAs id) := by
  have hkept : ∀ lines : List Text, ∀ line ∈ lines.map (fun line => EditedLine.mk (some line) line),
      line.Follows (Line.LaidOutAs id) := by
    intro lines line hmem
    obtain ⟨same, -, rfl⟩ := List.mem_map.mp hmem
    exact .kept (.refl same)
  intro line hmem
  rcases List.mem_append.mp hmem with hfront | hrest
  · exact hkept front line hfront
  · rcases List.mem_cons.mp hrest with rfl | hbehind
    · exact .kept (.of_takesWord hword hwordText hlabel)
    · exact hkept rest line hbehind

/-- The labels do not move. -/
theorem Source.symbols_of_replaced (file : Text) (front rest : List Text) :
    symbols file (front ++ text :: rest) = symbols file (front ++ raw :: rest) := by
  have hsymbols := Edit.symbols_texts Text.keepsNamesApart_id (Edit.tracks_ofLine _ _ _ _)
    (Edit.follows_ofLine hword hwordText hlabel front rest) file
  simpa [Edit.originals_ofLine, Edit.texts_ofLine] using hsymbols

/-- The survey has the same to say. -/
theorem Source.survey_of_replaced (file : Text) (front rest : List Text) :
    (positions (front ++ text :: rest)).flatMap (Position.surveyWarnings file) =
      (positions (front ++ raw :: rest)).flatMap (Position.surveyWarnings file) := by
  have hfollows := Edit.follows_ofLine hword hwordText hlabel front rest
  rw [← Edit.originals_ofLine front raw text rest, ← Edit.texts_ofLine front raw text rest]
  apply Edit.flatMap_positions hfollows
  · intro position hblank
    exact Position.surveyWarnings_of_blank hblank file
  · intro before line other after hedit
    have hkeeps := Edit.keeps_of_append (Edit.tracks_ofLine _ _ _ _) hfollows hedit
    have hmoved : Warning.moved id id = id := funext Warning.moved_id
    rw [hkeeps.surveyWarnings Text.keepsNamesApart_id, hmoved, List.map_id]

/-- The lines behind the one that is replaced have the same outputs. -/
theorem Source.outputs_behind_replaced (strict : Bool) (file : Text) (symbols : List (Text × Int))
    (front rest : List Text) :
    (positionsFrom (front ++ [text]) rest).filterMap (Position.output? strict file symbols) =
      (positionsFrom (front ++ [raw]) rest).filterMap (Position.output? strict file symbols) := by
  have hlaid := Line.LaidOutAs.of_takesWord hword hwordText hlabel
  rw [List.filterMap_eq_flatMap_toList, List.filterMap_eq_flatMap_toList]
  apply flatMap_positionsFrom_congr
  · rw [counter_append, counter_append, hlaid.origin, hlaid.takesWord]
  · intro more line _ _ hcounter
    simp only [Position.output?, Position.place, Position.number, Position.counter, hcounter,
      List.length_append, List.length_singleton]

end Replaced

/-- The outputs of a source, split at a line that makes a word. -/
theorem Source.outputs_split {strict : Bool} {file : Text} {symbols : List (Text × Int)}
    {front : List Text} {raw : Text} {output : PlacedWord × Log}
    (houtput : Position.output? strict file symbols ⟨front, raw⟩ = some output) (rest : List Text) :
    (positions (front ++ raw :: rest)).filterMap (Position.output? strict file symbols) =
      (positions front).filterMap (Position.output? strict file symbols) ++
        output :: (positionsFrom (front ++ [raw]) rest).filterMap
          (Position.output? strict file symbols) := by
  simp only [positions, positionsFrom_append, List.nil_append, positionsFrom, List.filterMap_append,
    List.filterMap_cons_some houtput]

/-- A word line of an assembled source has an output, at its place. -/
theorem Assembled.output_of_line {options : Options} {file : Text} {front rest : List Text}
    {raw : Text} {program : Program} {outputs : List (PlacedWord × Log)}
    (hassembled : Assembled options file (front ++ raw :: rest) program outputs)
    (hword : Line.takesWord raw = true) :
    ∃ word log, Position.output? options.strictFlags file program.symbols ⟨front, raw⟩ =
        some (⟨Source.counter front, word, front.length + 1⟩, log) ∧
      log.exceptEncodingOf (front.length + 1) = [] := by
  have hposition : Position.mk front raw ∈ Source.positions (front ++ raw :: rest) := by
    simp [Source.positions, Source.positionsFrom_append, Source.positionsFrom]
  obtain ⟨⟨⟨address, word, line⟩, log⟩, -, hyields⟩ := hassembled.exists_output hposition hword
  refine ⟨word, log, ?_, hyields.makes.exceptEncodingOf⟩
  rw [hyields.output?_eq, ← show address = Source.counter front from hyields.address,
    ← show line = front.length + 1 from hyields.line]

/-- Changing one word line is local.  Let one word line be replaced by another with the same label, and
let both sources be assembled, reading flags alike.  The programs have the same symbols; their words
are the same, in the same places, except for the one word that the line made; and their logs are the
same except for what came up when that word was encoded. -/
theorem Run.programs_agree_except_line {options others : Options}
    (hflags : others.strictFlags = options.strictFlags) {file : Text} (front : List Text)
    {raw text : Text} {rest : List Text} (hword : Line.takesWord raw = true)
    (hwordText : Line.takesWord text = true) (hlabel : Line.label? text = Line.label? raw)
    {program edited : Program}
    (hrun : (ofLines options file (front ++ raw :: rest)).outcome = .ok program)
    (hedited : (ofLines others file (front ++ text :: rest)).outcome = .ok edited) :
    edited.symbols = program.symbols ∧
      (∃ before after address word new,
        program.image.words = before ++ ⟨address, word, front.length + 1⟩ :: after ∧
        edited.image.words = before ++ ⟨address, new, front.length + 1⟩ :: after) ∧
      edited.log.exceptEncodingOf (front.length + 1) =
        program.log.exceptEncodingOf (front.length + 1) := by
  obtain ⟨_, hassembled⟩ := assembled_of_outcome hrun
  obtain ⟨_, hassembledEdited⟩ := assembled_of_outcome hedited
  rw [List.map_append, List.map_cons] at hassembled hassembledEdited
  rw [← Line.takesWord_dropLineEnds] at hword hwordText
  rw [← Line.label?_dropLineEnds text, ← Line.label?_dropLineEnds raw] at hlabel
  have hsymbols : edited.symbols = program.symbols := by
    rw [hassembled.symbols, hassembledEdited.symbols]
    exact Source.symbols_of_replaced hword hwordText hlabel file _ _
  obtain ⟨word, log, houtput, hquiet⟩ := hassembled.output_of_line hword
  obtain ⟨new, newLog, hnew, hnewQuiet⟩ := hassembledEdited.output_of_line hwordText
  have houtputs := Source.outputs_split houtput (rest.map Text.dropLineEnds)
  have hnewOutputs := Source.outputs_split hnew (rest.map Text.dropLineEnds)
  rw [Source.outputs_behind_replaced hword hwordText hlabel, hflags, hsymbols] at hnewOutputs
  rw [List.length_map] at houtputs hnewOutputs hquiet hnewQuiet
  refine ⟨hsymbols, ?_, ?_⟩
  · have hwords := hassembled.words_eq
    have hnewWords := hassembledEdited.words_eq
    rw [houtputs, List.map_append, List.map_cons] at hwords
    rw [hflags, hsymbols, hnewOutputs, List.map_append, List.map_cons] at hnewWords
    exact ⟨_, _, _, word, new, hwords, hnewWords⟩
  · rw [hassembled.log_eq_outputs, hassembledEdited.log_eq_outputs, hflags, hsymbols, houtputs,
      hnewOutputs, Source.survey_of_replaced hword hwordText hlabel]
    simp only [Log.exceptEncodingOf] at hquiet hnewQuiet ⊢
    simp only [List.flatMap_append, List.flatMap_cons, List.filter_append, hquiet, hnewQuiet]

/-- A shift with an unknown flag, moved beyond its label's first address, becomes a reference: the
warning about the flag goes, and the one about the label stays. -/
theorem Run.programs_agree_except_second_line :
    Line.takesWord "A: SRC 1,2,X,L".text = true ∧ Line.takesWord "A: LDR 0,0,A".text = true ∧
      ∃ program, (ofLines Options.default [] ["A: HLT".text, "A: SRC 1,2,X,L".text,
          "LDX 1,A".text]).outcome = .ok program ∧
        ∃ edited, (ofLines Options.default [] ["A: HLT".text, "A: LDR 0,0,A".text,
            "LDX 1,A".text]).outcome = .ok edited ∧
          edited.log.length < program.log.length ∧ edited.log ≠ [] ∧
          edited.symbols = program.symbols ∧
          (∃ before after address word new,
            program.image.words = before ++ ⟨address, word, 2⟩ :: after ∧
            edited.image.words = before ++ ⟨address, new, 2⟩ :: after) ∧
          edited.log.exceptEncodingOf 2 = program.log.exceptEncodingOf 2 := by
  refine ⟨by decide +kernel, by decide +kernel, ?_⟩
  refine Run.exists_program (fun program => program.log.length) 2 (by decide +kernel)
    fun program hrun hlength => ?_
  refine Run.exists_program (fun program => program.log.length) 1 (by decide +kernel)
    fun edited hedited heditedLength => ?_
  refine ⟨by omega, fun hnil => by simp [hnil] at heditedLength, ?_⟩
  exact Run.programs_agree_except_line rfl ["A: HLT".text] (by decide +kernel)
    (by decide +kernel) (by decide +kernel) hrun hedited

end TwoPass
