import TwoPass.Proofs.Source.Surveyor
import TwoPass.Proofs.Source.Wording

/-!
# Indentation

White space in front of a line has no effect on what is read, apart from the text that records and errors
keep of the line.  There is one exception.  A label is found behind ASCII white space only, while all
white space is trimmed from everything else.  So a line that defines a label is read as an instruction if
other white space stands in front of it: the label becomes the start of the operation and is not
defined.  This is never the same outcome.
-/

namespace TwoPass

def Record.withText (text : Text) (record : Record) : Record :=
  { record with raw := text }

/-- The abort with another text, if it shows one. -/
def Abort.withText (text : Text) : Abort → Abort
  | .error report => .error { report with sourceLine := report.sourceLine.map fun _ => text }
  | abort => abort

def Record.outcomeWithText (text : Text) : Except Abort Record → Except Abort Record
  | .ok record => .ok (record.withText text)
  | .error abort => .error (abort.withText text)

namespace Record

variable (text : Text) (record : Record)

theorem refuse_withText (cause : Error.Cause) :
    (record.withText text).refuse cause = outcomeWithText text (record.refuse cause) := rfl

theorem readOrigin_withText (operation : Text) :
    (record.withText text).readOrigin operation =
      outcomeWithText text (record.readOrigin operation) := by
  have hoperands : (record.withText text).operands = record.operands := rfl
  simp only [readOrigin, hoperands, refuse_withText]
  split
  · rfl
  · split
    · rfl
    · cases Text.readDecimal record.operands with
      | error fault => rfl
      | ok address =>
          dsimp only
          split
          · rfl
          · rfl

theorem readData_withText (operation : Text) :
    (record.withText text).readData operation =
      outcomeWithText text (record.readData operation) := by
  have hoperands : (record.withText text).operands = record.operands := rfl
  simp only [readData, hoperands, refuse_withText]
  split
  · rfl
  · cases Value.read? record.operands with
    | error fault => rfl
    | ok value =>
        cases value with
        | none => rfl
        | some value => rfl

end Record

namespace Survey

/-- What a survey and a line lead to, with another text for the line. -/
def withText (text : Text) (result : Survey × Except Abort Record) : Survey × Except Abort Record :=
  (result.1, Record.outcomeWithText text result.2)

/-- A survey does not look at the text of a record. -/
theorem enter_withText (survey : Survey) (text : Text) (record : Record) :
    survey.enter (record.withText text) = withText text (survey.enter record) := by
  have hlabel : (record.withText text).label = record.label := rfl
  simp only [enter, hlabel]
  cases record.label with
  | none => rfl
  | some label =>
      cases hclosed : survey.table.closed with
      | true =>
          simp only [SymbolTable.define, hclosed, ↓reduceIte]
          rfl
      | false =>
          simp only [SymbolTable.define, hclosed, Bool.false_eq_true, ↓reduceIte]
          rfl

end Survey

namespace Line

/-- Two texts with the same label, the same statement and the same comment. -/
structure SaysSame (raw text : Text) : Prop where
  label : label? text = label? raw
  body : body text = body raw
  comment : (Record.splitComment text).2 = (Record.splitComment raw).2

theorem SaysSame.kind {raw text : Text} (hsame : SaysSame raw text) : kind text = kind raw := by
  rw [Line.kind, Line.kind, keyword, keyword, operation, operation, hsame.label, hsame.body]

/-- A record only differs in the text. -/
theorem SaysSame.record {raw text : Text} (hsame : SaysSame raw text) (file : Text)
    (number counter : Int) :
    record file text number counter = (record file raw number counter).withText text := by
  simp only [Line.record, Record.withText, hsame.kind, hsame.label, hsame.comment, origin, argument,
    recordedOperation?, takesWord, keyword, operation, hsame.body]

theorem SaysSame.draft {raw text : Text} (hsame : SaysSame raw text) (file : Text)
    (number counter : Int) :
    draft file text number counter = (draft file raw number counter).withText text := by
  simp only [Line.draft, Record.withText, Record.blank, hsame.label, hsame.comment, argument,
    hsame.body]

/-- Lines that say the same are read alike. -/
theorem SaysSame.read {raw text : Text} (hsame : SaysSame raw text) (file : Text)
    (number counter : Int) :
    Record.read file text number counter =
      Record.outcomeWithText text (Record.read file raw number counter) := by
  have hoperation : operation text = operation raw := by rw [operation, hsame.body, operation]
  rw [read_eq, read_eq, hsame.kind]
  cases Line.kind raw with
  | origin => rw [hsame.draft, hoperation, Record.readOrigin_withText]
  | data => rw [hsame.draft, hoperation, Record.readData_withText]
  | blank | labelOnly | instruction => exact congrArg Except.ok (hsame.record file number counter)

theorem SaysSame.readLine {raw text : Text} (hsame : SaysSame raw text) (survey : Survey)
    (file : Text) (number counter : Int) :
    survey.readLine file text number counter =
      Survey.withText text (survey.readLine file raw number counter) := by
  rw [Survey.readLine, Survey.readLine, hsame.read]
  cases Record.read file raw number counter with
  | error abort => rfl
  | ok record => exact survey.enter_withText text record

section Indented

variable {indentation : Text} (hblank : ∀ c ∈ indentation, Text.isBlank c = true) (raw : Text)

include hblank

theorem splitComment_indented :
    Record.splitComment (indentation ++ raw) =
      (indentation ++ code raw, (Record.splitComment raw).2) := by
  have hall : ∀ c ∈ indentation, (c != .char ';') = true := by
    intro c hmem
    rw [bne_iff_ne]
    rintro rfl
    have hsemicolon := hblank ';' hmem
    contradiction
  unfold code Record.splitComment
  rw [List.dropWhile_append_of_pos hall, List.takeWhile_append_of_pos hall]
  cases raw.dropWhile (fun c => c != .char ';') with
  | nil => rfl
  | cons semicolon rest => rfl

theorem code_indented : code (indentation ++ raw) = indentation ++ code raw := by
  rw [code, splitComment_indented hblank]

/-- A label is found behind ASCII white space, and behind no other. -/
theorem splitLabel_indented_iff (text label rest : Text) :
    Record.splitLabel (indentation ++ text) = (some label, rest) ↔
      (∀ c ∈ indentation, Text.isAsciiBlank c = true) ∧
        Record.splitLabel text = (some label, rest) := by
  rw [splitLabel_eq_some_iff, splitLabel_eq_some_iff]
  constructor
  · rintro ⟨spaces, htext, hspaces, hname⟩
    rcases List.append_eq_append_iff.mp htext with ⟨more, hmore, hrest⟩ | ⟨more, hmore, hrest⟩
    · have hall : ∀ c ∈ indentation ++ more, Text.isAsciiBlank c = true := hmore ▸ hspaces
      exact ⟨fun c hmem => hall c (List.mem_append_left _ hmem), more, hrest,
        fun c hmem => hall c (List.mem_append_right _ hmem), hname⟩
    · cases more with
      | nil =>
          rw [List.append_nil] at hmore
          exact ⟨hmore ▸ hspaces, [], hrest.symm, by simp, hname⟩
      | cons c more =>
          -- The label would start inside the indentation.
          have hin : c ∈ indentation := by simp [hmore]
          cases label with
          | nil => simp [Text.isName] at hname
          | cons start tail =>
              obtain rfl : start = c := (List.cons.inj hrest).1
              simp only [Text.isName, Bool.and_eq_true] at hname
              have hsolid := isBlank_of_isNameStart hname.1
              rw [hblank start hin] at hsolid
              contradiction
  · rintro ⟨hascii, spaces, rfl, hspaces, hname⟩
    refine ⟨indentation ++ spaces, by simp, ?_, hname⟩
    intro c hmem
    exact (List.mem_append.mp hmem).elim (hascii c) (hspaces c)

/-- Without a label behind it white space of any kind has no effect, and ASCII white space never has
one. -/
theorem saysSame_indented
    (hharmless : (∀ c ∈ indentation, Text.isAsciiBlank c = true) ∨ label? raw = none) :
    SaysSame raw (indentation ++ raw) := by
  have hcode := code_indented hblank raw
  have hcomment : (Record.splitComment (indentation ++ raw)).2 = (Record.splitComment raw).2 := by
    rw [splitComment_indented hblank]
  cases hlabel : label? raw with
  | none =>
      have hnone : label? (indentation ++ raw) = none := by
        rw [Option.eq_none_iff_forall_ne_some]
        intro label hsome
        rw [label?, hcode] at hsome
        have hsplit := (splitLabel_indented_iff hblank (code raw) label _).mp (Prod.ext hsome rfl)
        rw [label?, hsplit.2] at hlabel
        cases hlabel
      refine ⟨hnone.trans hlabel.symm, ?_, hcomment⟩
      rw [body, splitLabel_of_none hnone, hcode, Text.trim_append_of_blank_left hblank, body,
        splitLabel_of_none hlabel]
  | some label =>
      have hascii := hharmless.resolve_right (by simp [hlabel])
      have hraw : Record.splitLabel (code raw) = (some label, (Record.splitLabel (code raw)).2) :=
        Prod.ext hlabel rfl
      have hsplit : Record.splitLabel (code (indentation ++ raw)) =
          Record.splitLabel (code raw) := by
        rw [hcode, (splitLabel_indented_iff hblank (code raw) label _).mpr ⟨hascii, hraw⟩, ← hraw]
      exact ⟨by rw [label?, hsplit, label?], by rw [body, hsplit, body], hcomment⟩

section Hidden

variable {raw} {label : Text} (hother : ¬ ∀ c ∈ indentation, Text.isAsciiBlank c = true)
  (hlabel : label? raw = some label)

include hother

theorem label?_of_hidden : label? (indentation ++ raw) = none := by
  rw [Option.eq_none_iff_forall_ne_some]
  intro other hsome
  rw [label?, code_indented hblank] at hsome
  exact hother ((splitLabel_indented_iff hblank (code raw) other _).mp (Prod.ext hsome rfl)).1

include hlabel

/-- A label that is not found is the start of the operation. -/
theorem exists_operation_of_hidden :
    ∃ tail, operation (indentation ++ raw) = label ++ .char ':' :: tail := by
  obtain ⟨spaces, hcode, hspaces, hname⟩ :=
    (splitLabel_eq_some_iff (code raw) label _).mp (Prod.ext hlabel rfl)
  have hbody : body (indentation ++ raw) = Text.trim (code raw) := by
    rw [body, splitLabel_of_none (label?_of_hidden hblank hother), code_indented hblank,
      Text.trim_append_of_blank_left hblank]
  have hlead : ∀ c ∈ spaces, Text.isBlank c = true :=
    fun c hmem => isBlank_of_isAsciiBlank (hspaces c hmem)
  refine ⟨Text.firstWord (Record.splitLabel (code raw)).2, ?_⟩
  rw [operation, hbody, ← firstWord_of_labelled hlead hname, ← hcode]

/-- With its label hidden a line can only be an instruction, since no directive has a colon. -/
theorem kind_of_hidden : kind (indentation ++ raw) = .instruction := by
  obtain ⟨tail, hoperation⟩ := exists_operation_of_hidden hblank hother hlabel
  have hbody : body (indentation ++ raw) ≠ [] := by
    intro hnil
    rw [operation, hnil] at hoperation
    simp [Text.firstWord] at hoperation
  have hcolon : .char ':' ∈ keyword (indentation ++ raw) := by
    rw [keyword, hoperation]
    exact List.mem_flatMap.mpr ⟨':', by simp, by decide⟩
  have horigin : keyword (indentation ++ raw) ≠ Record.originKeyword := by
    intro heq
    rw [heq] at hcolon
    contradiction
  have hdata : keyword (indentation ++ raw) ≠ Record.dataKeyword := by
    intro heq
    rw [heq] at hcolon
    contradiction
  simp [kind, hbody, horigin, hdata]

end Hidden

end Indented

end Line

namespace Survey

/-- A line whose label is hidden by its indentation is taken for an instruction. -/
theorem readLine_of_hidden (survey : Survey) {indentation raw label : Text}
    (hblank : ∀ c ∈ indentation, Text.isBlank c = true)
    (hother : ¬ ∀ c ∈ indentation, Text.isAsciiBlank c = true)
    (hlabel : Line.label? raw = some label) (file : Text) (number counter : Int) :
    ∃ record tail, survey.readLine file (indentation ++ raw) number counter =
        ({ survey with log := survey.log ++ record.overflow }, .ok record) ∧
      record.kind = .instruction ∧ record.label = none ∧ record.address = counter ∧
      record.operation = some (Text.upper label ++ .char ':' :: tail) := by
  have hkind := Line.kind_of_hidden hblank hother hlabel
  have hnone : Line.label? (indentation ++ raw) = none := Line.label?_of_hidden hblank hother
  obtain ⟨tail, hoperation⟩ := Line.exists_operation_of_hidden hblank hother hlabel
  have hkeyword : Line.keyword (indentation ++ raw) =
      Text.upper label ++ .char ':' :: Text.upper tail := by
    rw [Line.keyword, hoperation, Text.upper, List.flatMap_append, List.flatMap_cons]
    rfl
  refine ⟨Line.record file (indentation ++ raw) number counter, Text.upper tail, ?_, hkind, hnone,
    ?_, ?_⟩
  · rw [readLine, Line.read_eq, hkind]
    simp [enter, Line.record, hnone, counterEvent, hkind]
  · simp [Line.record, hkind]
  · simp [Line.record, Line.recordedOperation?, hkind, hkeyword]

theorem exists_of_withText_eq_ok {text : Text} {result : Survey × Except Abort Record}
    {record : Record} (hshown : (withText text result).2 = .ok record) :
    ∃ found, result.2 = .ok found ∧ found.withText text = record := by
  obtain ⟨next, outcome⟩ := result
  cases outcome with
  | error abort => cases hshown
  | ok found => exact ⟨found, rfl, Except.ok.inj hshown⟩

theorem label_of_readLine {survey : Survey} {file raw : Text} {number counter : Int}
    {record : Record} (hline : (survey.readLine file raw number counter).2 = .ok record) :
    record.label = Line.label? raw := by
  obtain ⟨hread, -⟩ := of_readLine_eq_ok (Prod.ext rfl hline)
  obtain ⟨-, -, rfl⟩ := Line.sound_of_read hread
  rfl

/-- Indentation is ignored, except where it hides a label.  A line with white space in front of it leads
to the same outcome as the line, apart from the text that is kept of it, exactly if the white space is
ASCII or the line defines no label.  In the other case the line is taken for an instruction, whose
operation starts with the label and its colon, and nothing is defined.  The surveyor reads both lines so
if the numbers it has to write have few enough digits. -/
theorem readLine_of_indented (survey : Survey) (file raw : Text) {indentation : Text}
    (hblank : ∀ c ∈ indentation, Text.isBlank c = true) (number counter : Int) :
    (survey.readLine file (indentation ++ raw) number counter =
        withText (indentation ++ raw) (survey.readLine file raw number counter) ↔
      (∀ c ∈ indentation, Text.isAsciiBlank c = true) ∨ ∀ label, ¬ Line.Defines raw label) ∧
    (∀ label, Line.Defines raw label → ¬ (∀ c ∈ indentation, Text.isAsciiBlank c = true) →
      ∃ record tail, survey.readLine file (indentation ++ raw) number counter =
          ({ survey with log := survey.log ++ record.overflow }, .ok record) ∧
        record.kind = .instruction ∧ record.label = none ∧ record.address = counter ∧
        record.operation = some (Text.upper label ++ .char ':' :: tail)) ∧
    (survey.table.Fits → Text.Writable counter → Text.Writable number →
      ∀ text ∈ [raw, indentation ++ raw], (Surveyor.readLine file text number counter).run survey =
        Surveyor.ending (survey.readLine file text number counter)) := by
  simp only [← Line.label?_eq_some_iff]
  refine ⟨⟨?_, ?_⟩, ?_, ?_⟩
  · intro hsame
    by_contra hnot
    simp only [not_or, not_forall, not_not] at hnot
    obtain ⟨⟨c, hmem, hascii⟩, label, hlabel⟩ := hnot
    obtain ⟨record, -, hread, -, hnone, -⟩ := survey.readLine_of_hidden hblank
      (fun hall => hascii (hall c hmem)) hlabel file number counter
    rw [hread] at hsame
    obtain ⟨found, hfound, hshown⟩ := exists_of_withText_eq_ok (congrArg Prod.snd hsame).symm
    have hkept : record.label = found.label := by
      rw [← hshown]
      rfl
    rw [hkept, label_of_readLine hfound, hlabel] at hnone
    cases hnone
  · intro hharmless
    rw [← Option.eq_none_iff_forall_ne_some] at hharmless
    exact (Line.saysSame_indented hblank raw hharmless).readLine survey file number counter
  · intro label hlabel hother
    exact survey.readLine_of_hidden hblank hother hlabel file number counter
  · intro htable hcounter hnumber text _
    exact Surveyor.run_readLine htable hcounter hnumber

/-- A tab hides no label, and a no-break space hides nothing from a line without one.  In front of a
label it makes the label a part of the operation. -/
theorem readLine_of_indented_origin :
    start.readLine [] ("\t".text ++ "A: LOC 7".text) 1 0 =
        withText "\tA: LOC 7".text (start.readLine [] "A: LOC 7".text 1 0) ∧
      start.readLine [] ("\u00a0".text ++ "LOC 7 ; A: B".text) 1 0 =
        withText "\u00a0LOC 7 ; A: B".text (start.readLine [] "LOC 7 ; A: B".text 1 0) ∧
      ∃ record tail, start.readLine [] ("\u00a0".text ++ "A: LOC 7".text) 1 0 =
          ({ start with log := start.log ++ record.overflow }, .ok record) ∧
        record.kind = .instruction ∧ record.label = none ∧ record.address = 0 ∧
        record.operation = some (Text.upper "A".text ++ .char ':' :: tail) := by
  have htab : ∀ c ∈ "\t".text, Text.isBlank c = true := List.all_eq_true.mp (by decide)
  have hspace : ∀ c ∈ "\u00a0".text, Text.isBlank c = true := List.all_eq_true.mp (by decide)
  have hnone : Line.label? "LOC 7 ; A: B".text = none := by decide
  refine ⟨(readLine_of_indented start [] _ htab 1 0).1.mpr (Or.inl ?_),
    (readLine_of_indented start [] _ hspace 1 0).1.mpr (Or.inr ?_),
    (readLine_of_indented start [] _ hspace 1 0).2.1 _ ?_ ?_⟩
  · exact List.all_eq_true.mp (by decide)
  · intro label hlabel
    rw [(Line.label?_eq_some_iff _ label).mpr hlabel] at hnone
    cases hnone
  · decide
  · intro hascii
    exact absurd (hascii '\u00a0' (by decide)) (by decide)

/-- A no-break space makes a label and its colon the operation and the operation the operand, and no
symbol is defined. -/
theorem readLine_of_no_break_space :
    "\u00a0".text.all Text.isBlank = true ∧
      start.readLine [] "A: HLT".text 1 0 =
        (⟨⟨[⟨"A".text, 0, some ⟨[], 1⟩⟩], false⟩, [], []⟩,
          .ok ⟨[], 1, "A: HLT".text, .instruction, 0, some "A".text, some "HLT".text, [], true,
            none, none⟩) ∧
      start.readLine [] ("\u00a0".text ++ "A: HLT".text) 1 0 =
        (⟨⟨[], false⟩, [], []⟩,
          .ok ⟨[], 1, "\u00a0A: HLT".text, .instruction, 0, none, some "A:".text, "HLT".text, true,
            none, none⟩) := by
  decide +kernel

end Survey

end TwoPass
