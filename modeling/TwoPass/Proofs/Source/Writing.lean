import TwoPass.Proofs.Operand.Acceptance
import TwoPass.Proofs.Source.Surveyor

/-!
# Writing a line and reading it

A line is written from a label, an operation, an argument and a comment, with spaces and tabs between
them.  Reading the line finds these parts again, whatever colons, semicolons and names they contain: a
colon belongs to a label only behind the first name of the line, and a semicolon starts a comment only
the first time.  Reading fails only for a directive that does not take its argument.
-/

namespace TwoPass

def Text.isPad (c : CodePoint) : Bool :=
  c == ' ' || c == '\t'

/-- The parts of a line that has an operation. -/
structure WrittenLine where
  indentation : Text
  label : Option Text
  /-- What stands between the colon of the label and the operation. -/
  labelGap : Text
  operation : Text
  gap : Text
  argument : Text
  trail : Text
  comment : Option Text
  pad_indentation : ∀ c ∈ indentation, Text.isPad c = true
  pad_labelGap : ∀ c ∈ labelGap, Text.isPad c = true
  pad_gap : ∀ c ∈ gap, Text.isPad c = true
  pad_trail : ∀ c ∈ trail, Text.isPad c = true
  isName_label : ∀ name ∈ label, Text.isName name = true
  operation_ne_nil : operation ≠ []
  solid_operation : ∀ c ∈ operation, Text.isBlank c = false ∧ c ≠ ';'
  /-- Without a label the operation must not be taken for one. -/
  operation_ne_label : label = none → ∀ name rest, Text.isName name = true →
    operation ≠ name ++ .char ':' :: rest
  trim_argument : Text.trim argument = argument
  semicolon_not_mem_argument : .char ';' ∉ argument
  gap_ne_nil : argument ≠ [] → gap ≠ []

namespace WrittenLine

variable (line : WrittenLine)

/-- The operation, what follows it, and the white space in front of it. -/
def statement : Text :=
  (if line.label.isSome then line.labelGap else line.indentation) ++
    (line.operation ++ (line.gap ++ (line.argument ++ line.trail)))

def code : Text :=
  match line.label with
  | some label => line.indentation ++ (label ++ .char ':' :: line.statement)
  | none => line.statement

def text : Text :=
  match line.comment with
  | some comment => line.code ++ .char ';' :: comment
  | none => line.code

/-- A directive takes its argument: `LOC` an address in digits, `Data` a numeral or a name.  What other
operations take is no matter of the line. -/
def TakesArgument : Prop :=
  if Text.upper line.operation = "LOC".text then
    Text.isDigits line.argument = true ∧ line.argument.length ≤ Text.maxDigits ∧
      Text.digitsValue line.argument ≤ 65535
  else if Text.upper line.operation = "DATA".text then Text.IsAddress line.argument
  else True

instance : Decidable line.TakesArgument := by
  unfold TakesArgument
  infer_instance

/-- The record says what the line has been written from. -/
structure Describes (record : Record) : Prop where
  label : record.label = line.label
  operands : record.operands = line.argument
  comment : record.comment = line.comment.map Text.trim
  raw : record.raw = line.text
  kind : record.kind =
    if Text.upper line.operation = "LOC".text then .origin
    else if Text.upper line.operation = "DATA".text then .data
    else .instruction
  operation : record.kind = .instruction → record.operation = some (Text.upper line.operation)

theorem isAsciiBlank_of_isPad {c : CodePoint} (hpad : Text.isPad c = true) :
    Text.isAsciiBlank c = true := by
  rcases (by simpa [Text.isPad] using hpad : c = ' ' ∨ c = '\t') with rfl | rfl
  · decide
  · decide

theorem isBlank_of_isPad {c : CodePoint} (hpad : Text.isPad c = true) : Text.isBlank c = true :=
  Line.isBlank_of_isAsciiBlank (isAsciiBlank_of_isPad hpad)

theorem semicolon_not_mem_of_isPad {pads : Text} (hpad : ∀ c ∈ pads, Text.isPad c = true) :
    .char ';' ∉ pads := by
  intro hmem
  have hsemicolon := hpad ';' hmem
  contradiction

theorem isBlank_of_mem_lead :
    ∀ c ∈ (if line.label.isSome then line.labelGap else line.indentation),
      Text.isBlank c = true := by
  intro c hmem
  split at hmem
  · exact isBlank_of_isPad (line.pad_labelGap c hmem)
  · exact isBlank_of_isPad (line.pad_indentation c hmem)

/-- White space ends the operation. -/
theorem isBlank_behind_operation :
    ∀ c ∈ (line.gap ++ (line.argument ++ line.trail)).head?, Text.isBlank c = true := by
  intro c hhead
  cases hgap : line.gap with
  | nil =>
      have hargument : line.argument = [] := by
        by_contra hne
        exact line.gap_ne_nil hne hgap
      rw [hgap, hargument, List.nil_append, List.nil_append] at hhead
      exact isBlank_of_isPad (line.pad_trail c (List.mem_of_mem_head? hhead))
  | cons first rest =>
      obtain rfl : first = c := by simpa [hgap] using hhead
      exact isBlank_of_isPad (line.pad_gap first (hgap ▸ List.mem_cons_self))

theorem firstWord_statement : Text.firstWord (Text.trim line.statement) = line.operation :=
  (Text.firstWord_trim line.isBlank_of_mem_lead (fun c hmem => (line.solid_operation c hmem).1)
    line.operation_ne_nil line.isBlank_behind_operation).1

theorem afterFirstWord_statement :
    Text.afterFirstWord (Text.trim line.statement) = line.argument := by
  have htail := (Text.firstWord_trim line.isBlank_of_mem_lead
    (fun c hmem => (line.solid_operation c hmem).1) line.operation_ne_nil
    line.isBlank_behind_operation).2
  rw [statement, htail,
    Text.trim_append_of_blank_left fun c hmem => isBlank_of_isPad (line.pad_gap c hmem),
    Text.trim_append_of_blank fun c hmem => isBlank_of_isPad (line.pad_trail c hmem),
    line.trim_argument]

/-- An operation that does not start like a label is not taken for one, whatever follows it. -/
theorem splitLabel_statement (hlabel : line.label = none) :
    (Record.splitLabel line.statement).1 = none := by
  rw [Option.eq_none_iff_forall_ne_some]
  intro name hsome
  obtain ⟨rest, hsplit⟩ : ∃ rest, Record.splitLabel line.statement = (some name, rest) :=
    ⟨_, Prod.ext hsome rfl⟩
  obtain ⟨indentation, hcode, hblank, hname⟩ := (Line.splitLabel_eq_some_iff _ _ _).mp hsplit
  -- The name and its colon would be the start of the first word, which is the operation.
  have hlead : ∀ c ∈ indentation, Text.isBlank c = true :=
    fun c hmem => Line.isBlank_of_isAsciiBlank (hblank c hmem)
  have hread := Line.firstWord_of_labelled hlead hname rest
  rw [← hcode, line.firstWord_statement] at hread
  exact line.operation_ne_label hlabel name _ hname hread

theorem splitLabel_code : Record.splitLabel line.code = (line.label, line.statement) := by
  unfold code
  split
  · rename_i label hlabel
    rw [hlabel, Line.splitLabel_eq_some_iff]
    exact ⟨line.indentation, rfl, fun c hmem => isAsciiBlank_of_isPad (line.pad_indentation c hmem),
      line.isName_label label hlabel⟩
  · rename_i hlabel
    have hnone := line.splitLabel_statement hlabel
    exact Prod.ext (hnone.trans hlabel.symm) (Line.splitLabel_of_none hnone)

theorem semicolon_not_mem_statement : .char ';' ∉ line.statement := by
  have hoperation : .char ';' ∉ line.operation := fun hmem => (line.solid_operation ';' hmem).2 rfl
  have hgap := semicolon_not_mem_of_isPad line.pad_gap
  have htrail := semicolon_not_mem_of_isPad line.pad_trail
  unfold statement
  split
  · simp [semicolon_not_mem_of_isPad line.pad_labelGap, hoperation, hgap, htrail,
      line.semicolon_not_mem_argument]
  · simp [semicolon_not_mem_of_isPad line.pad_indentation, hoperation, hgap, htrail,
      line.semicolon_not_mem_argument]

theorem semicolon_not_mem_code : .char ';' ∉ line.code := by
  have hstatement := line.semicolon_not_mem_statement
  unfold code
  split
  · rename_i label hlabel
    have hname : .char ';' ∉ label := by
      intro hmem
      have hplain := Text.isPlain_of_isName (line.isName_label label hlabel) ';' hmem
      contradiction
    simp [semicolon_not_mem_of_isPad line.pad_indentation, hname, hstatement]
  · exact hstatement

/-- The first semicolon is that of the comment. -/
theorem splitComment_text :
    Record.splitComment line.text = (line.code, line.comment.map Text.trim) := by
  have hall : ∀ c ∈ line.code, (c != .char ';') = true := by
    intro c hmem
    have hne : c ≠ ';' := fun heq => line.semicolon_not_mem_code (heq ▸ hmem)
    simpa using hne
  unfold text Record.splitComment
  cases line.comment with
  | none => simp [List.dropWhile_eq_nil_iff.mpr hall]
  | some comment =>
      simp [List.dropWhile_append_of_pos hall, List.takeWhile_append_of_pos hall]

theorem label?_text : Line.label? line.text = line.label := by
  rw [Line.label?, Line.code, line.splitComment_text, line.splitLabel_code]

theorem body_text : Line.body line.text = Text.trim line.statement := by
  rw [Line.body, Line.code, line.splitComment_text, line.splitLabel_code]

theorem keyword_text : Line.keyword line.text = Text.upper line.operation := by
  rw [Line.keyword, Line.operation, line.body_text, line.firstWord_statement]

theorem argument_text : Line.argument line.text = line.argument := by
  rw [Line.argument, line.body_text, line.afterFirstWord_statement]

theorem kind_text : Line.kind line.text =
    if Text.upper line.operation = "LOC".text then .origin
    else if Text.upper line.operation = "DATA".text then .data
    else .instruction := by
  have hbody : Line.body line.text ≠ [] := by
    intro hnil
    have hword := line.firstWord_statement
    rw [← line.body_text, hnil] at hword
    exact line.operation_ne_nil hword.symm
  rw [Line.kind, if_neg (by simpa using hbody), line.keyword_text]
  rfl

/-- The record of the line says what the line has been written from. -/
theorem describes_record (file : Text) (number counter : Int) :
    line.Describes (Line.record file line.text number counter) where
  label := line.label?_text
  operands := line.argument_text
  comment := congrArg Prod.snd line.splitComment_text
  raw := rfl
  kind := line.kind_text
  operation hkind := by
    have hline : Line.kind line.text = .instruction := hkind
    rw [← line.keyword_text]
    simp only [Line.record, Line.recordedOperation?, hline]

/-- The line can be read exactly if a directive takes its argument. -/
theorem readable_text_iff : Line.Readable line.text ↔ line.TakesArgument := by
  have hkind := line.kind_text
  by_cases horigin : Text.upper line.operation = "LOC".text
  · rw [if_pos horigin] at hkind
    simp only [Line.Readable, Line.Sound, Line.Converts, TakesArgument, hkind, Line.origin,
      line.argument_text, if_pos horigin, Text.Convertible, true_or, forall_const]
    constructor
    · rintro ⟨⟨hdigits, hlargest⟩, hlength⟩
      rw [Text.dropSign_of_isDigits hdigits] at hlength
      exact ⟨hdigits, hlength hdigits, Int.ofNat_le.mp hlargest⟩
    · rintro ⟨hdigits, hlength, hlargest⟩
      rw [Text.dropSign_of_isDigits hdigits]
      exact ⟨⟨hdigits, Int.ofNat_le.mpr hlargest⟩, fun _ => hlength⟩
  · by_cases hdata : Text.upper line.operation = "DATA".text
    · rw [if_neg horigin, if_pos hdata] at hkind
      simp only [Line.Readable, Line.Sound, Line.Converts, TakesArgument, hkind,
        line.argument_text, if_neg horigin, if_pos hdata, or_true, forall_const,
        Text.isAddress_iff]
    · rw [if_neg horigin, if_neg hdata] at hkind
      simp only [Line.Readable, Line.Sound, Line.Converts, TakesArgument, hkind, if_neg horigin,
        if_neg hdata, reduceCtorEq, or_self, false_imp_iff, and_self]

end WrittenLine

namespace Survey

/-- Reading a line undoes writing it.  While the table is open, the line is read, and its record says
what the line has been written from; only a directive that does not take its argument is not read.  The
surveyor reads it so if the numbers it has to write have few enough digits. -/
theorem readLine_of_written (line : WrittenLine) {survey : Survey}
    (hopen : survey.table.closed = false) (file : Text) (number counter : Int) :
    (line.TakesArgument → ∃ record, (survey.readLine file line.text number counter).2 = .ok record ∧
        line.Describes record) ∧
      (¬ line.TakesArgument →
        ∃ abort, (survey.readLine file line.text number counter).2 = .error abort) ∧
      (survey.table.Fits → Text.Writable counter → Text.Writable number →
        (Surveyor.readLine file line.text number counter).run survey =
          Surveyor.ending (survey.readLine file line.text number counter)) := by
  rw [← line.readable_text_iff]
  refine ⟨?_, ?_, Surveyor.run_readLine⟩
  · rintro ⟨hsound, hconverts⟩
    refine ⟨_, ?_, line.describes_record file number counter⟩
    rw [readLine, Line.read_of_sound hsound hconverts]
    exact enter_of_open hopen _
  · intro hnot
    obtain ⟨abort, hread⟩ := Source.exists_error_of_not_readable hnot file number counter
    exact ⟨abort, by rw [readLine, hread]⟩

end Survey

/-- A line with its operation right behind the label, and with colons and semicolons where they do not
count. -/
def WrittenLine.glued : WrittenLine where
  indentation := " \t".text
  label := some "A1".text
  labelGap := []
  operation := "b:c".text
  gap := "\t ".text
  argument := "D: 1 , x:".text
  trail := " ".text
  comment := some " e:f ; g ".text
  pad_indentation := List.all_eq_true.mp (by decide)
  pad_labelGap := List.all_eq_true.mp (by decide)
  pad_gap := List.all_eq_true.mp (by decide)
  pad_trail := List.all_eq_true.mp (by decide)
  isName_label := by
    rintro name ⟨⟩
    decide
  operation_ne_nil := by decide
  solid_operation := by
    have hall : "b:c".text.all (fun c => !Text.isBlank c && c != ';') = true := by decide
    simpa using List.all_eq_true.mp hall
  operation_ne_label := by
    intro hlabel
    cases hlabel
  trim_argument := by decide
  semicolon_not_mem_argument := by decide
  gap_ne_nil := by decide

/-- The label ends at the first colon, and the comment starts at the first semicolon. -/
theorem Survey.readLine_of_glued :
    WrittenLine.glued.text = " \tA1:b:c\t D: 1 , x: ; e:f ; g ".text ∧
      Survey.start.table.closed = false ∧
      ∃ record, (Survey.start.readLine [] WrittenLine.glued.text 1 0).2 = .ok record ∧
        WrittenLine.glued.Describes record :=
  ⟨by decide, rfl,
    (Survey.readLine_of_written WrittenLine.glued rfl [] 1 0).1 (by decide +kernel)⟩

end TwoPass
