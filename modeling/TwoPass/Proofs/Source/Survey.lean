import TwoPass.Proofs.Source.Position
import TwoPass.Source.Survey

/-!
# The survey in closed form

A survey carries a table, a log and the events from line to line.  Behind any lines all three are
functions of these lines: the table is built from the definitions the lines make, and each line
contributes its own warnings and events.  A line that can be read leads from the state behind the lines
before it to the state behind the line; a line that cannot be read leaves the state alone.
-/

namespace TwoPass

namespace Position

/-- The warning due when the line's word lies beyond the last address. -/
def overflowWarnings (file : Text) (position : Position) : Log :=
  if Line.takesWord position.raw && decide (Word.largest < position.counter) then
    [⟨.counterOverflow position.counter, some (position.place file)⟩]
  else []

/-- The warning due when the line's label moves away from where the definition before put it. -/
def redefinitionWarnings (file : Text) (position : Position) : Log :=
  match position.definition? file with
  | none => []
  | some definition =>
      definition.redefinitionWarnings (Source.definitions file position.before)

/-- What the survey has to say about the line. -/
def surveyWarnings (file : Text) (position : Position) : Log :=
  position.overflowWarnings file ++ position.redefinitionWarnings file

theorem overflow_record (file : Text) (position : Position) :
    (position.record file).overflow = position.overflowWarnings file := by
  have hoccupies : (position.record file).occupiesWord = Line.takesWord position.raw := rfl
  cases hword : Line.takesWord position.raw with
  | false => simp [Record.overflow, overflowWarnings, hoccupies, hword]
  | true =>
      simp [Record.overflow, overflowWarnings, hoccupies, hword, bound_of_takesWord hword]

end Position

namespace Line

/-- The line can be read, wherever it stands. -/
def Readable (raw : Text) : Prop :=
  Sound raw ∧ Converts raw

end Line

namespace Source

def survey (file : Text) (lines : List Text) : Survey where
  table := ⟨SymbolTable.build (definitions file lines), false⟩
  log := (positions lines).flatMap (Position.surveyWarnings file)
  events := (positions lines).flatMap (fun position => Survey.counterEvent (position.record file))

theorem survey_nil (file : Text) : survey file [] = Survey.start := rfl

/-- Taking the record of a line in leads to the survey behind the line. -/
theorem enter_record (file : Text) (before : List Text) (raw : Text) :
    (survey file before).enter (Position.record file ⟨before, raw⟩) =
      (survey file (before ++ [raw]), .ok (Position.record file ⟨before, raw⟩)) := by
  have hlabel : (Position.record file ⟨before, raw⟩).label = Line.label? raw := rfl
  unfold Survey.enter
  cases hcase : Line.label? raw with
  | none =>
      have hdefinition : Position.definition? file ⟨before, raw⟩ = none := by
        simp [Position.definition?, hcase]
      simp [hlabel, hcase, survey, definitions_append_singleton, positions_append_singleton,
        hdefinition, Position.surveyWarnings, Position.redefinitionWarnings,
        Position.overflow_record]
  | some label =>
      let definition : Definition :=
        ⟨label, Position.bound ⟨before, raw⟩, some (Position.place file ⟨before, raw⟩)⟩
      have hdefinition : Position.definition? file ⟨before, raw⟩ = some definition := by
        simp [Position.definition?, hcase, definition]
      have hwarnings := SymbolTable.redefinition_build (definitions file before) false definition
      simp only [definition] at hwarnings
      simp [hlabel, hcase, survey, definitions_append_singleton, positions_append_singleton,
        hdefinition, Position.surveyWarnings, Position.redefinitionWarnings,
        Position.overflow_record, SymbolTable.define, hwarnings,
        SymbolTable.build_append_singleton, definition]

/-- A step of the survey over a line that can be read. -/
theorem readLine_of_readable {raw : Text} (hreadable : Line.Readable raw) (file : Text)
    (before : List Text) :
    (survey file before).readLine file raw (before.length + 1) (counter before) =
      (survey file (before ++ [raw]), .ok (Position.record file ⟨before, raw⟩)) := by
  unfold Survey.readLine
  rw [Line.read_of_sound hreadable.1 hreadable.2]
  exact enter_record file before raw

/-- Lines that can be read lead to the survey behind them, with a record for each. -/
theorem readFrom_append_of_readable {front : List Text}
    (hreadable : ∀ raw ∈ front, Line.Readable raw) (file : Text) (before rest : List Text) :
    Survey.readFrom file (survey file before) (before.length + 1) (counter before)
        (front ++ rest) =
      match Survey.readFrom file (survey file (before ++ front)) ((before ++ front).length + 1)
        (counter (before ++ front)) rest with
      | (survey, .error abort) => (survey, .error abort)
      | (survey, .ok records) =>
          (survey, .ok ((positionsFrom before front).map (Position.record file) ++ records)) := by
  -- The invariant: the state is the survey behind the lines that have been read.
  induction front generalizing before with
  | nil =>
      simp only [List.nil_append, List.append_nil, positionsFrom, List.map_nil]
      split <;> simp_all
  | cons raw more ih =>
      have hhead := readLine_of_readable (hreadable raw List.mem_cons_self) file before
      have hmore := ih (fun line hline => hreadable line (List.mem_cons_of_mem raw hline))
        (before ++ [raw])
      have hnumber : (before.length : Int) + 1 + 1 = (before ++ [raw]).length + 1 := by simp
      have hcounter : (Position.record file ⟨before, raw⟩).next = counter (before ++ [raw]) :=
        (counter_append_singleton file before raw _).symm
      rw [List.cons_append, Survey.readFrom, hhead]
      simp only [hnumber, hcounter, hmore, List.append_assoc, List.nil_append, positionsFrom,
        List.map_cons, List.cons_append]
      cases Survey.readFrom file (survey file (before ++ raw :: more))
        ((before ++ raw :: more).length + 1) (counter (before ++ raw :: more)) rest with
      | mk after result => cases result <;> rfl

/-- The survey of a source whose lines can all be read. -/
theorem readSource_of_readable (file : Text) {lines : List Text}
    (hreadable : ∀ raw ∈ lines.map Text.dropLineEnds, Line.Readable raw) :
    Survey.readSource file lines =
      (survey file (lines.map Text.dropLineEnds),
        .ok ((positions (lines.map Text.dropLineEnds)).map (Position.record file))) := by
  have hrun := readFrom_append_of_readable hreadable file [] []
  simpa [Survey.readSource, survey_nil, Survey.readFrom, positions] using hrun

/-- The first line that cannot be read ends the survey, which keeps what the lines before it
contributed. -/
theorem readSource_of_error {file : Text} {lines front after : List Text} {bad : Text}
    {abort : Abort} (hlines : lines.map Text.dropLineEnds = front ++ bad :: after)
    (hreadable : ∀ raw ∈ front, Line.Readable raw)
    (herror : Record.read file bad (front.length + 1) (counter front) = .error abort) :
    Survey.readSource file lines = (survey file front, .error abort) := by
  have hrun := readFrom_append_of_readable hreadable file [] (bad :: after)
  simp only [List.nil_append, Survey.readFrom, Survey.readLine, herror] at hrun
  simpa [Survey.readSource, survey_nil, hlines] using hrun

/-- A list either satisfies a predicate throughout or has a first element that does not. -/
theorem forall_or_first_not {α : Type} {P : α → Prop} (items : List α) :
    (∀ item ∈ items, P item) ∨
      ∃ front bad after, items = front ++ bad :: after ∧ (∀ item ∈ front, P item) ∧ ¬ P bad := by
  induction items with
  | nil => exact Or.inl (by simp)
  | cons item rest ih =>
      by_cases hitem : P item
      · rcases ih with hall | ⟨front, bad, after, hrest, hfront, hbad⟩
        · exact Or.inl (by simpa [hitem] using hall)
        · exact Or.inr ⟨item :: front, bad, after, by simp [hrest], by simpa [hitem] using hfront,
            hbad⟩
      · exact Or.inr ⟨[], item, rest, rfl, by simp, hitem⟩

theorem exists_error_of_not_readable {raw : Text} (hnot : ¬ Line.Readable raw) (file : Text)
    (number counter : Int) : ∃ abort, Record.read file raw number counter = .error abort := by
  cases hread : Record.read file raw number counter with
  | error abort => exact ⟨abort, rfl⟩
  | ok result =>
      obtain ⟨hsound, hconverts, -⟩ := Line.sound_of_read hread
      exact absurd ⟨hsound, hconverts⟩ hnot

/-- A survey that went through could read every line. -/
theorem readable_of_readSource {file : Text} {lines : List Text} {after : Survey}
    {records : List Record} (hread : Survey.readSource file lines = (after, .ok records)) :
    ∀ raw ∈ lines.map Text.dropLineEnds, Line.Readable raw := by
  rcases forall_or_first_not (P := Line.Readable) (lines.map Text.dropLineEnds) with
    hall | ⟨front, bad, rest, hlines, hfront, hbad⟩
  · exact hall
  · obtain ⟨abort, herror⟩ :=
      exists_error_of_not_readable hbad file (front.length + 1) (counter front)
    rw [readSource_of_error hlines hfront herror] at hread
    simp at hread

end Source

namespace Survey

variable {survey next : Survey} {file raw : Text} {line counter : Int}

/-- An open table takes every record in. -/
theorem enter_of_open (hopen : survey.table.closed = false) (record : Record) :
    (survey.enter record).2 = .ok record := by
  unfold enter
  cases record.label with
  | none => rfl
  | some label => simp [SymbolTable.define, hopen]

/-- Taking a record in does not close the table. -/
theorem closed_enter (hopen : survey.table.closed = false) (record : Record) :
    (survey.enter record).1.table.closed = false := by
  rw [enter]
  cases record.label with
  | none => exact hopen
  | some label => simp [SymbolTable.define, hopen]

/-- What is taken in is handed back. -/
theorem eq_of_enter {record result : Record} (henter : (survey.enter record).2 = .ok result) :
    record = result := by
  unfold enter at henter
  cases hlabel : record.label with
  | none =>
      rw [hlabel] at henter
      exact Except.ok.inj henter
  | some label =>
      simp only [hlabel] at henter
      split at henter
      · cases henter
      · exact Except.ok.inj henter

/-- A line that is taken in has been read. -/
theorem of_readLine_eq_ok {record : Record}
    (hline : survey.readLine file raw line counter = (next, .ok record)) :
    Record.read file raw line counter = .ok record ∧
      survey.enter record = (next, .ok record) := by
  rw [readLine] at hline
  cases hread : Record.read file raw line counter with
  | error cause =>
      rw [hread] at hline
      cases (Prod.mk.inj hline).2
  | ok found =>
      rw [hread] at hline
      obtain rfl := eq_of_enter (congrArg Prod.snd hline)
      exact ⟨rfl, hline⟩

/-- A line that is taken in passes the survey and its counter on to the rest. -/
theorem readFrom_cons_of_ok {record : Record}
    (hline : survey.readLine file raw line counter = (next, .ok record)) (rest : List Text) :
    readFrom file survey line counter (raw :: rest) =
      ((readFrom file next (line + 1) record.next rest).1,
        (readFrom file next (line + 1) record.next rest).2.map (record :: ·)) := by
  simp only [readFrom, hline]
  cases readFrom file next (line + 1) record.next rest with
  | mk after outcome => cases outcome <;> rfl

theorem readFrom_cons_of_error {abort : Abort}
    (hline : survey.readLine file raw line counter = (next, .error abort)) (rest : List Text) :
    readFrom file survey line counter (raw :: rest) = (next, .error abort) := by
  rw [readFrom, hline]

end Survey

end TwoPass
