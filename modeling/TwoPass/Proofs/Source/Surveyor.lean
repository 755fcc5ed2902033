import TwoPass.Proofs.Operand.Value
import TwoPass.Proofs.Source.Survey
import TwoPass.Proofs.Symbol.History
import TwoPass.Source.Surveyor

/-!
# The survey at work, line by line

The surveyor checks and acts in turn, and a line may do several things: it may warn about its address,
bind its label, and move the counter.  Every check that can fail comes before all of them.  So a line has
the effect that the survey says, or none at all, as long as its numbers can be written.
-/

namespace TwoPass

/-- Digits that were converted write a number that can be written. -/
theorem Text.writable_of_readDecimal {token : Text} (htoken : isUnsignedToken token = true)
    {number : Int} (hread : readDecimal token = .ok number) : Writable number := by
  have hdigits : isDigits (dropFinalNewline token) = true := htoken
  have hall : ∀ c ∈ dropFinalNewline token, isDigit c = true := by
    simp only [isDigits, Bool.and_eq_true, List.all_eq_true] at hdigits
    exact hdigits.2
  simp only [readDecimal, dropSign_of_isDigits hdigits] at hread
  split at hread
  · rename_i hlength
    obtain rfl := Except.ok.inj hread
    rw [writable_iff, natAbs_signedValue, dropSign_of_isDigits hdigits]
    exact (digitsValue_lt hall).trans_le (Nat.pow_le_pow_right (by decide) hlength)
  · cases hread

namespace Surveyor

variable {α : Type} {fits : Prop} {survey : Survey}

theorem attains_keep {keeper : SymbolHistory.Keeper α} {value : α} {history : SymbolHistory}
    (hattains : Attains fits (.ok value history) (keeper.run ⟨survey.table, survey.log⟩)) :
    Attains fits (.ok value { survey with table := history.table, log := history.log })
      ((keep keeper).run survey) := by
  rw [EStateM.run, keep]
  generalize keeper.run ⟨survey.table, survey.log⟩ = result at hattains ⊢
  cases hattains with
  | done => exact .done
  | stopped after hnot => exact .stopped _ hnot

theorem attains_keep_error {keeper : SymbolHistory.Keeper α} {abort : Abort}
    (hattains : Attains fits (.error abort ⟨survey.table, survey.log⟩)
      (keeper.run ⟨survey.table, survey.log⟩)) :
    Attains fits (.error abort survey) ((keep keeper).run survey) := by
  rw [EStateM.run, keep]
  generalize keeper.run ⟨survey.table, survey.log⟩ = result at hattains ⊢
  cases hattains with
  | done => exact .done
  | stopped after hnot => exact .stopped _ hnot

theorem attains_record {recorder : Recorder α} {value : α} {log : Log}
    (hattains : Attains fits (.ok value log) (recorder.run survey.log)) :
    Attains fits (.ok value { survey with log := log }) ((record recorder).run survey) :=
  attains_keep (@SymbolHistory.attains_record _ _ ⟨survey.table, survey.log⟩ _ _ _ hattains)

/-- The survey and its outcome as the end of a computation. -/
def ending : Survey × Except Abort α → EStateM.Result Abort Survey α
  | (after, .ok value) => .ok value after
  | (after, .error abort) => .error abort after

/-- What the outcome of reading a line leads to: its record is taken in, or nothing happens. -/
def onto (survey : Survey) : Except Abort Record → EStateM.Result Abort Survey Record
  | .ok record => ending (survey.enter record)
  | .error abort => .error abort survey

theorem ending_readLine (survey : Survey) (file raw : Text) (line counter : Int) :
    ending (survey.readLine file raw line counter) =
      onto survey (Record.read file raw line counter) := by
  rw [Survey.readLine]
  cases Record.read file raw line counter with
  | error abort => rfl
  | ok record => rfl

theorem ending_enter_of_open (hopen : survey.table.closed = false) (record : Record) :
    ending (survey.enter record) = .ok record (survey.enter record).1 := by
  have hpair : survey.enter record = ((survey.enter record).1, .ok record) :=
    Prod.ext rfl (Survey.enter_of_open hopen record)
  rw [hpair]
  rfl

/-- The surveyor acts as the outcome says, as long as the numbers fit. -/
structure Performs (fits : Prop) (survey : Survey) (surveyor : Surveyor Record)
    (outcome : Except Abort Record) : Prop where
  attains : Attains fits (onto survey outcome) (surveyor.run survey)
  reports : Recorder.Reports fits outcome

theorem performs_error {surveyor : Surveyor Record} {abort : Abort} (hfits : fits → abort.Fits)
    (hattains : Attains fits (.error abort survey) (surveyor.run survey)) :
    Performs fits survey surveyor (.error abort) where
  attains := hattains
  reports cause herror := by
    obtain rfl := Except.error.inj herror
    exact hfits

theorem performs_ok {surveyor : Surveyor Record} {record : Record}
    (hattains : Attains fits (ending (survey.enter record)) (surveyor.run survey)) :
    Performs fits survey surveyor (.ok record) where
  attains := hattains
  reports cause herror := by cases herror

section Lines

variable {record : Record}

theorem performs_refuse {cause : Error.Cause}
    (hfits : fits → (∀ n ∈ cause.numbers, Text.Writable n) ∧ Text.Writable record.line) :
    Performs fits survey (refuse record cause) (record.refuse cause) := by
  have habort : fits → Abort.Fits (.error ⟨cause, some record.place, some record.raw⟩) := by
    intro hfit
    refine ⟨(hfits hfit).1, ?_⟩
    simpa [Place.Fits, Record.place] using (hfits hfit).2
  apply performs_error habort
  apply attains_keep_error
  exact SymbolHistory.attains_record_error (Recorder.attains_stop habort)

/-- What binding the label of a record leads to. -/
def labelled (survey : Survey) (record : Record) : EStateM.Result Abort Survey Unit :=
  match record.label with
  | none => .ok () survey
  | some label =>
      match survey.table.define label record.address (some record.place) with
      | .error report => .error (.error report) survey
      | .ok (table, warnings) => .ok () { survey with table := table, log := survey.log ++ warnings }

def counted (survey : Survey) (record : Record) : Survey :=
  { survey with events := survey.events ++ Survey.counterEvent record }

/-- What is left to do once the label is bound. -/
def completed (record : Record) :
    EStateM.Result Abort Survey Unit → EStateM.Result Abort Survey Record
  | .ok _ after => .ok record (counted after record)
  | .error abort after => .error abort after

theorem counted_of_ne (hkind : record.kind ≠ .origin) (survey : Survey) :
    counted survey record = survey := by
  rw [counted, Survey.counterEvent, if_neg hkind, List.append_nil]

/-- Taking a record in comes in three parts: the overflow warning, the label, and the event. -/
theorem ending_enter (survey : Survey) (record : Record) :
    ending (survey.enter record) =
      completed record (labelled { survey with log := survey.log ++ record.overflow } record) := by
  rw [Survey.enter, labelled]
  cases record.label with
  | none => rfl
  | some label =>
      dsimp only
      cases survey.table.define label record.address (some record.place) with
      | error report => rfl
      | ok found => rfl

theorem attains_bindLabel
    (hfits : fits → survey.table.Fits ∧ Text.Writable record.address ∧ Text.Writable record.line) :
    Attains fits (labelled survey record) ((bindLabel record).run survey) := by
  have hplace : fits → Place.Fits (some record.place) := by
    intro hfit
    simpa [Place.Fits, Record.place] using (hfits hfit).2.2
  rw [bindLabel, labelled]
  cases record.label with
  | none => exact .done
  | some label =>
      cases hclosed : survey.table.closed with
      | true =>
          simp only [SymbolTable.define, hclosed, if_true]
          exact attains_keep_error (SymbolHistory.attains_define_of_closed hclosed hplace)
      | false =>
          have hwarnings : fits → ∀ warning ∈
              survey.table.redefinition label record.address (some record.place),
                warning.Fits := by
            intro hfit warning
            obtain ⟨htable, haddress, -⟩ := hfits hfit
            exact SymbolTable.fits_of_mem_redefinition htable haddress (hplace hfit)
          have hkeeper : Attains fits
              (.ok () (SymbolHistory.bound ⟨survey.table, survey.log⟩ label record.address
                (some record.place)))
              ((SymbolHistory.define label record.address (some record.place)).run
                ⟨survey.table, survey.log⟩) :=
            SymbolHistory.attains_define hclosed hwarnings
          simpa [SymbolTable.define, SymbolHistory.bound, hclosed] using attains_keep hkeeper

theorem attains_bindLabel_bind
    (hfits : fits → survey.table.Fits ∧ Text.Writable record.address ∧ Text.Writable record.line)
    {next : Unit → Surveyor Record}
    (hnext : ∀ after, Attains fits (.ok record (counted after record)) ((next ()).run after)) :
    Attains fits (completed record (labelled survey record))
      ((bindLabel record >>= next).run survey) := by
  have hlabel : Attains fits (labelled survey record) ((bindLabel record).run survey) :=
    attains_bindLabel hfits
  cases hlabelled : labelled survey record with
  | error abort after =>
      rw [hlabelled] at hlabel
      exact hlabel.bind_error
  | ok value after =>
      rw [hlabelled] at hlabel
      exact hlabel.bind (hnext after)

/-- A word line warns about its address, then binds its label. -/
theorem performs_placeWord (hword : record.occupiesWord = true) (hkind : record.kind ≠ .origin)
    (hfits : fits → survey.table.Fits ∧ Text.Writable record.address ∧ Text.Writable record.line) :
    Performs fits survey (placeWord record) (.ok record) := by
  have hwarning : fits → Warning.Fits ⟨.counterOverflow record.address, some record.place⟩ := by
    intro hfit
    obtain ⟨-, haddress, hline⟩ := hfits hfit
    exact ⟨by simpa [Warning.Cause.numbers] using haddress,
      by simpa [Place.Fits, Record.place] using hline⟩
  have hoverflow : (if Word.largest < record.address then
      [⟨.counterOverflow record.address, some record.place⟩] else []) = record.overflow := by
    simp [Record.overflow, hword]
  have hcheck := attains_record ((Recorder.performs_warnIf (Word.largest < record.address)
    hwarning).attains survey.log)
  rw [hoverflow] at hcheck
  apply performs_ok
  rw [ending_enter]
  refine hcheck.bind (attains_bindLabel_bind ?_ fun after => ?_)
  · exact hfits
  · rw [counted_of_ne hkind]
    exact .done

/-- A line without a word only binds its label before it goes on. -/
theorem performs_bindLabel (hword : record.occupiesWord = false)
    (hfits : fits → survey.table.Fits ∧ Text.Writable record.address ∧ Text.Writable record.line)
    {next : Unit → Surveyor Record}
    (hnext : ∀ after, Attains fits (.ok record (counted after record)) ((next ()).run after)) :
    Performs fits survey (bindLabel record >>= next) (.ok record) := by
  have hoverflow : record.overflow = [] := by simp [Record.overflow, hword]
  apply performs_ok
  rw [ending_enter, hoverflow, List.append_nil]
  exact attains_bindLabel_bind hfits hnext

/-- Nothing happens before the argument of the directive has passed every check. -/
theorem performs_readOrigin (hword : record.occupiesWord = false) (operation : Text)
    (hfits : fits → survey.table.Fits ∧ Text.Writable record.line) :
    Performs fits survey (readOrigin record operation) (record.readOrigin operation) := by
  have hquiet {cause : Error.Cause} (hnumbers : cause.numbers = []) :
      Performs fits survey (refuse record cause) (record.refuse cause) :=
    performs_refuse fun hfit => ⟨by simp [hnumbers], (hfits hfit).2⟩
  rw [readOrigin, Record.readOrigin]
  split
  · exact hquiet rfl
  · split
    · exact hquiet rfl
    · rename_i htoken
      rw [Bool.not_eq_true, Bool.not_eq_false'] at htoken
      cases hread : Text.readDecimal record.operands with
      | error fault => exact performs_error (fun _ => trivial) .done
      | ok address =>
          have haddress : Text.Writable address := Text.writable_of_readDecimal htoken hread
          simp only
          split
          · refine performs_refuse fun hfit => ⟨?_, (hfits hfit).2⟩
            simpa [Error.Cause.numbers] using haddress
          · refine performs_bindLabel ?_ ?_ fun after => ?_
            · exact hword
            · exact fun hfit => ⟨(hfits hfit).1, haddress, (hfits hfit).2⟩
            · refine (attains_record (Recorder.attains_write fun hfit => ?_)).bind .done
              simpa using ⟨(hfits hfit).2, haddress⟩

theorem performs_readData (operation : Text)
    (hfits : fits → survey.table.Fits ∧ Text.Writable record.address ∧ Text.Writable record.line) :
    Performs fits survey (readData record operation) (record.readData operation) := by
  have hquiet {cause : Error.Cause} (hnumbers : cause.numbers = []) :
      Performs fits survey (refuse record cause) (record.refuse cause) :=
    performs_refuse fun hfit => ⟨by simp [hnumbers], (hfits hfit).2.2⟩
  rw [readData, Record.readData]
  split
  · exact hquiet rfl
  · cases Value.read? record.operands with
    | error fault => exact performs_error (fun _ => trivial) .done
    | ok found =>
        cases found with
        | none => exact hquiet rfl
        | some value => exact performs_placeWord rfl (by simp) hfits

theorem performs_readCode (hword : record.occupiesWord = false) (code : Text)
    (hfits : fits → survey.table.Fits ∧ Text.Writable record.address ∧ Text.Writable record.line) :
    Performs fits survey (readCode record code) (record.readCode code) := by
  rw [readCode, Record.readCode]
  dsimp only
  split
  · refine performs_bindLabel ?_ ?_ fun after => ?_
    · exact hword
    · exact hfits
    · rw [counted_of_ne (by simp)]
      exact .done
  · split
    · refine performs_readOrigin ?_ _ ?_
      · exact hword
      · exact fun hfit => ⟨(hfits hfit).1, (hfits hfit).2.2⟩
    · split
      · exact performs_readData _ hfits
      · exact performs_placeWord rfl (by simp) hfits

/-- The surveyor takes a line in as the survey does. -/
theorem performs_readLine (survey : Survey) (file raw : Text) (line counter : Int) :
    Performs (survey.table.Fits ∧ Text.Writable counter ∧ Text.Writable line) survey
      (readLine file raw line counter) (Record.read file raw line counter) := by
  rw [readLine, Record.read]
  simp only
  split
  · apply performs_ok
    rw [ending_enter]
    simpa [completed, labelled, counted_of_ne, Record.blank, Record.overflow] using Attains.done
  · exact performs_readCode rfl _ id

theorem run_readLine {file raw : Text} {line counter : Int} (htable : survey.table.Fits)
    (hcounter : Text.Writable counter) (hnumber : Text.Writable line) :
    (readLine file raw line counter).run survey =
      ending (survey.readLine file raw line counter) := by
  rw [ending_readLine]
  exact (performs_readLine survey file raw line counter).attains.eq_of_fits
    ⟨htable, hcounter, hnumber⟩

end Lines

section Sequence

variable {file raw : Text} {line counter : Int}

/-- A line that was taken in has been read. -/
theorem of_readLine_eq_ok (hopen : survey.table.closed = false) {record : Record} {after : Survey}
    (hline : (readLine file raw line counter).run survey = .ok record after) :
    Record.read file raw line counter = .ok record ∧ after = (survey.enter record).1 := by
  have hexpected := (performs_readLine survey file raw line counter).attains.eq_of_ok hline
  cases hread : Record.read file raw line counter with
  | error abort =>
      rw [hread] at hexpected
      cases hexpected
  | ok found =>
      rw [hread, onto, ending_enter_of_open hopen] at hexpected
      obtain ⟨rfl, rfl⟩ := EStateM.Result.ok.inj hexpected
      exact ⟨rfl, rfl⟩

theorem readLine_ne_unwritable (hopen : survey.table.closed = false) (htable : survey.table.Fits)
    (hcounter : Text.Writable counter) (hnumber : Text.Writable line) {abort : Abort}
    {after : Survey} (hline : (readLine file raw line counter).run survey = .error abort after) :
    abort ≠ .unwritable := by
  have hperforms := performs_readLine survey file raw line counter
  rw [hperforms.attains.eq_of_fits ⟨htable, hcounter, hnumber⟩] at hline
  cases hread : Record.read file raw line counter with
  | error cause =>
      rw [hread] at hline
      obtain ⟨rfl, -⟩ := EStateM.Result.error.inj hline
      exact (hperforms.reports cause hread ⟨htable, hcounter, hnumber⟩).ne_unwritable
  | ok record =>
      rw [hread, onto, ending_enter_of_open hopen] at hline
      cases hline

/-- A line is at the counter, or it sets the counter within memory. -/
theorem address_of_read (hcounter : 0 ≤ counter) {record : Record}
    (hread : Record.read file raw line counter = .ok record) :
    record.line = line ∧ 0 ≤ record.address ∧
      (record.address ≤ counter ∨ record.address ≤ 65535) := by
  obtain ⟨hsound, -, rfl⟩ := Line.sound_of_read hread
  refine ⟨rfl, ?_⟩
  by_cases hkind : Line.kind raw = .origin
  · have horigin : Line.origin raw ≤ Word.largest := by
      simp only [Line.Sound, hkind] at hsound
      exact hsound.2
    simp only [Line.record, hkind, if_true]
    exact ⟨Source.origin_nonneg raw, Or.inr horigin⟩
  · simp only [Line.record, if_neg hkind]
    exact ⟨hcounter, Or.inl (Int.le_refl counter)⟩

theorem next_le (record : Record) :
    record.address ≤ record.next ∧ record.next ≤ record.address + 1 := by
  rw [Record.next]
  split <;> omega

theorem fits_enter (hopen : survey.table.closed = false) (htable : survey.table.Fits)
    {record : Record} (haddress : Text.Writable record.address) (hline : Text.Writable record.line) :
    (survey.enter record).1.table.Fits := by
  have hplace : Place.Fits (some record.place) := by simpa [Place.Fits, Record.place] using hline
  rw [Survey.enter]
  cases record.label with
  | none => exact htable
  | some label =>
      simp only [SymbolTable.define, hopen, Bool.false_eq_true, if_false]
      exact SymbolTable.fits_assign htable haddress hplace label

theorem fits_start : Survey.start.table.Fits := by
  simp [SymbolTable.Fits, Survey.start, SymbolTable.empty]

/-- No number was too long, and none of those that are left is. -/
def Settled : EStateM.Result Abort Survey (List Record) → Prop
  | .ok records after => after.table.Fits ∧ ∀ record ∈ records, Text.Writable record.line
  | .error abort _ => abort ≠ .unwritable

/-- With a table that fits, no number is too long as long as the lines are not too many. -/
theorem settled_readFrom (hopen : survey.table.closed = false) (htable : survey.table.Fits)
    {limit : Int} (hlimit : Text.Writable limit) {lines : List Text} (hnumber : 0 ≤ line)
    (hlines : line + lines.length ≤ limit) (hcounter : 0 ≤ counter)
    (hwords : counter + lines.length ≤ limit) (hmemory : 65535 + lines.length ≤ limit) :
    Settled ((readFrom file line counter lines).run survey) := by
  induction lines generalizing survey line counter with
  | nil => exact ⟨htable, by simp⟩
  | cons raw rest ih =>
      rw [List.length_cons, Int.natCast_add, Int.natCast_one] at hlines hwords hmemory
      have hwritten : Text.Writable line := hlimit.of_le hnumber (by omega)
      have hcounted : Text.Writable counter := hlimit.of_le hcounter (by omega)
      rw [readFrom, EStateM.run_bind]
      cases hline : (readLine file raw line counter).run survey with
      | error abort after => exact readLine_ne_unwritable hopen htable hcounted hwritten hline
      | ok record next =>
          obtain ⟨hrecord, rfl⟩ := of_readLine_eq_ok hopen hline
          obtain ⟨hsame, hnonneg, hbound⟩ := address_of_read hcounter hrecord
          obtain ⟨hlow, hhigh⟩ := next_le record
          have haddress : Text.Writable record.address := hlimit.of_le hnonneg (by omega)
          have hrest : Settled
              ((readFrom file (line + 1) record.next rest).run (survey.enter record).1) := by
            refine ih (Survey.closed_enter hopen record) ?_ ?_ ?_ ?_ ?_ ?_
            · exact fits_enter hopen htable haddress (hsame ▸ hwritten)
            all_goals omega
          simp only [EStateM.run_bind]
          cases hothers : (readFrom file (line + 1) record.next rest).run (survey.enter record).1 with
          | error abort after =>
              rw [hothers] at hrest
              exact hrest
          | ok others after =>
              rw [hothers] at hrest
              exact ⟨hrest.1, List.forall_mem_cons.mpr ⟨hsame ▸ hwritten, hrest.2⟩⟩

theorem settled_readLines (hopen : survey.table.closed = false) (htable : survey.table.Fits)
    {lines : List Text} (hlines : Text.Writable (65535 + lines.length)) (file : Text) :
    Settled ((readLines file lines).run survey) := by
  have hlength : (lines.map Text.dropLineEnds).length = lines.length := List.length_map _
  refine settled_readFrom hopen htable hlines ?_ ?_ ?_ ?_ ?_
  all_goals omega

theorem attains_readFrom (survey : Survey) (file : Text) (line counter : Int) (lines : List Text) :
    Attains False (ending (Survey.readFrom file survey line counter lines))
      ((readFrom file line counter lines).run survey) := by
  induction lines generalizing survey line counter with
  | nil => exact .done
  | cons raw rest ih =>
      have hline := (performs_readLine survey file raw line counter).attains.imp False.elim
      rw [← ending_readLine] at hline
      cases hread : survey.readLine file raw line counter with
      | mk next outcome =>
          rw [hread] at hline
          cases outcome with
          | error abort =>
              rw [Survey.readFrom_cons_of_error hread]
              exact hline.bind_error
          | ok record =>
              have hrest := ih next (line + 1) record.next
              rw [Survey.readFrom_cons_of_ok hread]
              refine hline.bind ?_
              rcases hothers : Survey.readFrom file next (line + 1) record.next rest with
                ⟨later, outcome⟩
              rw [hothers] at hrest
              cases outcome with
              | error abort => exact hrest.bind_error
              | ok records => exact hrest.bind .done

/-- The surveyor gives every source the survey it has, unless the lines are far too many. -/
theorem run_readLines (file : Text) {lines : List Text}
    (hlines : Text.Writable (65535 + lines.length)) :
    (readLines file lines).run .start = ending (Survey.readSource file lines) := by
  have hopen : Survey.start.table.closed = false := rfl
  have hsettled := settled_readLines hopen fits_start hlines file
  have hattains := attains_readFrom .start file 1 0 (lines.map Text.dropLineEnds)
  rw [readLines] at hsettled ⊢
  rw [Survey.readSource]
  generalize (readFrom file 1 0 (lines.map Text.dropLineEnds)).run .start = result
    at hattains hsettled ⊢
  cases hattains with
  | done => rfl
  | stopped after => exact absurd rfl hsettled

end Sequence

end Surveyor

end TwoPass
