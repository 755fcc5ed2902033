import TwoPass.Diagnostic.Error

/-!
# Recording, with and without numbers that fit

What a computation does is stated by its outcome.  There is one way out of it: a number with too many
digits stops the computation where it should be written.  `Attains` says this once for all
computations that record, with the condition under which no number is too long.  A failure that is not
of this kind leaves what the outcome says it leaves.
-/

namespace TwoPass

/-- The text is what is printed of a warning with this cause: the place if there is one, and the
names and numbers that the warning is about. -/
inductive Warning.Wording : Option Place → Warning.Cause → Text → Prop
  | atPlace {file : Text} {line : Int} {cause : Warning.Cause} {text : Text}
      (hworded : Wording none cause text) :
      Wording (some ⟨file, line⟩) cause (file ++ ":" ++ Text.ofInt line ++ ": " ++ text)
  | counterOverflow (address : Int) :
      Wording none (.counterOverflow address)
        ("warning: location counter " ++ Text.ofInt address ++
          " does not fit in 16 bits; word is placed at " ++ Text.ofInt (address % 65536))
  | redefined (label : Text) (previous address : Int) :
      Wording none (.redefined label previous address none)
        ("warning: label redefined: '" ++ label ++ "' (was " ++ Text.ofInt previous ++ ", now " ++
          Text.ofInt address ++ ")")
  | redefinedAfter (label : Text) (previous address first : Int) :
      Wording none (.redefined label previous address (some first))
        ("warning: label redefined: '" ++ label ++ "' (was " ++ Text.ofInt previous ++ ", now " ++
          Text.ofInt address ++ "); first defined at line " ++ Text.ofInt first)
  | direction (token : Text) :
      Wording none (.unknownFlag .direction token)
        ("warning: unrecognized L/R flag '" ++ token ++ "'; treating it as 0")
  | kind (token : Text) :
      Wording none (.unknownFlag .kind token)
        ("warning: unrecognized A/L flag '" ++ token ++ "'; treating it as 0")
  | addressOverflow (address : Int) :
      Wording none (.addressOverflow address)
        ("warning: address " ++ Text.ofInt address ++ " does not fit in 16 bits")
  | addressTruncated (address : Int) :
      Wording none (.addressTruncated none address)
        ("warning: address " ++ Text.ofInt address ++ " > 31; encoding lower 5 bits (" ++
          Text.ofInt (address % 32) ++ "). Use index registers to reach the full address")
  | labelTruncated (label : Text) (address : Int) :
      Wording none (.addressTruncated (some label) address)
        ("warning: address '" ++ label ++ "' = " ++ Text.ofInt address ++
          " > 31; encoding lower 5 bits (" ++ Text.ofInt (address % 32) ++
          "). Use index registers to reach the full address")
  | stated (message : Text) : Wording none (.stated message) ("warning: " ++ message)

theorem Warning.wording_message (cause : Warning.Cause) :
    Warning.Wording none cause ("warning: " ++ cause.message) := by
  cases cause with
  | counterOverflow address =>
      simpa [String.text, Cause.message] using Wording.counterOverflow address
  | redefined label previous address first =>
      cases first with
      | none =>
          simpa [String.text, Cause.message, Text.quoted] using
            Wording.redefined label previous address
      | some line =>
          simpa [String.text, Cause.message, Text.quoted] using
            Wording.redefinedAfter label previous address line
  | unknownFlag flag token =>
      cases flag with
      | direction =>
          simpa [String.text, Cause.message, Text.quoted, ShiftFlag.name] using Wording.direction token
      | kind => simpa [String.text, Cause.message, Text.quoted, ShiftFlag.name] using Wording.kind token
  | addressOverflow address =>
      simpa [String.text, Cause.message] using Wording.addressOverflow address
  | addressTruncated label address =>
      cases label with
      | none => simpa [String.text, Cause.message] using Wording.addressTruncated address
      | some name =>
          simpa [String.text, Cause.message, Text.quoted] using Wording.labelTruncated name address
  | stated message => exact Wording.stated message

/-- Every warning is printed in the words for its cause. -/
theorem Warning.wording_text (warning : Warning) :
    Wording warning.place warning.cause warning.text := by
  obtain ⟨cause, place⟩ := warning
  cases place with
  | none => exact wording_message cause
  | some place => simpa [text, message, Place.text, String.text] using (wording_message cause).atPlace

/-- The number of the line, if there is one, has few enough digits to be written. -/
def Place.Fits (place : Option Place) : Prop :=
  ∀ n ∈ place.map Place.line, Text.Writable n

instance : DecidablePred Place.Fits
  | none => isTrue (by simp [Place.Fits])
  | some place => decidable_of_iff (Text.Writable place.line) (by simp [Place.Fits])

/-- Every number that is written when the warning is recorded has few enough digits. -/
def Warning.Fits (warning : Warning) : Prop :=
  (∀ n ∈ warning.cause.numbers, Text.Writable n) ∧ Place.Fits warning.place

/-- An error whose text can be written, or a stop that writes nothing. -/
def Abort.Fits : Abort → Prop
  | .error report => (∀ n ∈ report.cause.numbers, Text.Writable n) ∧ Place.Fits report.place
  | .unwritable => False
  | _ => True

theorem Abort.Fits.ne_unwritable {abort : Abort} (hfits : abort.Fits) : abort ≠ .unwritable := by
  rintro rfl
  exact hfits

/-- The computation ended as expected, or it stopped at a number with too many digits.  The latter
does not happen if all numbers fit. -/
inductive Attains {σ α : Type} (fits : Prop) (expected : EStateM.Result Abort σ α) :
    EStateM.Result Abort σ α → Prop
  | done : Attains fits expected expected
  | stopped (after : σ) (hfits : ¬ fits) : Attains fits expected (.error .unwritable after)

section Attains

variable {σ τ α β : Type} {fits : Prop}

theorem Attains.eq_of_fits {expected actual : EStateM.Result Abort σ α}
    (hattains : Attains fits expected actual) (hfits : fits) : actual = expected := by
  cases hattains with
  | done => rfl
  | stopped after hnot => exact absurd hfits hnot

/-- Any other way to stop is the expected one. -/
theorem Attains.eq_of_error {expected actual : EStateM.Result Abort σ α}
    (hattains : Attains fits expected actual) {abort : Abort} {after : σ}
    (herror : actual = .error abort after) (hwritten : abort ≠ .unwritable) :
    expected = .error abort after := by
  cases hattains with
  | done => exact herror
  | stopped other hnot => exact absurd (EStateM.Result.error.inj herror).1.symm hwritten

theorem Attains.eq_of_ok {expected actual : EStateM.Result Abort σ α}
    (hattains : Attains fits expected actual) {value : α} {after : σ}
    (hok : actual = .ok value after) : expected = .ok value after := by
  cases hattains with
  | done => exact hok
  | stopped other hnot => cases hok

theorem Attains.imp {other : Prop} {expected actual : EStateM.Result Abort σ α}
    (hattains : Attains fits expected actual) (himp : other → fits) :
    Attains other expected actual := by
  cases hattains with
  | done => exact .done
  | stopped after hnot => exact .stopped after fun hother => hnot (himp hother)

/-- The second computation goes on where the first one ended. -/
theorem Attains.bind {first : EStateM Abort σ α} {next : α → EStateM Abort σ β} {before after : σ}
    {value : α} {expected : EStateM.Result Abort σ β}
    (hfirst : Attains fits (.ok value after) (first.run before))
    (hnext : Attains fits expected ((next value).run after)) :
    Attains fits expected ((first >>= next).run before) := by
  rw [EStateM.run_bind]
  generalize first.run before = result at hfirst ⊢
  cases hfirst with
  | done => exact hnext
  | stopped other hnot => exact .stopped other hnot

theorem Attains.bind_error {first : EStateM Abort σ α} {next : α → EStateM Abort σ β}
    {before after : σ} {abort : Abort}
    (hfirst : Attains fits (.error abort after) (first.run before)) :
    Attains fits (.error abort after) ((first >>= next).run before) := by
  rw [EStateM.run_bind]
  generalize first.run before = result at hfirst ⊢
  cases hfirst with
  | done => exact .done
  | stopped other hnot => exact .stopped other hnot

end Attains

namespace Recorder

variable {α β : Type} {fits : Prop} {log : Log}

theorem attains_write {numbers : List Int} (hfits : fits → ∀ n ∈ numbers, Text.Writable n) :
    Attains fits (.ok () log) ((write numbers).run log) := by
  rw [write]
  split
  · exact .done
  · rename_i hlong
    exact .stopped log fun hfit => hlong (hfits hfit)

theorem attains_warn {warning : Warning} (hfits : fits → warning.Fits) :
    Attains fits (.ok () (log ++ [warning])) ((warn warning).run log) := by
  have hrecorded : Attains fits (.ok () (log ++ [warning]))
      ((modify (· ++ [warning]) : Recorder Unit).run log) := .done
  refine (attains_write fun hfit => (hfits hfit).1).bind ?_
  refine hrecorded.bind ?_
  exact attains_write fun hfit n hmem => (hfits hfit).2 n (Option.mem_toList.mp hmem)

theorem attains_forM_warn {warnings : Log} (hfits : fits → ∀ warning ∈ warnings, warning.Fits) :
    Attains fits (.ok () (log ++ warnings)) ((warnings.forM warn).run log) := by
  induction warnings generalizing log with
  | nil => simpa using Attains.done
  | cons warning rest ih =>
      have hrest : Attains fits (.ok () (log ++ [warning] ++ rest))
          ((rest.forM warn).run (log ++ [warning])) :=
        ih fun hfit other hmem => hfits hfit other (List.mem_cons_of_mem _ hmem)
      rw [List.append_assoc, List.singleton_append] at hrest
      exact (attains_warn fun hfit => hfits hfit warning List.mem_cons_self).bind hrest

theorem attains_stop {abort : Abort} (hfits : fits → abort.Fits) :
    Attains fits (.error abort log) ((stop abort : Recorder α).run log) := by
  cases abort with
  | error report =>
      refine (attains_write fun hfit n hmem => ?_).bind .done
      rcases List.mem_append.mp hmem with hcause | hline
      · exact (hfits hfit).1 n hcause
      · exact (hfits hfit).2 n (Option.mem_toList.mp hline)
  | numeral | unwritable | noOperation | noValue | noInstruction => exact .done

/-- What an outcome leaves: a success adds its warnings to the log, a failure leaves the log as it
was. -/
def onto (log : Log) : Except Abort (α × Log) → EStateM.Result Abort Log α
  | .ok (value, warnings) => .ok value (log ++ warnings)
  | .error abort => .error abort log

/-- An outcome whose failure can be written. -/
def Reports (fits : Prop) (outcome : Except Abort α) : Prop :=
  ∀ abort, outcome = .error abort → fits → abort.Fits

/-- The recorder acts as the outcome says, all or nothing, as long as the numbers fit. -/
structure Performs (fits : Prop) (recorder : Recorder α) (outcome : Except Abort (α × Log)) :
    Prop where
  attains : ∀ log, Attains fits (onto log outcome) (recorder.run log)
  reports : Reports fits outcome

theorem performs_pure (value : α) : Performs fits (pure value) (.ok (value, [])) where
  attains log := by simpa [onto] using Attains.done
  reports abort herror := by cases herror

theorem performs_stop {abort : Abort} (hfits : fits → abort.Fits) :
    Performs fits (stop abort : Recorder α) (.error abort) where
  attains _ := attains_stop hfits
  reports cause herror := by
    obtain rfl := Except.error.inj herror
    exact hfits

theorem performs_quietly {outcome : Except Abort α} (hreports : Reports fits outcome) :
    Performs fits (quietly outcome) (outcome.map (fun value => (value, []))) := by
  cases outcome with
  | error abort => exact performs_stop (hreports abort rfl)
  | ok value => exact performs_pure value

theorem performs_warn {warning : Warning} (hfits : fits → warning.Fits) :
    Performs fits (warn warning) (.ok ((), [warning])) where
  attains _ := attains_warn hfits
  reports abort herror := by cases herror

theorem performs_warnIf (due : Prop) [Decidable due] {warning : Warning}
    (hfits : fits → warning.Fits) :
    Performs fits (warnIf due warning) (.ok ((), if due then [warning] else [])) := by
  rw [warnIf]
  split
  · exact performs_warn hfits
  · exact performs_pure ()

/-- A second step may fail only where the first one has written nothing. -/
theorem Performs.andThen {first : Recorder α} {next : α → Recorder β}
    {outcome : Except Abort (α × Log)} {rest : α → Except Abort (β × Log)}
    (hfirst : first.Performs fits outcome)
    (hnext : ∀ value warnings, outcome = .ok (value, warnings) →
      (next value).Performs fits (rest value))
    (hclean : ∀ value warnings abort, outcome = .ok (value, warnings) → rest value = .error abort →
      warnings = []) :
    (first >>= next).Performs fits (do
      let (value, warnings) ← outcome
      let (result, more) ← rest value
      return (result, warnings ++ more)) := by
  cases outcome with
  | error abort =>
      refine ⟨fun log => (hfirst.attains log).bind_error, fun cause herror => ?_⟩
      obtain rfl := Except.error.inj herror
      exact hfirst.reports abort rfl
  | ok found =>
      have hvalue := hnext found.1 found.2 rfl
      change (first >>= next).Performs fits
        ((rest found.1).bind (fun output => .ok (output.1, found.2 ++ output.2)))
      cases hrest : rest found.1 with
      | error abort =>
          have hempty : found.2 = [] := hclean found.1 found.2 abort rfl hrest
          rw [hrest] at hvalue
          refine ⟨fun log => (hfirst.attains log).bind ?_, fun cause herror => ?_⟩
          · rw [hempty, List.append_nil]
            exact hvalue.attains log
          · obtain rfl := Except.error.inj herror
            exact hvalue.reports abort rfl
      | ok output =>
          rw [hrest] at hvalue
          refine ⟨fun log => (hfirst.attains log).bind ?_, fun abort herror => by cases herror⟩
          rw [Except.bind, onto, ← List.append_assoc]
          exact hvalue.attains (log ++ found.2)

/-- A first step that writes nothing may be followed by any other. -/
theorem performs_quietly_bind {outcome : Except Abort α} {next : α → Recorder β}
    {rest : α → Except Abort (β × Log)} (hreports : Reports fits outcome)
    (hnext : ∀ value, outcome = .ok value → (next value).Performs fits (rest value)) :
    (quietly outcome >>= next).Performs fits (outcome >>= rest) := by
  cases outcome with
  | error abort =>
      have hstop : Performs fits (stop abort : Recorder α) (.error abort) :=
        performs_stop (hreports abort rfl)
      refine ⟨fun log => (hstop.attains log).bind_error, fun cause herror => ?_⟩
      obtain rfl := Except.error.inj herror
      exact hstop.reports abort rfl
  | ok value => exact hnext value rfl

/-- A last step that only shapes the result. -/
theorem Performs.map {recorder : Recorder α} {outcome : Except Abort (α × Log)}
    (hperforms : recorder.Performs fits outcome) (shape : α → β) :
    (recorder >>= fun value => pure (shape value)).Performs fits
      (outcome.map (fun found => (shape found.1, found.2))) := by
  cases outcome with
  | error abort =>
      refine ⟨fun log => (hperforms.attains log).bind_error, fun cause herror => ?_⟩
      obtain rfl := Except.error.inj herror
      exact hperforms.reports abort rfl
  | ok found =>
      refine ⟨fun log => (hperforms.attains log).bind .done, fun cause herror => ?_⟩
      cases herror

/-- No number has too many digits if all of them fit. -/
theorem Performs.ne_unwritable {recorder : Recorder α} {outcome : Except Abort (α × Log)}
    (hperforms : recorder.Performs fits outcome) (hfits : fits) {log after : Log} {abort : Abort}
    (herror : recorder.run log = .error abort after) : abort ≠ .unwritable := by
  rw [(hperforms.attains log).eq_of_fits hfits] at herror
  cases outcome with
  | error cause =>
      obtain rfl := (EStateM.Result.error.inj herror).1
      exact (hperforms.reports cause rfl hfits).ne_unwritable
  | ok found => cases herror

end Recorder

end TwoPass
