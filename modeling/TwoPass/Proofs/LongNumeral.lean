import TwoPass.Proofs.Failure

/-!
# Runs that give up

A numeral of more than `Text.maxDigits` digits is recognised but not converted, and a run that comes to
one gives up without an error of its own.  Which sources this happens to is said here line by line.
Every other run settles its source: it ends with a program, with an error that names a line, or, if
warnings count as errors, with an error that lists them.
-/

namespace TwoPass

/-- Assembling the source comes to a numeral that is too long. -/
inductive Source.MeetsLongNumeral (strict : Bool) (source : List Text) : Prop
  /-- A directive has the numeral, and every line before it can be read. -/
  | argument {front after : List Text} {bad : Text} (hsource : source = front ++ bad :: after)
      (hfront : ∀ raw ∈ front, Line.Readable raw) (hlong : Line.LongArgument bad)
  /-- Every line can be read, and an instruction has the numeral with no fault on a line before it. -/
  | operand {front after : List Text} {bad : Text} (hsource : source = front ++ bad :: after)
      (hreadable : ∀ raw ∈ source, Line.Readable raw)
      (hfront : ∀ raw ∈ front, ∀ category, ¬ Line.Fault strict source raw category)
      (hlong : Line.LongOperand bad)

/-- Without a numeral that is too long there is none to come to. -/
theorem Source.not_meetsLongNumeral {strict : Bool} {source : List Text}
    (hconvertible : ∀ raw ∈ source, ∀ token ∈ Text.fields (Line.argument raw),
      Text.Convertible token) : ¬ MeetsLongNumeral strict source := by
  have hbad : ∀ {front after : List Text} {bad : Text}, source = front ++ bad :: after →
      bad ∈ source := by
    rintro front after bad rfl
    exact List.mem_append_right front List.mem_cons_self
  rintro (⟨hsource, -, hlong⟩ | ⟨hsource, -, -, hlong⟩)
  · exact (Line.converts_of_fields (hconvertible _ (hbad hsource))).not_longArgument hlong
  · exact Line.not_longOperand_of_fields (hconvertible _ (hbad hsource)) hlong

theorem Line.Fault.category_ne {strict : Bool} {source : List Text} {raw : Text}
    {category : Error.Category} (hfault : Line.Fault strict source raw category) :
    category ≠ .warningsPresent := by
  cases hfault <;> simp

namespace Run

/-- The run does not leave open what is wrong with its source, if anything is. -/
inductive Settles (options : Options) (file : Text) (source : List Text) (run : Run) : Prop
  | assembled {program : Program} (houtcome : run.outcome = .ok program)
  /-- An error names a line and shows it. -/
  | refused {front after : List Text} {bad : Text} {category : Error.Category}
      (hsource : source = front ++ bad :: after) (hcategory : category ≠ .warningsPresent)
      (hstops : run.StopsAt ⟨file, front.length + 1⟩ bad category)
  /-- Warnings count as errors, and the error lists them. -/
  | escalated (hwarnings : options.warningsAsErrors = true) (hlog : run.log ≠ [])
      (houtcome : run.outcome = .error (.error ⟨.warningsPresent run.log, none, none⟩))

variable {options : Options} {lines : List Text}

/-- A run that comes to a numeral that is too long gives up. -/
theorem exists_numeral_of_meets
    (hmeets : Source.MeetsLongNumeral options.strictFlags (lines.map Text.dropLineEnds))
    (file : Text) : ∃ fault, (ofLines options file lines).outcome = .error (.numeral fault) := by
  cases hmeets with
  | @argument front after bad hsource hfront hlong =>
      obtain ⟨fault, hread⟩ := Line.read_of_longArgument hlong file (front.length + 1)
        (Source.counter front)
      exact ⟨fault, by rw [ofLines, Source.readSource_of_error hsource hfront hread]⟩
  | @operand front after bad hsource hreadable hfront hlong =>
      have hsound : ∀ raw ∈ front, Line.Sound raw := by
        intro raw hraw
        refine (hreadable raw ?_).1
        rw [hsource]
        exact List.mem_append_left _ hraw
      obtain ⟨fault, hencode⟩ := Encoding.encode_of_longOperand ⟨front, bad⟩ hlong
        (Source.table file (lines.map Text.dropLineEnds)) options.strictFlags file
      have hstop : (encoding options file (lines.map Text.dropLineEnds)).stop =
          some (.numeral fault) := by
        rw [stop_of_front hsource hsound hfront, Source.positionsFrom, List.map_cons]
        exact Encoding.stop_of_error ((Line.takesWord_iff bad).mpr (Or.inr hlong.1)) hencode _
      exact ⟨fault, by rw [ofLines_of_readable hreadable, outcome_encode, hstop]⟩

/-- A source without fault is assembled, and refused only for its warnings. -/
theorem settles_of_not_fault
    (hreadable : ∀ raw ∈ lines.map Text.dropLineEnds, Line.Readable raw)
    (hnone : ∀ raw ∈ lines.map Text.dropLineEnds, ∀ category,
      ¬ Line.Fault options.strictFlags (lines.map Text.dropLineEnds) raw category) (file : Text) :
    (ofLines options file lines).Settles options file (lines.map Text.dropLineEnds) := by
  obtain ⟨program, hlenient⟩ : ∃ program,
      (ofLines { options with warningsAsErrors := false } file lines).outcome = .ok program :=
    exists_program_of_readable rfl hreadable hnone
  have hlog : (ofLines options file lines).log = program.log := by
    rw [ofLines_eq_judge]
    exact (image_and_log_of_outcome hlenient).2
  have houtcome : (ofLines options file lines).outcome = judge options program := by
    rw [ofLines_eq_judge, hlenient]
    rfl
  by_cases hescalates : options.warningsAsErrors = true ∧ program.log ≠ []
  · refine .escalated hescalates.1 (hlog ▸ hescalates.2) ?_
    rw [houtcome, hlog]
    exact if_pos (by simpa using hescalates)
  · exact .assembled (houtcome.trans (if_neg (by simpa using hescalates)))

/-- A run that comes to no numeral that is too long settles its source. -/
theorem settles_of_not_meets
    (hnot : ¬ Source.MeetsLongNumeral options.strictFlags (lines.map Text.dropLineEnds))
    (file : Text) :
    (ofLines options file lines).Settles options file (lines.map Text.dropLineEnds) := by
  -- The first line that cannot be read decides, or else the first line with a fault.
  rcases Source.forall_or_first_not (P := Line.Readable) (lines.map Text.dropLineEnds) with
    hreadable | ⟨front, bad, after, hsource, hfront, hbad⟩
  · rcases Source.forall_or_first_not
      (P := fun raw => ∀ category,
        ¬ Line.Fault options.strictFlags (lines.map Text.dropLineEnds) raw category)
      (lines.map Text.dropLineEnds) with
      hnone | ⟨front, bad, after, hsource, hfront, hbad⟩
    · exact settles_of_not_fault hreadable hnone file
    · obtain ⟨category, hfault⟩ := not_forall_not.mp hbad
      exact .refused hsource hfault.category_ne (stopsAt_of_readable hsource hreadable hfront hfault
        fun hlong => hnot (.operand hsource hreadable hfront hlong))
  · exact .refused hsource (by simp) (stopsAt_of_not_readable hsource hfront hbad
      fun hlong => hnot (.argument hsource hfront hlong))

/-- An error about warnings lists those of the run. -/
theorem eq_warningsPresent_of_category {file : Text} {report : Error}
    (houtcome : (ofLines options file lines).outcome = .error (.error report))
    (hcategory : report.cause.category = .warningsPresent) :
    (ofLines options file lines).log ≠ [] ∧
      report = ⟨.warningsPresent (ofLines options file lines).log, none, none⟩ := by
  have hnot : ¬ Source.MeetsLongNumeral options.strictFlags (lines.map Text.dropLineEnds) := by
    intro hmeets
    obtain ⟨fault, hnumeral⟩ := exists_numeral_of_meets hmeets file
    simp [houtcome] at hnumeral
  cases settles_of_not_meets hnot file with
  | assembled hok => simp [houtcome] at hok
  | refused _ hother hstops =>
      obtain ⟨cause, rfl, hstop⟩ := hstops
      obtain rfl : report = ⟨cause, some _, some _⟩ := by simpa [houtcome] using hstop
      exact absurd hcategory hother
  | escalated _ hlog hlisted =>
      exact ⟨hlog, by simpa [houtcome] using hlisted⟩

end Run

end TwoPass
