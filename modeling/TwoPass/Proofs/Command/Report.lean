import TwoPass.Proofs.Command.Ending
import TwoPass.Proofs.LongNumeral

/-!
# How often a warning is reported

The warnings of a run stand on standard error once each and in order, every one by itself or all of them
as the items of one complaint.  The exception is a run that has its program and fails afterwards: it
shows its warnings before the writing and again after the failure.
-/

namespace TwoPass

namespace Text

theorem withoutSurrogates_append (first second : Text) :
    withoutSurrogates (first ++ second) = withoutSurrogates first ++ withoutSurrogates second :=
  List.flatMap_append

theorem withoutSurrogates_of_encodable {text : Text} (hencodable : Utf8.Encodable text) :
    withoutSurrogates text = text := by
  induction text with
  | nil => rfl
  | cons c rest ih =>
      cases c with
      | surrogate offset => exact absurd List.mem_cons_self (hencodable offset)
      | char c =>
          have hrest : withoutSurrogates rest = rest :=
            ih ((Utf8.encodable_cons_char c rest).mp hencodable)
          calc withoutSurrogates (.char c :: rest)
            _ = .char c :: withoutSurrogates rest := rfl
            _ = .char c :: rest := by rw [hrest]

theorem withoutSurrogates_intercalate_newline (texts : List Text) :
    withoutSurrogates ([.char '\n'].intercalate texts) =
      [.char '\n'].intercalate (texts.map withoutSurrogates) := by
  induction texts with
  | nil => rfl
  | cons text more ih =>
      cases more with
      | nil => simp
      | cons next others =>
          have hnewline : withoutSurrogates [.char '\n'] = [.char '\n'] := rfl
          rw [List.intercalate_cons_cons, withoutSurrogates_append, withoutSurrogates_append,
            hnewline, ih]
          simp only [List.map_cons, List.intercalate_cons_cons]

end Text

namespace Command

namespace Output

/-- Standard error shows the text as it is. -/
structure Clear (text : Text) : Prop where
  escape_not_mem : .char '\x1b' ∉ text
  encodable : Utf8.Encodable text

theorem Clear.append {first second : Text} (hfirst : Clear first) (hsecond : Clear second) :
    Clear (first ++ second) := by
  refine ⟨?_, (Utf8.encodable_append first second).mpr ⟨hfirst.encodable, hsecond.encodable⟩⟩
  rw [List.mem_append]
  exact not_or.mpr ⟨hfirst.escape_not_mem, hsecond.escape_not_mem⟩

theorem clear_text {string : String} (hescape : .char '\x1b' ∉ string.text) : Clear string.text :=
  ⟨hescape, Utf8.encodable_text string⟩

theorem clear_ofNat (n : Nat) : Clear (Text.ofNat n) := by
  constructor
  · intro hmem
    obtain ⟨digit, hdigit, hescape⟩ := List.mem_map.mp hmem
    obtain rfl : digit = '\x1b' := CodePoint.char.inj hescape
    exact absurd (Nat.isDigit_of_mem_toDigits (by decide) (by decide) hdigit) (by decide)
  · simp [Utf8.Encodable, Text.ofNat]

theorem clear_counted (n : Nat) : Clear (Text.counted n "warning" "warnings") := by
  refine ((clear_ofNat n).append (clear_text (by decide))).append ?_
  split
  · exact clear_text (by decide)
  · exact clear_text (by decide)

theorem errorLine_append {front : Text} (hfront : Clear front) (rest : Text) :
    errorLine (front ++ rest) = front ++ errorLine rest := by
  rw [errorLine, Text.plain_append_of_not_mem hfront.escape_not_mem, Text.withoutSurrogates_append,
    Text.withoutSurrogates_of_encodable hfront.encodable, errorLine]

theorem errorLine_intercalate (lines : List Text) :
    errorLine ([.char '\n'].intercalate lines) = [.char '\n'].intercalate (lines.map errorLine) := by
  rw [errorLine, Text.plain_intercalate_newline, Text.withoutSurrogates_intercalate_newline,
    List.map_map]
  rfl

end Output

def heading (log : Log) : Text :=
  "Assembly failed:\nerror: " ++ Text.counted log.length "warning" "warnings" ++
    " treated as errors:\n"

/-- The complaint of a run that fails for its warnings, with every warning as an item. -/
def itemized (log : Log) : Text :=
  heading log ++ "\n".text.intercalate ((warningLines log).map fun line => "  ".text ++ line)

theorem clear_heading (log : Log) : Output.Clear (heading log) :=
  ((Output.clear_text (by decide)).append (Output.clear_counted log.length)).append
    (Output.clear_text (by decide))

theorem text_warningsPresent (log : Log) :
    Complaint.assembly.text (Error.text ⟨.warningsPresent log, none, none⟩) (some "Assembly") =
      heading log ++
        [.char '\n'].intercalate (log.map fun warning => "  ".text ++ warning.text) := by
  have htext : Error.text ⟨.warningsPresent log, none, none⟩ =
      "error: " ++ Error.Cause.message (.warningsPresent log) := List.intercalate_singleton
  have hcomplaint : ∀ message,
      Complaint.assembly.text message (some "Assembly") = "Assembly".text ++ " failed:\n" ++ message :=
    fun _ => rfl
  have hmessage : Error.Cause.message (.warningsPresent log) =
      Text.counted log.length "warning" "warnings" ++ " treated as errors:\n" ++
        [.char '\n'].intercalate (log.map fun warning => "  ".text ++ warning.text) := rfl
  have hjoin : "Assembly".text ++ " failed:\n" ++ "error: " = "Assembly failed:\nerror: ".text := by
    decide +kernel
  rw [hcomplaint, htext, ← List.append_assoc, hjoin, hmessage, heading]
  simp only [List.append_assoc]

theorem failureLines_warningsPresent (verbose : Bool) (log : Log) :
    failureLines verbose (.run (.error ⟨.warningsPresent log, none, none⟩)) = [itemized log] := by
  have hitems : (log.map fun warning => "  ".text ++ warning.text).map Output.errorLine =
      (warningLines log).map fun line => "  ".text ++ line := by
    rw [warningLines, List.map_map, List.map_map]
    exact List.map_congr_left fun warning _ =>
      Output.errorLine_append (Output.clear_text (by decide)) warning.text
  have hline : Output.errorLine (Complaint.assembly.text
      (Error.text ⟨.warningsPresent log, none, none⟩) (some "Assembly")) = itemized log := by
    rw [text_warningsPresent, Output.errorLine_append (clear_heading log),
      Output.errorLine_intercalate, hitems]
    rfl
  exact congrArg (fun line => [line]) hline

/-- Lines of standard error that report the warnings of a log, once each and in order. -/
inductive Reports (log : Log) : List Text → Prop
  /-- Every warning by itself. -/
  | lines : Reports log (warningLines log)
  /-- All of them as items. -/
  | items (hne : log ≠ []) : Reports log [itemized log]

theorem not_reports_twice {log : Log} (hne : log ≠ []) :
    ¬ Reports log (warningLines log ++ warningLines log) := by
  -- A report has as many lines as there are warnings, or one line; twice the warnings is neither.
  have hpos : 0 < log.length := List.length_pos_iff.mpr hne
  generalize htwice : warningLines log ++ warningLines log = reports
  have hlength : reports.length = log.length + log.length := by
    rw [← htwice, List.length_append, warningLines, List.length_map]
  rintro (_ | _)
  · rw [warningLines, List.length_map] at hlength
    omega
  · rw [List.length_singleton] at hlength
    omega

section Report

variable {σ : Type} [FileSystem σ] (system : σ) (invocation : Invocation)

/-- What comes in the way of a program that is there: the first delivery that fails, or a last line that
cannot be printed. -/
def Invocation.lateFailure? (program : Program) : Option Failure :=
  match (deliver invocation.options system (invocation.deliveries program)).2 with
  | some failure => some failure
  | none =>
      match Utf8.encode (Text.plain (completion invocation)) with
      | .error fault => some (.unencodable fault)
      | .ok _ => none

def Invocation.failure? : Option Failure :=
  match invocation.result system with
  | .error failure => some failure
  | .ok program => invocation.lateFailure? system program

/-- What standard error says about the failure behind all warnings.  A complaint that lists the warnings
says nothing else. -/
def Invocation.closing : List Text :=
  match invocation.failure? system with
  | none => []
  | some failure =>
      if listsWarnings failure then [] else failureLines invocation.verbose failure

/-- There is a program, and yet the invocation fails. -/
def Invocation.FailsLate : Prop :=
  ∃ program failure, invocation.result system = .ok program ∧
    invocation.lateFailure? system program = some failure

variable {system invocation}

theorem listsWarnings_of_announce {session : Session} {line : Text} {failure : Failure}
    (hannounce : session.announce line = .error failure) : listsWarnings failure = false := by
  unfold Session.announce at hannounce
  split at hannounce
  · split at hannounce
    · obtain rfl := Except.error.inj hannounce
      rfl
    · cases hannounce
  · cases hannounce

/-- Without a source there is nothing to warn about. -/
theorem Invocation.listsWarnings_of_source_error {failure : Failure}
    (hsource : invocation.source system = .error failure) : listsWarnings failure = false := by
  unfold Invocation.source at hsource
  split at hsource
  · rename_i other hannounce
    obtain rfl := Except.error.inj hsource
    exact listsWarnings_of_announce hannounce
  · cases hread : FileSystem.readFile system invocation.file with
    | error fault =>
        obtain rfl : Failure.file fault = failure := by simpa [hread] using hsource
        rfl
    | ok bytes =>
        cases hdecode : Utf8.decode bytes with
        | error fault =>
            obtain rfl : Failure.encoding fault = failure := by
              simpa [hread, hdecode, Except.mapError] using hsource
            rfl
        | ok text => simp [hread, hdecode, Except.mapError] at hsource

/-- Only a run that fails for its warnings lists them. -/
theorem Invocation.failure_of_listsWarnings {failure : Failure}
    (hresult : invocation.result system = .error failure) (hlists : listsWarnings failure = true) :
    invocation.log system ≠ [] ∧
      failure = .run (.error ⟨.warningsPresent (invocation.log system), none, none⟩) := by
  cases hsource : invocation.source system with
  | error other =>
      have hsame : invocation.result system = .error other := by
        rw [Invocation.result, Invocation.assembly, hsource]
        rfl
      obtain rfl := Except.error.inj (hsame.symm.trans hresult)
      rw [Invocation.listsWarnings_of_source_error hsource] at hlists
      contradiction
  | ok text =>
      rw [Invocation.result_of_source hsource] at hresult
      rw [Invocation.log_of_source hsource]
      cases houtcome : (Run.ofText invocation.options invocation.file text).outcome with
      | ok program => simp [houtcome, Except.mapError] at hresult
      | error abort =>
          obtain rfl : Failure.run abort = failure := by
            simpa [houtcome, Except.mapError] using hresult
          cases abort with
          | error report =>
              obtain ⟨hlog, rfl⟩ :=
                Run.eq_warningsPresent_of_category houtcome (by simpa [listsWarnings] using hlists)
              exact ⟨hlog, rfl⟩
          | _ => simp [listsWarnings] at hlists

theorem Invocation.closing_of_failure {failure : Failure}
    (hfailure : invocation.failure? system = some failure) :
    invocation.closing system =
      if listsWarnings failure then [] else failureLines invocation.verbose failure := by
  rw [Invocation.closing, hfailure]

theorem Invocation.failure?_of_ok {program : Program}
    (hresult : invocation.result system = .ok program) :
    invocation.failure? system = invocation.lateFailure? system program := by
  rw [Invocation.failure?, hresult]

theorem err_of_error {failure : Failure} (hresult : invocation.result system = .error failure) :
    ∃ reports, Reports (invocation.log system) reports ∧
      (execute system invocation).output.err =
        invocation.trace system ++ reports ++ invocation.closing system := by
  have hfailure : invocation.failure? system = some failure := by
    rw [Invocation.failure?, hresult]
  rw [(execute_of_error hresult).err_eq, Invocation.closing_of_failure hfailure]
  cases hlists : listsWarnings failure with
  | false => exact ⟨_, .lines, by simp⟩
  | true =>
      obtain ⟨hlog, rfl⟩ := Invocation.failure_of_listsWarnings hresult hlists
      exact ⟨_, .items hlog, by simp [failureLines_warningsPresent]⟩

/-- A failure behind the program is told behind the warnings, which are there twice. -/
theorem err_of_ok {program : Program} (hresult : invocation.result system = .ok program) :
    (execute system invocation).output.err =
      invocation.trace system ++
        (match invocation.lateFailure? system program with
          | some _ => warningLines (invocation.log system) ++ warningLines (invocation.log system)
          | none => warningLines (invocation.log system)) ++
        invocation.closing system := by
  have hdelivers := Invocation.delivers hresult
  rw [Invocation.closing, Invocation.failure?_of_ok hresult, Invocation.lateFailure?]
  cases hdelivered : deliver invocation.options system (invocation.deliveries program) with
  | mk after stop =>
      rw [hdelivered] at hdelivers
      cases stop with
      | some failure =>
          have hlists := hdelivers.listsWarnings_eq_false failure rfl
          rw [(execute_of_stop hresult hdelivered).err_eq]
          simp [hlists]
      | none =>
          rcases execute_of_delivered hresult hdelivered with
            ⟨fault, hline, hends⟩ | ⟨hencodable, hends⟩
          · rw [hends.err_eq]
            simp only [hline]
            simp [listsWarnings]
          · obtain ⟨bytes, hline⟩ :=
              (Utf8.exists_encode_iff _).mpr ((Text.encodable_plain_iff _).mpr hencodable)
            rw [hends.err_eq]
            simp only [hline]
            simp

end Report

end Command

/-- Standard error holds the trace of a verbose run, then the warnings of the run, then what else there
is to say about its failure.  The warnings are reported once each and in order unless the invocation
fails although there is a program; then all of them stand there twice.  Arguments that pass the checks
lead to such an invocation. -/
theorem Command.warnings_of_run {σ : Type} [FileSystem σ] (system : σ)
    (invocation : Command.Invocation) :
    (∃ reports, (Command.execute system invocation).output.err =
        invocation.trace system ++ reports ++ invocation.closing system ∧
      (Command.Reports (invocation.log system) reports ↔
        invocation.log system = [] ∨ ¬ invocation.FailsLate system) ∧
      (invocation.FailsLate system → reports =
        Command.warningLines (invocation.log system) ++
          Command.warningLines (invocation.log system))) ∧
    ∀ arguments, Command.accepted? system arguments = some invocation →
      Command.run system arguments = Command.execute system invocation := by
  refine ⟨?_, fun arguments haccepted => Command.run_of_accepted haccepted⟩
  by_cases hlate : invocation.FailsLate system
  · obtain ⟨program, failure, hresult, hfailure⟩ := hlate
    have herr := Command.err_of_ok hresult
    rw [hfailure] at herr
    refine ⟨_, herr, ⟨?_, ?_⟩, fun _ => rfl⟩
    · intro hreports
      by_contra hneither
      exact Command.not_reports_twice (not_or.mp hneither).1 hreports
    · rintro (hlog | hnot)
      · rw [hlog]
        exact .lines
      · exact absurd ⟨program, failure, hresult, hfailure⟩ hnot
  · suffices honce : ∃ reports, Command.Reports (invocation.log system) reports ∧
        (Command.execute system invocation).output.err =
          invocation.trace system ++ reports ++ invocation.closing system by
      obtain ⟨reports, hreports, herr⟩ := honce
      exact ⟨reports, herr, ⟨fun _ => Or.inr hlate, fun _ => hreports⟩,
        fun hcontra => absurd hcontra hlate⟩
    cases hresult : invocation.result system with
    | error failure => exact Command.err_of_error hresult
    | ok program =>
        have hnone : invocation.lateFailure? system program = none := by
          by_contra hsome
          obtain ⟨failure, hfailure⟩ := Option.ne_none_iff_exists'.mp hsome
          exact hlate ⟨program, failure, hresult, hfailure⟩
        have herr := Command.err_of_ok hresult
        rw [hnone] at herr
        exact ⟨_, .lines, herr⟩

/-- Two warnings count as errors, and are items of the complaint. -/
theorem Command.warnings_of_escalated_run :
    Command.Reports
      [⟨.addressTruncated none 100, some ⟨"a.asm", 1⟩⟩,
        ⟨.addressTruncated none 200, some ⟨"a.asm", 3⟩⟩]
      (Command.run (Store.holding "LDR 0,0,100\n\nLDR 0,0,200\n")
        ["a.asm", "a.lst", "a.load", "-W"]).output.err := by
  let store := Store.holding "LDR 0,0,100\n\nLDR 0,0,200\n"
  let invocation : Command.Invocation :=
    ⟨"a.asm", "a.lst", "a.load", none, false, true, false⟩
  obtain ⟨⟨reports, herr, hreports, -⟩, hrun⟩ := Command.warnings_of_run store invocation
  have hlog : invocation.log store =
      [⟨.addressTruncated none 100, some ⟨"a.asm", 1⟩⟩,
        ⟨.addressTruncated none 200, some ⟨"a.asm", 3⟩⟩] := by decide +kernel
  have hclosing : invocation.closing store = [] := by decide +kernel
  have htrace : invocation.trace store = [] := rfl
  have hlate : ¬ invocation.FailsLate store := by
    rintro ⟨program, failure, hresult, -⟩
    have hnone : (invocation.result store).toOption.isSome = false := by decide +kernel
    simp [hresult, Except.toOption] at hnone
  rw [hrun _ (by decide +kernel), herr, hclosing, htrace, List.nil_append, List.append_nil, ← hlog]
  exact hreports.mpr (Or.inr hlate)

/-- The listing has no directory to go to, and the one warning of the run stands there twice. -/
theorem Command.warnings_of_refused_listing :
    (Command.accepted? (Store.holding "LDR 0,0,100\n") ["a.asm", "no/a.lst", "a.load"]).map
        (fun invocation => invocation.log (Store.holding "LDR 0,0,100\n")) =
      some [⟨.addressTruncated none 100, some ⟨"a.asm", 1⟩⟩] ∧
    (Command.run (Store.holding "LDR 0,0,100\n") ["a.asm", "no/a.lst", "a.load"]).output.err =
      Command.warningLines [⟨.addressTruncated none 100, some ⟨"a.asm", 1⟩⟩] ++
        Command.warningLines [⟨.addressTruncated none 100, some ⟨"a.asm", 1⟩⟩] ++
        Command.failureLines false (.file (.system .notFound "no/a.lst")) := by
  decide +kernel

end TwoPass
