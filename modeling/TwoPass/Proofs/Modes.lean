import TwoPass.Proofs.Failure
import TwoPass.Proofs.Operand.Strictness
import TwoPass.Session

/-!
# Modes of a run

How a run ends in strict mode, and how it ends when warnings count as errors, can both be told from the
run in the default mode.  Warnings that count as errors only change what becomes of a finished program.
Strict reading ends the run where the default run warns of a shift flag for the first time, with what
was logged up to there.
-/

namespace TwoPass

/-- `before` is the log up to its first warning about a shift flag, and the run was aborted by an error
about that flag. -/
def Log.CutAtFlag (log before : Log) (abort : Abort) : Prop :=
  ∃ flag token place raw after, log = before ++ ⟨.unknownFlag flag token, some place⟩ :: after ∧
    before.FlagFree ∧ abort = .error ⟨.unknownFlag flag token, some place, some raw⟩

namespace Log

variable {log before : Log} {abort : Abort}

theorem CutAtFlag.append_left {first : Log} (hfirst : first.FlagFree)
    (hcut : log.CutAtFlag before abort) : (first ++ log).CutAtFlag (first ++ before) abort := by
  obtain ⟨flag, token, place, raw, after, rfl, hfree, habort⟩ := hcut
  exact ⟨flag, token, place, raw, after, (List.append_assoc _ _ _).symm, hfirst.append hfree, habort⟩

/-- A log is split in one way only at its first warning about a flag. -/
theorem FlagFree.split_unique {first second firstRest secondRest : Log} {warning other : Warning}
    (hfirst : first.FlagFree) (hsecond : second.FlagFree) (hwarning : warning.concernsFlag = true)
    (hother : other.concernsFlag = true)
    (hsplit : first ++ warning :: firstRest = second ++ other :: secondRest) :
    first = second ∧ warning = other := by
  have htake : ∀ {front rest : Log} {stop : Warning}, front.FlagFree → stop.concernsFlag = true →
      (front ++ stop :: rest).takeWhile (fun warning => !warning.concernsFlag) = front := by
    intro front rest stop hfront hstop
    rw [List.takeWhile_append_of_pos (fun warning hmem => by simp [hfront warning hmem])]
    simp [hstop]
  have heq : first = second := by
    rw [← htake hfirst hwarning, ← htake hsecond hother, hsplit]
  rw [heq] at hsplit
  exact ⟨heq, (List.cons.inj (List.append_cancel_left hsplit)).1⟩

end Log

theorem Value.flagFree_warnings (place : Place) (value : Value) (address : Int) :
    (value.warnings place address).FlagFree := by
  intro warning hmem
  rcases List.mem_append.mp hmem with hoverflow | htruncated
  · split at hoverflow
    · rw [List.mem_singleton.mp hoverflow]
      rfl
    · simp at hoverflow
  · split at htruncated
    · rw [List.mem_singleton.mp htruncated]
      rfl
    · simp at htruncated

namespace Encoding

/-- Laying operands out gives no warning about a flag. -/
theorem flagFree_of_layOut {table : SymbolTable} {record : Record} {opcode : BitVec 6}
    {operands : Operands} {word : Word} {log : Log}
    (hlayOut : layOut table record opcode operands = .ok (word, log)) : log.FlagFree := by
  obtain ⟨address, -, -, -, rfl⟩ := (layOut_eq_ok_iff _ _ _ _ _ _).mp hlayOut
  exact Value.flagFree_warnings _ _ _

/-- Operands that were read with a warning are those of a shift, and can always be laid out. -/
theorem exists_layOut_of_warned {context : OperandReader.Context} {instruction : Instruction}
    {text : Text} {operands : Operands} {log : Log}
    (hread : OperandReader.read context instruction text = .ok (operands, log)) (hne : log ≠ [])
    (table : SymbolTable) (record : Record) :
    ∃ result, layOut table record instruction.opcode operands = .ok result := by
  obtain ⟨hspelled, rfl⟩ := (OperandReader.read_eq_ok_iff _ _ _ _ _).mp hread
  have hformat : instruction.format = .shift := by
    by_contra hother
    apply hne
    unfold Operands.flagWarnings
    split
    · contradiction
    · rfl
  cases hspelled with
  | shift => exact ⟨_, rfl⟩
  | short hother | shortIndirect hother | direct hother | full hother | immediate hother
  | registers hother | device hother | bare hother =>
      rw [hformat] at hother
      contradiction

/-- Strict encoding of a record fails at the first flag that lenient encoding warns of. -/
theorem tightens_encode (table : SymbolTable) (record : Record) :
    Tightens (some record.place) (some record.raw) (encode table false record)
      (encode table true record) := by
  unfold encode
  split
  · apply Tightens.refl
    intro word log hencode
    unfold encodeData at hencode
    split at hencode
    · contradiction
    · rename_i value hvalue
      cases hresolve : resolve table record value with
      | error abort => simp [hresolve, Except.map] at hencode
      | ok address =>
          simp only [hresolve, Except.map, Except.ok.injEq, Prod.mk.injEq] at hencode
          rw [← hencode.2]
          exact Log.flagFree_nil
  · cases hoperation : record.operation with
    | none =>
        simp only [encodeInstruction, hoperation]
        exact .failed _
    | some mnemonic =>
        cases hinstruction : Instruction.ofMnemonic? mnemonic with
        | none =>
            simp only [encodeInstruction, hoperation, hinstruction]
            exact .failed _
        | some instruction =>
            simp only [encodeInstruction, hoperation, hinstruction]
            apply Tightens.andThen (OperandReader.tightens_read mnemonic _ _ instruction _)
            · intro operands word log hlayOut
              exact flagFree_of_layOut hlayOut
            · intro operands log hread hne
              exact exists_layOut_of_warned hread hne table record

/-- Strict encoding of records is lenient encoding up to the first warning about a flag. -/
theorem ofRecords_strict (table : SymbolTable) (records : List Record) :
    ((ofRecords table false records).log.FlagFree ∧
        ofRecords table true records = ofRecords table false records) ∨
      ∃ abort, (ofRecords table false records).log.CutAtFlag (ofRecords table true records).log
          abort ∧
        (ofRecords table true records).stop = some abort := by
  induction records with
  | nil => exact Or.inl ⟨Log.flagFree_nil, rfl⟩
  | cons record rest ih =>
      by_cases hoccupies : record.occupiesWord = true
      · have htightens := tightens_encode table record
        generalize hlenient : encode table false record = lenient at htightens
        generalize hstrict : encode table true record = strict at htightens
        simp only [ofRecords, hoccupies, ↓reduceIte, hlenient, hstrict]
        cases htightens with
        | failed abort => exact Or.inl ⟨Log.flagFree_nil, rfl⟩
        | @quiet word log hfree =>
            -- The line warns of no flag, so the records behind it decide.
            rcases ih with ⟨hrest, heq⟩ | ⟨abort, hcut, hstop⟩
            · exact Or.inl ⟨hfree.append hrest, by simp only [heq]⟩
            · exact Or.inr ⟨abort, hcut.append_left hfree, hstop⟩
        | refused word flag token more =>
            refine Or.inr ⟨_, ?_, rfl⟩
            exact ⟨flag, token, record.place, record.raw, _, rfl, Log.flagFree_nil, rfl⟩
      · simp only [ofRecords, hoccupies]
        exact ih

end Encoding

namespace Position

/-- The survey has nothing to say about flags. -/
theorem flagFree_surveyWarnings (file : Text) (position : Position) :
    (position.surveyWarnings file).FlagFree := by
  intro warning hmem
  rcases List.mem_append.mp hmem with hoverflow | hredefined
  · unfold overflowWarnings at hoverflow
    split at hoverflow
    · rw [List.mem_singleton.mp hoverflow]
      rfl
    · simp at hoverflow
  · unfold redefinitionWarnings at hredefined
    split at hredefined
    · simp at hredefined
    · unfold Definition.redefinitionWarnings at hredefined
      split at hredefined
      · simp at hredefined
      · split at hredefined
        · simp at hredefined
        · rw [List.mem_singleton.mp hredefined]
          rfl

end Position

namespace Source

/-- A survey, finished or not, is the survey behind the lines that were read. -/
theorem exists_survey_of_readSource (file : Text) (lines : List Text) :
    ∃ front, (Survey.readSource file lines).1 = survey file front := by
  rcases forall_or_first_not (P := Line.Readable) (lines.map Text.dropLineEnds) with
    hall | ⟨front, bad, after, hlines, hfront, hbad⟩
  · exact ⟨_, by rw [readSource_of_readable file hall]⟩
  · obtain ⟨abort, herror⟩ :=
      exists_error_of_not_readable hbad file (front.length + 1) (counter front)
    exact ⟨front, by rw [readSource_of_error hlines hfront herror]⟩

theorem flagFree_log_readSource (file : Text) (lines : List Text) :
    (Survey.readSource file lines).1.log.FlagFree := by
  obtain ⟨front, hfront⟩ := exists_survey_of_readSource file lines
  rw [hfront]
  intro warning hmem
  obtain ⟨position, -, hwarning⟩ := List.mem_flatMap.mp hmem
  exact position.flagFree_surveyWarnings file warning hwarning

end Source

namespace Run

/-- A strict run is the lenient run, or it ends where the lenient one first warns of a flag. -/
theorem ofLines_strict (verbose : Bool) (file : Text) (lines : List Text) :
    ((ofLines ⟨verbose, false, false⟩ file lines).log.FlagFree ∧
        ofLines ⟨verbose, true, false⟩ file lines = ofLines ⟨verbose, false, false⟩ file lines) ∨
      ∃ abort, (ofLines ⟨verbose, false, false⟩ file lines).log.CutAtFlag
          (ofLines ⟨verbose, true, false⟩ file lines).log abort ∧
        (ofLines ⟨verbose, true, false⟩ file lines).outcome = .error abort := by
  have hsurvey := Source.flagFree_log_readSource file lines
  unfold ofLines
  rcases hread : Survey.readSource file lines with ⟨survey, abort | records⟩
  · rw [hread] at hsurvey
    exact Or.inl ⟨hsurvey, rfl⟩
  · -- The survey does not look at flags, so the first warning about one is the encoding's.
    rw [hread] at hsurvey
    rcases Encoding.ofRecords_strict survey.table.close records with
      ⟨hfree, heq⟩ | ⟨abort, hcut, hstop⟩
    · left
      simp only [encode, heq]
      cases (Encoding.ofRecords survey.table.close false records).stop with
      | none => exact ⟨hsurvey.append hfree, rfl⟩
      | some abort => exact ⟨hsurvey.append hfree, rfl⟩
    · right
      refine ⟨abort, ?_⟩
      simp only [encode, hstop]
      cases (Encoding.ofRecords survey.table.close false records).stop with
      | none => exact ⟨hcut.append_left hsurvey, trivial⟩
      | some other => exact ⟨hcut.append_left hsurvey, trivial⟩

/-- What a run becomes when its warnings count as errors: a failure stays as it is, a program without
warnings too, and a program with warnings gives way to an error that carries all of them. -/
structure Escalates (run escalated : Run) : Prop where
  log_eq : escalated.log = run.log
  of_error : ∀ abort, run.outcome = .error abort → escalated.outcome = .error abort
  of_quiet : ∀ program, run.outcome = .ok program → run.log = [] → escalated.outcome = .ok program
  of_warned : ∀ program, run.outcome = .ok program → run.log ≠ [] →
    escalated.outcome = .error (.error ⟨.warningsPresent run.log, none, none⟩) ∧
      ∀ session : Session, (session.remember escalated).program = none

theorem escalates_ofLines (verbose strict : Bool) (file : Text) (lines : List Text) :
    (ofLines ⟨verbose, strict, false⟩ file lines).Escalates
      (ofLines ⟨verbose, strict, true⟩ file lines) := by
  have hjudge := ofLines_eq_judge ⟨verbose, strict, true⟩ file lines
  refine ⟨by rw [hjudge], ?_, ?_, ?_⟩
  · intro abort hrun
    rw [hjudge]
    simp only [hrun, Except.bind]
  · intro program hrun hquiet
    have hlog := (image_and_log_of_outcome hrun).2
    rw [hquiet] at hlog
    rw [hjudge]
    simp [hrun, Except.bind, judge, ← hlog]
  · intro program hrun hwarned
    have hlog := (image_and_log_of_outcome hrun).2
    have houtcome : (ofLines ⟨verbose, strict, true⟩ file lines).outcome =
        .error (.error ⟨.warningsPresent program.log, none, none⟩) := by
      rw [hlog] at hwarned
      rw [hjudge]
      simp [hrun, Except.bind, judge, hwarned]
    rw [hlog]
    refine ⟨houtcome, ?_⟩
    intro session
    rw [Session.remember, houtcome]
    rfl

end Run

/-- The modes of a run are determined by the run in the default mode.

* When warnings count as errors, only a program with warnings is affected: it gives way to an error that
  carries them all.
* In strict mode the run is the same if the log has no warning about a shift flag.  Otherwise it ends
  with an error of operand syntax at the line of the first such warning, and its log is what comes
  before that warning.
* When both apply, warnings count as errors in the strict run. -/
theorem Run.modes_of_default_run (verbose : Bool) (file : Text) (lines : List Text) :
    (Run.ofLines ⟨verbose, false, false⟩ file lines).Escalates
        (Run.ofLines ⟨verbose, false, true⟩ file lines) ∧
      ((Run.ofLines ⟨verbose, false, false⟩ file lines).log.FlagFree →
        Run.ofLines ⟨verbose, true, false⟩ file lines =
          Run.ofLines ⟨verbose, false, false⟩ file lines) ∧
      (∀ before warning after,
        (Run.ofLines ⟨verbose, false, false⟩ file lines).log = before ++ warning :: after →
        before.FlagFree → warning.concernsFlag = true →
          (Run.ofLines ⟨verbose, true, false⟩ file lines).log = before ∧
          ∃ place raw, warning.place = some place ∧
            (Run.ofLines ⟨verbose, true, false⟩ file lines).StopsAt place raw .operandSyntax) ∧
      (Run.ofLines ⟨verbose, true, false⟩ file lines).Escalates
        (Run.ofLines ⟨verbose, true, true⟩ file lines) := by
  refine ⟨Run.escalates_ofLines _ _ _ _, ?_, ?_, Run.escalates_ofLines _ _ _ _⟩
  · intro hfree
    rcases Run.ofLines_strict verbose file lines with ⟨-, heq⟩ | ⟨abort, hcut, -⟩
    · exact heq
    · obtain ⟨flag, token, place, raw, after, hlog, -⟩ := hcut
      have hnone := hfree ⟨.unknownFlag flag token, some place⟩ (by rw [hlog]; simp)
      contradiction
  · intro before warning after hsplit hbefore hwarning
    rcases Run.ofLines_strict verbose file lines with ⟨hfree, -⟩ | ⟨abort, hcut, houtcome⟩
    · have hnone := hfree warning (by rw [hsplit]; simp)
      rw [hwarning] at hnone
      contradiction
    · obtain ⟨flag, token, place, raw, rest, hlog, hfront, rfl⟩ := hcut
      obtain ⟨rfl, rfl⟩ := hbefore.split_unique hfront hwarning rfl (hsplit.symm.trans hlog)
      exact ⟨rfl, place, raw, rfl, ⟨_, rfl, houtcome⟩⟩

/-- A label that moves, an unknown flag and a register that does not exist: the default run goes on to
the register, the strict run ends at the flag and keeps the warning about the label. -/
theorem Run.modes_of_unknown_flag :
    (Run.ofLines ⟨false, false, false⟩ "a.asm".text
        ["x: HLT".text, "x: SRC 1,2,L,Q".text, "AIR 9,1".text]).StopsAt
          ⟨"a.asm".text, 3⟩ "AIR 9,1".text .operandSyntax ∧
      (Run.ofLines ⟨false, true, false⟩ "a.asm".text
        ["x: HLT".text, "x: SRC 1,2,L,Q".text, "AIR 9,1".text]).log =
          [⟨.redefined "x".text 0 1 (some 1), some ⟨"a.asm".text, 2⟩⟩] ∧
      ∃ place raw, place.line = 2 ∧
        (Run.ofLines ⟨false, true, true⟩ "a.asm".text
          ["x: HLT".text, "x: SRC 1,2,L,Q".text, "AIR 9,1".text]).StopsAt place raw
            .operandSyntax := by
  obtain ⟨-, -, hstrict, hboth⟩ := Run.modes_of_default_run false "a.asm".text
    ["x: HLT".text, "x: SRC 1,2,L,Q".text, "AIR 9,1".text]
  obtain ⟨hlog, place, raw, hplace, cause, hcategory, houtcome⟩ :=
    hstrict [⟨.redefined "x".text 0 1 (some 1), some ⟨"a.asm".text, 2⟩⟩]
      ⟨.unknownFlag .kind "Q".text, some ⟨"a.asm".text, 2⟩⟩ [] (by decide +kernel)
      (by decide +kernel) rfl
  refine ⟨⟨.outOfRange .register "9".text, rfl, ?_⟩, hlog, place, raw, ?_, cause, hcategory,
    hboth.of_error _ houtcome⟩
  · decide +kernel
  · rw [← Option.some.inj hplace]

end TwoPass
