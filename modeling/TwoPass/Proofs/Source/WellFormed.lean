import TwoPass.Proofs.Image.Recorder
import TwoPass.Proofs.Source.Counterpart

/-!
# What the first pass promises to the second

A record could say things that do not fit together: a data line without value, a word line of another
kind, an instruction without operation.  The records of lines that have been read do not.  So of
everything that can stop the second pass only the faults of operations, operands and labels are left.
-/

namespace TwoPass

/-- The parts of a record fit its kind, and its texts are of the form they are read in. -/
structure Record.WellFormed (record : Record) : Prop where
  occupiesWord_iff : record.occupiesWord = true ↔ record.kind = .data ∨ record.kind = .instruction
  isSome_data_iff : record.data.isSome = true ↔ record.kind = .data
  isName_data : ∀ name, record.data = some (.label name) → Text.isName name = true
  isSome_operation_iff : record.operation.isSome = true ↔
    record.kind = .origin ∨ record.kind = .data ∨ record.kind = .instruction
  operation_ne_nil : ∀ operation ∈ record.operation, operation ≠ []
  operation_of_instruction : record.kind = .instruction → ∀ operation ∈ record.operation,
    operation ≠ originKeyword ∧ operation ≠ dataKeyword ∧ ∀ c ∈ operation, Text.isBlank c = false
  semicolon_not_mem_operands : .char ';' ∉ record.operands
  trim_operands : Text.trim record.operands = record.operands
  isName_label : ∀ label ∈ record.label, Text.isName label = true
  isSome_label : record.kind = .labelOnly → record.label.isSome = true
  label_eq_none : record.kind = .blank → record.label = none
  address_nonneg : 0 ≤ record.address
  address_le : record.kind = .origin → record.address ≤ 65535

namespace Line

variable {raw : Text}

theorem firstWord_trim_ne_nil {text : Text} (hne : Text.trim text ≠ []) :
    Text.firstWord (Text.trim text) ≠ [] := by
  cases htrim : Text.trim text with
  | nil => exact absurd htrim hne
  | cons c rest => simp [Text.firstWord, Text.isBlank_of_trim_eq_cons htrim]

/-- An operation is not empty, and neither is its keyword. -/
theorem keyword_ne_nil (hkind : kind raw = .instruction) : keyword raw ≠ [] := by
  apply Text.upper_ne_nil
  apply firstWord_trim_ne_nil
  intro hbody
  have hempty : (body raw).isEmpty = true := by rw [body, hbody]; rfl
  rw [kind, if_pos hempty] at hkind
  split at hkind <;> cases hkind

theorem isBlank_of_mem_keyword (raw : Text) : ∀ c ∈ keyword raw, Text.isBlank c = false := by
  apply Text.isBlank_of_mem_upper
  intro c hmem
  simpa using List.mem_takeWhile_imp hmem

theorem splitLabel_subset (code : Text) : (Record.splitLabel code).2 ⊆ code := by
  cases hlabel : (Record.splitLabel code).1 with
  | none =>
      rw [splitLabel_of_none hlabel]
      exact List.Subset.refl code
  | some label =>
      obtain ⟨indentation, hcode, -⟩ :=
        (splitLabel_eq_some_iff code label _).mp (Prod.ext hlabel rfl)
      intro c hmem
      rw [hcode]
      simp [hmem]

theorem argument_subset (raw : Text) : argument raw ⊆ code raw := by
  intro c hmem
  have hbody : c ∈ body raw :=
    (List.dropWhile_suffix _).subset (Text.trim_subset _ hmem)
  exact splitLabel_subset _ (Text.trim_subset _ hbody)

theorem semicolon_not_mem_argument (raw : Text) : .char ';' ∉ argument raw := by
  intro hmem
  have hcode := argument_subset raw hmem
  rw [code_eq_takeWhile] at hcode
  simpa using List.mem_takeWhile_imp hcode

theorem keyword_ne_originKeyword (hkind : kind raw = .instruction) :
    keyword raw ≠ Record.originKeyword := by
  intro hkeyword
  rw [kind, hkeyword] at hkind
  split at hkind
  · split at hkind <;> cases hkind
  · cases hkind

theorem isSome_label?_of_labelOnly (hkind : kind raw = .labelOnly) :
    (label? raw).isSome = true := by
  rw [kind] at hkind
  split at hkind
  · split at hkind
    · assumption
    · cases hkind
  · split at hkind
    · cases hkind
    · split at hkind <;> cases hkind

/-- The record of a line with a sound argument is well-formed, at any counter that is not negative. -/
theorem wellFormed_record (hsound : Sound raw) (file : Text) (number : Int) {counter : Int}
    (hcounter : 0 ≤ counter) : (record file raw number counter).WellFormed where
  occupiesWord_iff := takesWord_iff raw
  isSome_data_iff := by
    by_cases hkind : kind raw = .data
    · simp only [Sound, hkind] at hsound
      simp [record, hkind, (ofToken?_isSome_iff _).mpr hsound]
    · simp [record, hkind]
  isName_data := by
    intro name hdata
    by_cases hkind : kind raw = .data
    · simp only [record, hkind, ↓reduceIte] at hdata
      exact Value.isName_of_ofToken? hdata
    · simp [record, hkind] at hdata
  isSome_operation_iff := by
    cases hkind : kind raw <;> simp [record, recordedOperation?, hkind]
  operation_ne_nil := by
    intro operation hoperation
    have hrecorded : recordedOperation? raw = some operation := hoperation
    cases hkind : kind raw with
    | blank => simp [recordedOperation?, hkind] at hrecorded
    | labelOnly => simp [recordedOperation?, hkind] at hrecorded
    | origin =>
        obtain rfl : Record.originKeyword = operation := by
          simpa [recordedOperation?, hkind] using hrecorded
        decide
    | data =>
        obtain rfl : "Data".text = operation := by
          simpa [recordedOperation?, hkind] using hrecorded
        decide
    | instruction =>
        obtain rfl : keyword raw = operation := by
          simpa [recordedOperation?, hkind] using hrecorded
        exact keyword_ne_nil hkind
  operation_of_instruction := by
    intro hkind operation hoperation
    have hrecorded : recordedOperation? raw = some operation := hoperation
    rw [recordedOperation?, show kind raw = .instruction from hkind] at hrecorded
    obtain rfl := Option.some.inj hrecorded
    exact ⟨keyword_ne_originKeyword hkind, keyword_ne_of_instruction hkind,
      isBlank_of_mem_keyword raw⟩
  semicolon_not_mem_operands := semicolon_not_mem_argument raw
  trim_operands := trim_argument raw
  isName_label := fun label hlabel => isName_of_label? hlabel
  isSome_label := isSome_label?_of_labelOnly
  label_eq_none := label?_of_blank
  address_nonneg := by
    rw [record]
    split
    · exact Source.origin_nonneg raw
    · exact hcounter
  address_le := by
    intro hkind
    have horigin : kind raw = .origin := hkind
    simp only [Sound, horigin] at hsound
    have hlast : origin raw ≤ 65535 := hsound.2
    simpa [record, horigin] using hlast

end Line

/-- The records of lines that have been read are numbered in order, and all of them are well-formed. -/
theorem Survey.wellFormed_of_readFrom {file : Text} {survey after : Survey} {line counter : Int}
    {lines : List Text} {records : List Record} (hcounter : 0 ≤ counter)
    (hread : readFrom file survey line counter lines = (after, .ok records)) :
    records.length = lines.length ∧
      ∀ (k : Nat) (record : Record), records[k]? = some record →
        record.line = line + k ∧ record.WellFormed := by
  -- The counter passed on is the address of a well-formed record, or the one behind it.
  induction lines generalizing survey after line counter records with
  | nil =>
      obtain ⟨-, rfl⟩ : survey = after ∧ [] = records := by simpa [readFrom] using hread
      simp
  | cons raw rest ih =>
      rcases hline : survey.readLine file raw line counter with ⟨next, outcome⟩
      cases outcome with
      | error abort =>
          rw [readFrom_cons_of_error hline] at hread
          cases (Prod.mk.inj hread).2
      | ok record =>
          obtain ⟨hsound, -, hrecord⟩ := Line.sound_of_read (of_readLine_eq_ok hline).1
          have hwellFormed : record.WellFormed := by
            rw [hrecord]
            exact Line.wellFormed_record hsound file line hcounter
          have hnext : 0 ≤ record.next := by
            have haddress := hwellFormed.address_nonneg
            rw [Record.next]
            split <;> omega
          rw [readFrom_cons_of_ok hline] at hread
          rcases hrest : readFrom file next (line + 1) record.next rest with ⟨last, outcome⟩
          rw [hrest] at hread
          cases outcome with
          | error abort => cases (Prod.mk.inj hread).2
          | ok others =>
              obtain rfl : record :: others = records := Except.ok.inj (Prod.mk.inj hread).2
              obtain ⟨hlength, hothers⟩ := ih hnext hrest
              refine ⟨by simp [hlength], ?_⟩
              intro k other hother
              cases k with
              | zero =>
                  obtain rfl : record = other := by simpa using hother
                  refine ⟨?_, hwellFormed⟩
                  rw [hrecord]
                  simp [Line.record]
              | succ k =>
                  obtain ⟨hnumber, hformed⟩ := hothers k other (by simpa using hother)
                  refine ⟨?_, hformed⟩
                  rw [hnumber]
                  push_cast
                  omega

/-- A fault of an operation, of operands or of a label, or a numeral that is too long. -/
def Abort.IsFault : Abort → Prop
  | .error report =>
      report.cause.category = .unknownOpcode ∨ report.cause.category = .operandSyntax ∨
        report.cause.category = .undefinedLabel
  | .numeral _ => True
  | _ => False

namespace Encoding

variable {table : SymbolTable} {strict : Bool} {record : Record} {abort : Abort}

theorem isFault_of_resolve {value : Value} (herror : resolve table record value = .error abort) :
    abort.IsFault := by
  cases value with
  | literal number => cases herror
  | label name =>
      rw [resolve, SymbolTable.resolve] at herror
      cases haddress : table.address? name with
      | some address => simp [haddress] at herror
      | none =>
          simp only [haddress, Except.error.injEq] at herror
          rw [← herror]
          exact Or.inr (Or.inr rfl)

theorem isFault_of_operandAddress {value : Value}
    (herror : operandAddress table record value = .error abort) : abort.IsFault := by
  rw [operandAddress, bind_eq_error_iff] at herror
  rcases herror with hresolve | ⟨address, -, hnegative⟩
  · exact isFault_of_resolve hresolve
  · split at hnegative
    · rw [← Except.error.inj hnegative]
      exact Or.inr (Or.inl rfl)
    · cases hnegative

theorem isFault_of_read {context : OperandReader.Context} {instruction : Instruction} {text : Text}
    (herror : OperandReader.read context instruction text = .error abort) : abort.IsFault := by
  have hreads := OperandReader.reads_read context text instruction
  by_cases hlong : instruction.LongOperand text
  · obtain ⟨fault, hfault⟩ := hreads.of_long hlong
    obtain rfl := Except.error.inj (hfault.symm.trans herror)
    exact trivial
  · obtain ⟨cause, hcategory, -, rfl⟩ := hreads.of_short hlong abort herror
    exact Or.inr (Or.inl hcategory)

/-- A record with an operation can only stop the encoding with a fault, unless it is a data line. -/
theorem isFault_of_encodeInstruction
    (herror : encodeInstruction table strict record = .error abort) {mnemonic : Text}
    (hoperation : record.operation = some mnemonic) : abort.IsFault := by
  rw [encodeInstruction, hoperation] at herror
  cases hfound : Instruction.ofMnemonic? mnemonic with
  | none =>
      simp only [hfound, Except.error.injEq] at herror
      rw [← herror]
      exact Or.inl rfl
  | some instruction =>
      simp only [hfound, bind_eq_error_iff, layOut_eq, map_eq_error_iff] at herror
      rcases herror with hread | ⟨operands, -, hlayOut | ⟨output, -, hresult⟩⟩
      · exact isFault_of_read hread
      · exact isFault_of_operandAddress hlayOut
      · cases hresult

/-- A well-formed word record can only stop the encoding with a fault. -/
theorem isFault_of_encode (hwellFormed : record.WellFormed) (hoccupies : record.occupiesWord = true)
    (herror : encode table strict record = .error abort) : abort.IsFault := by
  rcases hwellFormed.occupiesWord_iff.mp hoccupies with hkind | hkind
  · obtain ⟨value, hvalue⟩ := Option.isSome_iff_exists.mp (hwellFormed.isSome_data_iff.mpr hkind)
    rw [encode, if_pos hkind, encodeData, hvalue, map_eq_error_iff] at herror
    exact isFault_of_resolve herror
  · have hsome := hwellFormed.isSome_operation_iff.mpr (Or.inr (Or.inr hkind))
    obtain ⟨mnemonic, hmnemonic⟩ := Option.isSome_iff_exists.mp hsome
    have hdata : record.kind ≠ .data := by simp [hkind]
    rw [encode, if_neg hdata] at herror
    exact isFault_of_encodeInstruction herror hmnemonic

end Encoding

/-- An encoding of well-formed records is stopped by one of them, with a fault if the number of its line
and the table can be written. -/
theorem Recorder.isFault_of_encodeAll {table : SymbolTable} {strict : Bool} {log : Log}
    {records : List Record} (hwellFormed : ∀ record ∈ records, record.WellFormed) {abort : Abort}
    (hstop : (encodeAll table strict log records).stop = some abort) :
    ∃ bad ∈ records, (abort ≠ .unwritable → abort.IsFault) ∧
      (table.Fits → Text.Writable bad.line → abort ≠ .unwritable) := by
  obtain ⟨front, bad, rest, before, rfl, -, hoccupies, hbad⟩ :=
    encodeFrom_of_stop (congrArg (Encoding.mk _ _) hstop)
  have hperforms := performs_encode table strict bad
  refine ⟨bad, by simp, ?_, fun htable hline => hperforms.ne_unwritable ⟨hline, htable⟩ hbad⟩
  intro hwritten
  have hexpected := (hperforms.attains before).eq_of_error hbad hwritten
  cases houtcome : Encoding.encode table strict bad with
  | ok output =>
      rw [houtcome] at hexpected
      cases hexpected
  | error cause =>
      rw [houtcome] at hexpected
      obtain ⟨rfl, -⟩ := EStateM.Result.error.inj hexpected
      exact Encoding.isFault_of_encode (hwellFormed bad (by simp)) hoccupies houtcome

/-- Lines that have all been read give one record each, numbered from one and well-formed.  A word record
among them is a data line with its value or an instruction with its operation, and encoding them can
only end with a fault of an operation, of operands or of a label, or on a number with too many digits.
Such a number is a numeral of the source unless the table holds it or the lines are that many. -/
theorem Survey.records_of_read {file : Text} {survey after : Survey} {lines : List Text}
    {records : List Record}
    (hread : readFrom file survey 1 0 (lines.map Text.dropLineEnds) = (after, .ok records)) :
    records.length = lines.length ∧
    (∀ (k : Nat) (record : Record), records[k]? = some record →
      record.line = k + 1 ∧ record.WellFormed) ∧
    (∀ record ∈ records, record.occupiesWord = true →
      (record.kind = .data ∧ ∃ value, record.data = some value) ∨
        (record.kind = .instruction ∧ ∃ mnemonic, record.operation = some mnemonic)) ∧
    ∀ table strict log abort, (Recorder.encodeAll table strict log records).stop = some abort →
      (abort.IsFault ∨ abort = .unwritable) ∧
        (table.Fits → Text.Writable lines.length → abort.IsFault) := by
  obtain ⟨hlength, hrecords⟩ := wellFormed_of_readFrom (Int.le_refl 0) hread
  have hwellFormed : ∀ record ∈ records, record.WellFormed := by
    intro record hmem
    obtain ⟨k, hk⟩ := List.mem_iff_getElem?.mp hmem
    exact (hrecords k record hk).2
  refine ⟨by simpa using hlength, ?_, ?_, ?_⟩
  · intro k record hk
    obtain ⟨hline, hformed⟩ := hrecords k record hk
    exact ⟨hline.trans (Int.add_comm 1 k), hformed⟩
  · intro record hmem hoccupies
    have hformed := hwellFormed record hmem
    rcases hformed.occupiesWord_iff.mp hoccupies with hkind | hkind
    · exact Or.inl ⟨hkind, Option.isSome_iff_exists.mp (hformed.isSome_data_iff.mpr hkind)⟩
    · have hsome := hformed.isSome_operation_iff.mpr (Or.inr (Or.inr hkind))
      exact Or.inr ⟨hkind, Option.isSome_iff_exists.mp hsome⟩
  · intro table strict log abort hstop
    obtain ⟨bad, hmem, hwritten, hwritable⟩ := Recorder.isFault_of_encodeAll hwellFormed hstop
    refine ⟨?_, fun htable hlines => hwritten (hwritable htable ?_)⟩
    · by_cases hunwritable : abort = .unwritable
      · exact Or.inr hunwritable
      · exact Or.inl (hwritten hunwritable)
    · obtain ⟨k, hk⟩ := List.mem_iff_getElem?.mp hmem
      have hposition : k < records.length := (List.getElem?_eq_some_iff.mp hk).1
      rw [hlength, List.length_map] at hposition
      rw [(hrecords k bad hk).1]
      exact hlines.of_le (by omega) (by omega)

/-- Lines of every kind.  The operation of the fifth starts with a long `s` and is `STR`; the last one
has an operation that does not exist. -/
def Survey.variedLines : List Text :=
  ["; x: HLT".text, " \tA1:".text, "B: lOc\t65535 ; a;b\n".text, "C:Data A1;".text,
    "ſtr 0 , 1, C;x".text, "Q".text]

theorem Survey.records_of_read_variedLines :
    ∃ after records,
      readFrom "a.asm".text .start 1 0 (variedLines.map Text.dropLineEnds) =
        (after, .ok records) ∧
      records.map Record.kind =
        [.blank, .labelOnly, .origin, .data, .instruction, .instruction] ∧
      (∀ (k : Nat) (record : Record), records[k]? = some record →
        record.line = k + 1 ∧ record.WellFormed) ∧
      ∃ abort, (Recorder.encodeAll after.table.close false after.log records).stop = some abort ∧
        abort.IsFault := by
  obtain ⟨after, records, hread, hkinds, hfits, hstop⟩ :
      ∃ after records,
        readFrom "a.asm".text .start 1 0 (variedLines.map Text.dropLineEnds) =
          (after, .ok records) ∧
        records.map Record.kind =
          [.blank, .labelOnly, .origin, .data, .instruction, .instruction] ∧
        after.table.close.Fits ∧
        (Recorder.encodeAll after.table.close false after.log records).stop.isSome = true :=
    ⟨_, _, rfl, rfl, by decide +kernel, by decide +kernel⟩
  obtain ⟨abort, habort⟩ := Option.isSome_iff_exists.mp hstop
  obtain ⟨-, hrecords, -, hfault⟩ := records_of_read hread
  have hlines : Text.Writable variedLines.length := by decide +kernel
  exact ⟨after, records, hread, hkinds, hrecords, abort, habort,
    (hfault _ _ _ abort habort).2 hfits hlines⟩

end TwoPass
