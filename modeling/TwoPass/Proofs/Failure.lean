import TwoPass.Proofs.Assembly
import TwoPass.Proofs.Operand.Refusal

/-!
# Which sources fail, and how

A run fails at the first directive whose argument is not in order, wherever it stands; if there is none,
at the first word line that cannot be encoded with the labels of the whole source.  The error names that
line, and what is wrong with the line decides the family of the error.
-/

namespace TwoPass

namespace Line

/-- What keeps a word line of a source from being encoded, with the family of the error it leads to. -/
inductive Fault (strict : Bool) (source : List Text) (raw : Text) : Error.Category → Prop
  /-- The operation is no instruction. -/
  | unknownOpcode (hkind : kind raw = .instruction)
      (hunknown : ∀ instruction : Instruction, keyword raw ≠ instruction.mnemonic) :
      Fault strict source raw .unknownOpcode
  /-- The operands are not in any form that the instruction takes. -/
  | badOperands {instruction : Instruction} (hkind : kind raw = .instruction)
      (hkeyword : keyword raw = instruction.mnemonic)
      (hnone : ∀ operands : Operands, ¬ operands.Spelled strict instruction (argument raw)) :
      Fault strict source raw .operandSyntax
  | negativeAddress {instruction : Instruction} {register index : Fin 4} {indirect : Bool}
      {number : Int} (hkind : kind raw = .instruction) (hkeyword : keyword raw = instruction.mnemonic)
      (hspelled : (Operands.memory register index indirect (.literal number)).Spelled strict
        instruction (argument raw))
      (hnegative : number < 0) : Fault strict source raw .operandSyntax
  /-- The label in the address field is defined on no line. -/
  | undefinedOperand {instruction : Instruction} {register index : Fin 4} {indirect : Bool}
      {label : Text} (hkind : kind raw = .instruction) (hkeyword : keyword raw = instruction.mnemonic)
      (hspelled : (Operands.memory register index indirect (.label label)).Spelled strict
        instruction (argument raw))
      (hundefined : ∀ line ∈ source, ¬ Defines line label) :
      Fault strict source raw .undefinedLabel
  /-- The label that the data line names is defined on no line. -/
  | undefinedData {label : Text} (hkind : kind raw = .data)
      (hvalue : Value.ofToken? (argument raw) = some (.label label))
      (hundefined : ∀ line ∈ source, ¬ Defines line label) :
      Fault strict source raw .undefinedLabel

theorem Fault.takesWord {strict : Bool} {source : List Text} {raw : Text}
    {category : Error.Category} (hfault : Fault strict source raw category) :
    takesWord raw = true := by
  cases hfault <;> simp [takesWord_iff, *]

/-- A numeral is one field. -/
theorem fields_of_isDigits {token : Text} (htoken : Text.trim token = token)
    (hdigits : Text.isDigits (Text.dropSign token) = true) : Text.fields token = [token] := by
  have hcomma : .char ',' ∉ token := by
    intro hmem
    have hrest : .char ',' ∈ Text.dropSign token := by
      unfold Text.dropSign
      split <;> simp_all
    have hdigit : Text.isDigit ',' = true := by
      simp only [Text.isDigits, Bool.and_eq_true, List.all_eq_true] at hdigits
      exact hdigits.2 ',' hrest
    contradiction
  rw [Text.fields, List.splitOn_eq_singleton hcomma]
  simp [htoken]

/-- If every numeral among the fields can be converted, so can the numeral of a directive. -/
theorem converts_of_fields {raw : Text}
    (hconvertible : ∀ token ∈ Text.fields (argument raw), Text.Convertible token) :
    Converts raw := by
  intro _ hdigits
  have hfields := fields_of_isDigits (trim_argument raw) hdigits
  exact hconvertible (argument raw) (by rw [hfields]; exact List.mem_singleton_self _) hdigits

/-- Reading the operands of an instruction comes to a numeral that is too long. -/
def LongOperand (raw : Text) : Prop :=
  kind raw = .instruction ∧ ∃ instruction : Instruction, keyword raw = instruction.mnemonic ∧
    instruction.LongOperand (argument raw)

theorem not_longOperand_of_fields {raw : Text}
    (hconvertible : ∀ token ∈ Text.fields (argument raw), Text.Convertible token) :
    ¬ LongOperand raw := by
  rintro ⟨-, instruction, -, hlong⟩
  exact Instruction.not_longOperand hconvertible hlong

/-- A line that cannot be read although its numeral is not too long is not in order. -/
theorem not_sound_of_not_readable {raw : Text} (hnot : ¬ Readable raw)
    (hshort : ¬ LongArgument raw) : ¬ Sound raw := by
  intro hsound
  refine hnot ⟨hsound, ?_⟩
  rintro (hkind | hkind)
  · intro _
    simp only [Sound, hkind] at hsound
    simpa only [LongArgument, hkind, hsound.1, true_and, not_lt,
      Text.dropSign_of_isDigits hsound.1] using hshort
  · simpa only [LongArgument, hkind, not_not] using hshort

end Line

namespace Encoding

theorem resolve_of_undefined {source : List Text} {label : Text}
    (hundefined : ∀ line ∈ source, ¬ Line.Defines line label) (file : Text) (record : Record) :
    ∃ cause : Error.Cause, cause.category = .undefinedLabel ∧
      resolve (Source.table file source) record (.label label) =
        .error (.error ⟨cause, some record.place, some record.raw⟩) := by
  have hnone := (Source.lookup_symbols_eq_none_iff file source label).mpr hundefined
  rw [Source.symbols, SymbolTable.lookup_bindings] at hnone
  refine ⟨.undefinedLabel label (Text.suggestions label (Source.table file source).names), rfl, ?_⟩
  simp [resolve, SymbolTable.resolve, hnone]

/-- An instruction whose operands can be read fails as the value in its address field does. -/
theorem encode_of_spelled {strict : Bool} {position : Position} {instruction : Instruction}
    {operands : Operands} (hkind : Line.kind position.raw = .instruction)
    (hkeyword : Line.keyword position.raw = instruction.mnemonic)
    (hspelled : operands.Spelled strict instruction (Line.argument position.raw))
    {table : SymbolTable} {file : Text} {abort : Abort}
    (haddress : operandAddress table (position.record file) operands.value = .error abort) :
    encode table strict (position.record file) = .error abort := by
  rw [encode_of_instruction file position table strict hkind,
    (Line.ofMnemonic?_keyword_iff _ _).mpr hkeyword]
  dsimp only
  rw [(OperandReader.read_eq_ok_iff _ _ _ _ _).mpr ⟨hspelled, rfl⟩]
  simp only [bind, Except.bind, layOut_eq, haddress, Except.map]

section Fault

variable {strict : Bool} {source : List Text} {category : Error.Category}

/-- A fault of a line leads to an error of its family at the line. -/
theorem encode_of_fault (position : Position)
    (hfault : Line.Fault strict source position.raw category)
    (hshort : ¬ Line.LongOperand position.raw) (file : Text) :
    ∃ cause : Error.Cause, cause.category = category ∧
      encode (Source.table file source) strict (position.record file) =
        .error (.error ⟨cause, some (position.place file), some position.raw⟩) := by
  cases hfault with
  | unknownOpcode hkind hunknown =>
      have hnone : Instruction.ofMnemonic? (Line.keyword position.raw) = none :=
        (Instruction.ofMnemonic?_upper_eq_none_iff (Line.operation position.raw)).mpr hunknown
      rw [encode_of_instruction file position _ strict hkind, hnone]
      exact ⟨_, rfl, rfl⟩
  | @badOperands instruction hkind hkeyword hnone =>
      rw [encode_of_instruction file position _ strict hkind,
        (Line.ofMnemonic?_keyword_iff _ _).mpr hkeyword]
      dsimp only
      cases hread : OperandReader.read
          ⟨Line.keyword position.raw, some (position.place file), some position.raw, strict⟩
          instruction (Line.argument position.raw) with
      | ok result => exact absurd ((OperandReader.read_eq_ok_iff _ _ _ _ _).mp hread).1 (hnone _)
      | error abort =>
          obtain ⟨cause, hcategory, -, rfl⟩ :=
            (OperandReader.reads_read _ _ instruction).of_short
              (fun hlong => hshort ⟨hkind, instruction, hkeyword, hlong⟩) abort hread
          exact ⟨cause, hcategory, rfl⟩
  | @negativeAddress _ _ _ _ number hkind hkeyword hspelled hnegative =>
      refine ⟨.negativeAddress number, rfl, encode_of_spelled hkind hkeyword hspelled ?_⟩
      simp only [operandAddress, Operands.value, resolve, bind, Except.bind, hnegative, ↓reduceIte]
      rfl
  | undefinedOperand hkind hkeyword hspelled hundefined =>
      obtain ⟨cause, hcategory, hresolve⟩ :=
        resolve_of_undefined hundefined file (position.record file)
      refine ⟨cause, hcategory, encode_of_spelled hkind hkeyword hspelled ?_⟩
      simp only [operandAddress, Operands.value, hresolve, bind, Except.bind]
      rfl
  | undefinedData hkind hvalue hundefined =>
      obtain ⟨cause, hcategory, hresolve⟩ :=
        resolve_of_undefined hundefined file (position.record file)
      refine ⟨cause, hcategory, ?_⟩
      rw [encode_of_data file position _ strict hkind, hvalue]
      dsimp only
      rw [hresolve]
      rfl

/-- A numeral that is too long ends the encoding without an error of its own. -/
theorem encode_of_longOperand (position : Position) (hlong : Line.LongOperand position.raw)
    (table : SymbolTable) (strict : Bool) (file : Text) :
    ∃ fault, encode table strict (position.record file) = .error (.numeral fault) := by
  obtain ⟨hkind, instruction, hkeyword, hlong⟩ := hlong
  obtain ⟨fault, hread⟩ := (OperandReader.reads_read
    ⟨Line.keyword position.raw, some (position.place file), some position.raw, strict⟩ _
    instruction).of_long hlong
  refine ⟨fault, ?_⟩
  rw [encode_of_instruction file position table strict hkind,
    (Line.ofMnemonic?_keyword_iff _ _).mpr hkeyword]
  dsimp only
  rw [hread]
  rfl

theorem makes_data_of_not_fault {raw : Text} (hkind : Line.kind raw = .data)
    (hsound : Line.Sound raw) (hnone : ∀ category, ¬ Line.Fault strict source raw category)
    (file : Text) (place : Place) :
    ∃ word log, Line.Makes strict (Source.symbols file source) place raw word log := by
  simp only [Line.Sound, hkind, ← Line.ofToken?_isSome_iff] at hsound
  obtain ⟨value, hvalue⟩ := Option.isSome_iff_exists.mp hsound
  cases haddress : value.address? (Source.symbols file source) with
  | some address => exact ⟨_, _, .data hkind hvalue haddress⟩
  | none =>
      cases value with
      | literal number => simp [Value.address?] at haddress
      | label name =>
          have hundefined := (Source.lookup_symbols_eq_none_iff file source name).mp haddress
          exact absurd (.undefinedData hkind hvalue hundefined) (hnone .undefinedLabel)

/-- Without fault the value in the address field stands for an address. -/
theorem exists_address_of_not_fault {raw : Text} {instruction : Instruction} {operands : Operands}
    (hkind : Line.kind raw = .instruction) (hkeyword : Line.keyword raw = instruction.mnemonic)
    (hspelled : operands.Spelled strict instruction (Line.argument raw))
    (hnone : ∀ category, ¬ Line.Fault strict source raw category) (file : Text) :
    ∃ address, operands.value.address? (Source.symbols file source) = some address ∧
      0 ≤ address := by
  cases operands with
  | memory register index indirect value =>
      cases value with
      | literal number =>
          refine ⟨number, rfl, ?_⟩
          by_contra hnegative
          exact hnone _ (.negativeAddress hkind hkeyword hspelled (by omega))
      | label name =>
          cases hlookup : (Source.symbols file source).lookup name with
          | some address => exact ⟨address, hlookup, Source.lookup_symbols_nonneg hlookup⟩
          | none =>
              have hundefined := (Source.lookup_symbols_eq_none_iff file source name).mp hlookup
              exact absurd (.undefinedOperand hkind hkeyword hspelled hundefined)
                (hnone .undefinedLabel)
  | immediate _ _ | registers _ _ | shift _ _ _ _ | device _ _ | bare =>
      exact ⟨0, rfl, Int.le_refl 0⟩

theorem makes_instruction_of_not_fault {raw : Text} (hkind : Line.kind raw = .instruction)
    (hnone : ∀ category, ¬ Line.Fault strict source raw category) (file : Text) (place : Place) :
    ∃ word log, Line.Makes strict (Source.symbols file source) place raw word log := by
  by_cases hknown : ∃ instruction : Instruction, Line.keyword raw = instruction.mnemonic
  · obtain ⟨instruction, hkeyword⟩ := hknown
    by_cases hread : ∃ operands : Operands,
        operands.Spelled strict instruction (Line.argument raw)
    · obtain ⟨operands, hspelled⟩ := hread
      obtain ⟨address, haddress, hnonneg⟩ :=
        exists_address_of_not_fault hkind hkeyword hspelled hnone file
      exact ⟨_, _, .instruction hkind hkeyword hspelled haddress hnonneg⟩
    · exact absurd (.badOperands hkind hkeyword (not_exists.mp hread)) (hnone .operandSyntax)
  · exact absurd (.unknownOpcode hkind (not_exists.mp hknown)) (hnone .unknownOpcode)

/-- A word line without fault is encoded. -/
theorem exists_encode_of_not_fault {position : Position} (hsound : Line.Sound position.raw)
    (hnone : ∀ category, ¬ Line.Fault strict source position.raw category)
    (hword : Line.takesWord position.raw = true) (file : Text) :
    ∃ output, encode (Source.table file source) strict (position.record file) = .ok output := by
  have hmakes : ∃ word log, Line.Makes strict (Source.symbols file source) (position.place file)
      position.raw word log := by
    rcases (Line.takesWord_iff _).mp hword with hkind | hkind
    · exact makes_data_of_not_fault hkind hsound hnone file _
    · exact makes_instruction_of_not_fault hkind hnone file _
  obtain ⟨word, log, hline⟩ := hmakes
  exact ⟨(word, log), (encode_eq_ok_iff file position _ strict hword word log).mpr hline⟩

end Fault

end Encoding

namespace Run

variable {options : Options} {source : List Text}

/-- Lines without fault do not stop the encoding. -/
theorem stop_of_front {front rest : List Text} (hsource : source = front ++ rest)
    (hsound : ∀ raw ∈ front, Line.Sound raw)
    (hnone : ∀ raw ∈ front, ∀ category, ¬ Line.Fault options.strictFlags source raw category)
    (file : Text) :
    (encoding options file source).stop =
      (Encoding.ofRecords (Source.table file source) options.strictFlags
        ((Source.positionsFrom front rest).map (Position.record file))).stop := by
  have hpositions : Source.positions source =
      Source.positions front ++ Source.positionsFrom front rest := by
    rw [hsource, Source.positions, Source.positionsFrom_append]
    rfl
  rw [encoding, hpositions, List.map_append]
  apply Encoding.stop_append_of_ok
  intro record hrecord hoccupies
  obtain ⟨position, hposition, rfl⟩ := List.mem_map.mp hrecord
  have hmem : position.raw ∈ front := by
    rw [← Source.map_raw_positions front]
    exact List.mem_map_of_mem hposition
  exact Encoding.exists_encode_of_not_fault (hsound _ hmem) (hnone _ hmem) hoccupies file

/-- The first line with a fault stops the encoding. -/
theorem stop_of_fault {front after : List Text} {bad : Text} {category : Error.Category}
    (hsource : source = front ++ bad :: after) (hsound : ∀ raw ∈ front, Line.Sound raw)
    (hnone : ∀ raw ∈ front, ∀ category, ¬ Line.Fault options.strictFlags source raw category)
    (hfault : Line.Fault options.strictFlags source bad category)
    (hshort : ¬ Line.LongOperand bad) (file : Text) :
    ∃ cause : Error.Cause, cause.category = category ∧
      (encoding options file source).stop =
        some (.error ⟨cause, some ⟨file, front.length + 1⟩, some bad⟩) := by
  obtain ⟨cause, hcategory, hencode⟩ :=
    Encoding.encode_of_fault ⟨front, bad⟩ hfault hshort file
  refine ⟨cause, hcategory, ?_⟩
  rw [stop_of_front hsource hsound hnone, Source.positionsFrom, List.map_cons]
  exact Encoding.stop_of_error hfault.takesWord hencode _

/-- The run ends with an error of the family, and the error names the line and shows it. -/
def StopsAt (run : Run) (place : Place) (raw : Text) (category : Error.Category) : Prop :=
  ∃ cause : Error.Cause, cause.category = category ∧
    run.outcome = .error (.error ⟨cause, some place, some raw⟩)

theorem StopsAt.not_ok {run : Run} {place : Place} {raw : Text} {category : Error.Category}
    (hstops : run.StopsAt place raw category) : ¬ ∃ program, run.outcome = .ok program := by
  rintro ⟨program, hok⟩
  obtain ⟨cause, -, herror⟩ := hstops
  rw [hok] at herror
  contradiction

section Lines

variable {lines front after : List Text} {bad : Text} {file : Text}

/-- The first line that cannot be read ends the run. -/
theorem stopsAt_of_not_readable
    (hsource : lines.map Text.dropLineEnds = front ++ bad :: after)
    (hreadable : ∀ raw ∈ front, Line.Readable raw) (hnot : ¬ Line.Readable bad)
    (hshort : ¬ Line.LongArgument bad) :
    (ofLines options file lines).StopsAt ⟨file, front.length + 1⟩ bad .directive := by
  obtain ⟨cause, hcategory, herror⟩ :=
    Line.read_of_not_sound (Line.not_sound_of_not_readable hnot hshort) hshort file
      (front.length + 1) (Source.counter front)
  refine ⟨cause, hcategory, ?_⟩
  rw [ofLines, Source.readSource_of_error hsource hreadable herror]

/-- The first line with a fault ends the run if every line can be read. -/
theorem stopsAt_of_readable {category : Error.Category}
    (hsource : lines.map Text.dropLineEnds = front ++ bad :: after)
    (hreadable : ∀ raw ∈ lines.map Text.dropLineEnds, Line.Readable raw)
    (hnone : ∀ raw ∈ front, ∀ other,
      ¬ Line.Fault options.strictFlags (lines.map Text.dropLineEnds) raw other)
    (hfault : Line.Fault options.strictFlags (lines.map Text.dropLineEnds) bad category)
    (hshort : ¬ Line.LongOperand bad) :
    (ofLines options file lines).StopsAt ⟨file, front.length + 1⟩ bad category := by
  have hsound : ∀ raw ∈ front, Line.Sound raw := by
    intro raw hraw
    have hmem : raw ∈ lines.map Text.dropLineEnds := by
      rw [hsource]
      exact List.mem_append_left _ hraw
    exact (hreadable raw hmem).1
  obtain ⟨cause, hcategory, hstop⟩ := stop_of_fault hsource hsound hnone hfault hshort file
  refine ⟨cause, hcategory, ?_⟩
  rw [ofLines_of_readable hreadable, outcome_encode, hstop]

/-- A source that can be read and has no fault is assembled. -/
theorem exists_program_of_readable (hlenient : options.warningsAsErrors = false)
    (hreadable : ∀ raw ∈ lines.map Text.dropLineEnds, Line.Readable raw)
    (hnone : ∀ raw ∈ lines.map Text.dropLineEnds, ∀ category,
      ¬ Line.Fault options.strictFlags (lines.map Text.dropLineEnds) raw category) :
    ∃ program, (ofLines options file lines).outcome = .ok program := by
  have hstop : (encoding options file (lines.map Text.dropLineEnds)).stop = none := by
    rw [stop_of_front (List.append_nil _).symm (fun raw hmem => (hreadable raw hmem).1) hnone]
    rfl
  rw [ofLines_of_readable hreadable, outcome_encode, hstop]
  simp [judge, hlenient]

variable (hconvertible : ∀ raw ∈ lines.map Text.dropLineEnds,
    ∀ token ∈ Text.fields (Line.argument raw), Text.Convertible token)

include hconvertible

theorem readable_of_sound (hsound : ∀ raw ∈ lines.map Text.dropLineEnds, Line.Sound raw) :
    ∀ raw ∈ lines.map Text.dropLineEnds, Line.Readable raw :=
  fun raw hmem => ⟨hsound raw hmem, Line.converts_of_fields (hconvertible raw hmem)⟩

/-- The first directive that is not in order ends the run. -/
theorem stopsAt_of_not_sound (hsource : lines.map Text.dropLineEnds = front ++ bad :: after)
    (hsound : ∀ raw ∈ front, Line.Sound raw) (hnot : ¬ Line.Sound bad) :
    (ofLines options file lines).StopsAt ⟨file, front.length + 1⟩ bad .directive := by
  have hconverts : ∀ raw ∈ front ++ bad :: after, Line.Converts raw := by
    rw [← hsource]
    exact fun raw hmem => Line.converts_of_fields (hconvertible raw hmem)
  refine stopsAt_of_not_readable hsource ?_ (fun hreadable => hnot hreadable.1) ?_
  · exact fun raw hmem => ⟨hsound raw hmem, hconverts raw (List.mem_append_left _ hmem)⟩
  · exact (hconverts bad (List.mem_append_right _ List.mem_cons_self)).not_longArgument

/-- The first line with a fault ends the run if every directive is in order. -/
theorem stopsAt_of_fault {category : Error.Category}
    (hsource : lines.map Text.dropLineEnds = front ++ bad :: after)
    (hsound : ∀ raw ∈ lines.map Text.dropLineEnds, Line.Sound raw)
    (hnone : ∀ raw ∈ front, ∀ other,
      ¬ Line.Fault options.strictFlags (lines.map Text.dropLineEnds) raw other)
    (hfault : Line.Fault options.strictFlags (lines.map Text.dropLineEnds) bad category) :
    (ofLines options file lines).StopsAt ⟨file, front.length + 1⟩ bad category := by
  have hmem : bad ∈ lines.map Text.dropLineEnds := by
    rw [hsource]
    exact List.mem_append_right _ List.mem_cons_self
  exact stopsAt_of_readable hsource (readable_of_sound hconvertible hsound) hnone hfault
    (Line.not_longOperand_of_fields (hconvertible bad hmem))

/-- A source without unsound directive and without fault is assembled. -/
theorem exists_program_of_not_fault (hlenient : options.warningsAsErrors = false)
    (hsound : ∀ raw ∈ lines.map Text.dropLineEnds, Line.Sound raw)
    (hnone : ∀ raw ∈ lines.map Text.dropLineEnds, ∀ category,
      ¬ Line.Fault options.strictFlags (lines.map Text.dropLineEnds) raw category) :
    ∃ program, (ofLines options file lines).outcome = .ok program :=
  exists_program_of_readable hlenient (readable_of_sound hconvertible hsound) hnone

/-- A source that is assembled has neither an unsound directive nor a fault. -/
theorem not_fault_of_program (hok : ∃ program, (ofLines options file lines).outcome = .ok program) :
    (∀ raw ∈ lines.map Text.dropLineEnds, Line.Sound raw) ∧
      ∀ raw ∈ lines.map Text.dropLineEnds, ∀ category,
        ¬ Line.Fault options.strictFlags (lines.map Text.dropLineEnds) raw category := by
  -- A first line that is in the way would have ended the run.
  rcases Source.forall_or_first_not (P := Line.Sound) (lines.map Text.dropLineEnds) with
    hsound | ⟨front, bad, after, hsource, hfront, hbad⟩
  · refine ⟨hsound, ?_⟩
    rcases Source.forall_or_first_not
      (P := fun raw => ∀ category,
        ¬ Line.Fault options.strictFlags (lines.map Text.dropLineEnds) raw category)
      (lines.map Text.dropLineEnds) with
      hnone | ⟨front, bad, after, hsource, hfront, hbad⟩
    · exact hnone
    · obtain ⟨category, hfault⟩ := not_forall_not.mp hbad
      exact absurd hok (stopsAt_of_fault hconvertible hsource hsound hfront hfault).not_ok
  · exact absurd hok (stopsAt_of_not_sound hconvertible hsource hfront hbad).not_ok

end Lines

end Run

/-- A source whose numerals can all be converted either

* has a directive whose argument is not in order, and the first one ends the run with a directive
  error, whatever the lines before it are like otherwise; or
* has no such directive but a word line with a fault, and the first one ends the run with an error of
  the family of the fault, where a label counts as defined on whichever line it is; or
* has neither, and exactly then is assembled.

The error names the line by its number. -/
theorem Run.outcome_of_lines {options : Options} (hlenient : options.warningsAsErrors = false)
    (file : Text) {lines : List Text}
    (hconvertible : ∀ raw ∈ lines.map Text.dropLineEnds,
      ∀ token ∈ Text.fields (Line.argument raw), Text.Convertible token) :
    (∀ front bad after, lines.map Text.dropLineEnds = front ++ bad :: after →
      (∀ raw ∈ front, Line.Sound raw) → ¬ Line.Sound bad →
        (Run.ofLines options file lines).StopsAt ⟨file, front.length + 1⟩ bad .directive) ∧
      (∀ front bad after category, lines.map Text.dropLineEnds = front ++ bad :: after →
        (∀ raw ∈ lines.map Text.dropLineEnds, Line.Sound raw) →
        (∀ raw ∈ front, ∀ other,
          ¬ Line.Fault options.strictFlags (lines.map Text.dropLineEnds) raw other) →
        Line.Fault options.strictFlags (lines.map Text.dropLineEnds) bad category →
          (Run.ofLines options file lines).StopsAt ⟨file, front.length + 1⟩ bad category) ∧
      ((∃ program, (Run.ofLines options file lines).outcome = .ok program) ↔
        (∀ raw ∈ lines.map Text.dropLineEnds, Line.Sound raw) ∧
          ∀ raw ∈ lines.map Text.dropLineEnds, ∀ category,
            ¬ Line.Fault options.strictFlags (lines.map Text.dropLineEnds) raw category) := by
  refine ⟨?_, ?_, Run.not_fault_of_program hconvertible, ?_⟩
  · intro front bad after
    exact Run.stopsAt_of_not_sound hconvertible
  · intro front bad after category
    exact Run.stopsAt_of_fault hconvertible
  · rintro ⟨hsound, hnone⟩
    exact Run.exists_program_of_not_fault hconvertible hlenient hsound hnone

/-- An unsound directive counts before an unknown operation on an earlier line, an undefined label or a
register number out of range before one on a later line.  Two lines that name each other's labels are
assembled, and neither has a fault. -/
theorem Run.outcome_of_two_bad_lines :
    (Run.ofLines Options.default "a.asm" ["FOO 1", "LOC x"]).StopsAt ⟨"a.asm", 2⟩ "LOC x" .directive ∧
      (Run.ofLines Options.default "a.asm" ["Data y", "x: FOO 1"]).StopsAt
        ⟨"a.asm", 1⟩ "Data y" .undefinedLabel ∧
      (Run.ofLines Options.default "a.asm" ["LDR 4,0,1", "FOO 1"]).StopsAt
        ⟨"a.asm", 1⟩ "LDR 4,0,1" .operandSyntax ∧
      (∃ program,
        (Run.ofLines Options.default "a.asm" ["x: LDR 3,0,y", "y: Data x"]).outcome = .ok program ∧
          program.symbols = [("x".text, 0), ("y".text, 1)]) ∧
      ∀ raw ∈ ["x: LDR 3,0,y".text, "y: Data x"], ∀ category,
        ¬ Line.Fault false ["x: LDR 3,0,y", "y: Data x"] raw category := by
  have haccepted : ∃ program,
      (Run.ofLines Options.default "a.asm" ["x: LDR 3,0,y", "y: Data x"]).outcome = .ok program ∧
        program.symbols = [("x".text, 0), ("y".text, 1)] :=
    Run.exists_program Program.symbols _ (by decide +kernel) fun _ _ hsymbols => hsymbols
  refine ⟨?_, ?_, ?_, haccepted, ?_⟩
  · exact (Run.outcome_of_lines rfl "a.asm" (by decide +kernel)).1 ["FOO 1"] "LOC x" []
      (by decide +kernel) (by decide +kernel) (by decide +kernel)
  · have hvalue : Value.ofToken? (Line.argument "Data y") = some (.label "y") := by decide +kernel
    exact (Run.outcome_of_lines rfl "a.asm" (by decide +kernel)).2.1 [] "Data y" ["x: FOO 1"]
      .undefinedLabel (by decide +kernel) (by decide +kernel) (by simp)
      (.undefinedData (by decide +kernel) hvalue (by decide +kernel))
  · have hnone : ∀ operands : Operands, ¬ operands.Spelled false .ldr (Line.argument "LDR 4,0,1") := by
      intro operands hspelled
      have hread := (OperandReader.read_eq_ok_iff ⟨[], none, none, false⟩ .ldr _ operands _).mpr
        ⟨hspelled, rfl⟩
      have hfails : (OperandReader.read ⟨[], none, none, false⟩ .ldr
        (Line.argument "LDR 4,0,1")).toOption = none := by decide +kernel
      rw [hread] at hfails
      cases hfails
    exact (Run.outcome_of_lines rfl "a.asm" (by decide +kernel)).2.1 [] "LDR 4,0,1" ["FOO 1"]
      .operandSyntax (by decide +kernel) (by decide +kernel) (by simp)
      (.badOperands (by decide +kernel) (by decide +kernel) hnone)
  · obtain ⟨program, hprogram, -⟩ := haccepted
    exact ((Run.outcome_of_lines rfl "a.asm" (by decide +kernel)).2.2.mp ⟨program, hprogram⟩).2

end TwoPass
