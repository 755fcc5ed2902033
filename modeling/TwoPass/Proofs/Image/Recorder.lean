import TwoPass.Image.Recorder
import TwoPass.Proofs.Diagnostic.Recorder
import TwoPass.Proofs.Image.Encoding
import TwoPass.Proofs.Operand.Refusal
import TwoPass.Proofs.Operand.Value

/-!
# Warnings come after every failure

The encoder writes its warnings as it goes, and a line may give rise to several.  A failure would
leave the ones written before it.  None are: for a flag that is only warned about the mode lets the
other flag pass too, and an address is checked before it is warned about.  So each step of the encoder
does what its outcome says, all or nothing, as long as its numbers can be written.
-/

namespace TwoPass

namespace Operands

/-- The value in the address field of operands that were read can be printed. -/
theorem Spelled.printable_value {strict : Bool} {instruction : Instruction} {text : Text}
    {operands : Operands} (hspelled : operands.Spelled strict instruction text) :
    operands.value.Printable := by
  have hzero : (Value.literal 0).Printable := Nat.pow_pos (by decide)
  cases hspelled with
  | short _ _ _ hvalue | shortIndirect _ _ _ _ _ hvalue | direct _ _ _ _ _ hvalue
  | full _ _ _ _ hvalue _ => exact Value.printable_of_ofToken? hvalue.1 hvalue.2
  | immediate | registers | shift | device | bare => exact hzero

end Operands

namespace OperandReader

/-- A refusal can be written if the number of the line can. -/
theorem Reads.reports {α : Type} {context : Context} {long fits : Prop} {outcome : Except Abort α}
    (hreads : Reads context long outcome) (hplace : fits → Place.Fits context.place) :
    Recorder.Reports fits outcome := by
  intro abort herror hfit
  by_cases hlong : long
  · obtain ⟨fault, hfault⟩ := hreads.of_long hlong
    obtain rfl := Except.error.inj (hfault.symm.trans herror)
    exact trivial
  · obtain ⟨cause, -, hnumbers, rfl⟩ := hreads.of_short hlong abort herror
    refine ⟨?_, hplace hfit⟩
    simp only [hnumbers, List.not_mem_nil, false_implies, implies_true]

end OperandReader

namespace Recorder

section Operands

variable {fits : Prop} {context : OperandReader.Context}

theorem performs_refuse {α : Type} (hplace : fits → Place.Fits context.place) {cause : Error.Cause}
    (hnumbers : cause.numbers = []) :
    (quietly (OperandReader.refuse context cause : Except Abort α)).Performs fits
      (OperandReader.refuse context cause) := by
  have hfits : fits → Abort.Fits (.error ⟨cause, context.place, context.sourceLine⟩) :=
    fun hfit => ⟨by simp [hnumbers], hplace hfit⟩
  exact performs_stop hfits

theorem performs_shiftFlag (hplace : fits → Place.Fits context.place) (flag : ShiftFlag)
    (token : Text) :
    (shiftFlag context flag token).Performs fits (OperandReader.shiftFlag context flag token) := by
  rw [shiftFlag, OperandReader.shiftFlag]
  cases flag.ofToken? token with
  | some set => exact performs_pure set
  | none =>
      cases context.strict with
      | true => exact performs_refuse hplace rfl
      | false =>
          have hfits : fits → Warning.Fits ⟨.unknownFlag flag token, context.place⟩ :=
            fun hfit => ⟨by simp [Warning.Cause.numbers], hplace hfit⟩
          exact (performs_warn hfits).map (fun _ => false)

/-- In the mode where a flag can be refused, no flag is warned about. -/
theorem shiftFlag_clean {flag other : ShiftFlag} {token otherToken : Text} {set : Bool}
    {warnings : Log} {abort : Abort}
    (hflag : OperandReader.shiftFlag context flag token = .ok (set, warnings))
    (hother : OperandReader.shiftFlag context other otherToken = .error abort) : warnings = [] := by
  cases hstrict : context.strict with
  | false =>
      rw [OperandReader.shiftFlag, hstrict] at hother
      split at hother <;> cases hother
  | true =>
      rw [OperandReader.shiftFlag, hstrict] at hflag
      split at hflag
      · cases hflag
        rfl
      · cases hflag

/-- Both flags of a shift instruction, and the operands that they complete. -/
theorem performs_shiftFlags (hplace : fits → Place.Fits context.place) (direction kind : Text)
    (shape : Bool → Bool → Operands) :
    Performs fits
      (do
        let left ← shiftFlag context .direction direction
        let arithmetic ← shiftFlag context .kind kind
        return shape left arithmetic)
      (do
        let (left, leftLog) ← OperandReader.shiftFlag context .direction direction
        let (arithmetic, arithmeticLog) ← OperandReader.shiftFlag context .kind kind
        return (shape left arithmetic, leftLog ++ arithmeticLog)) := by
  have hkind := fun left => (performs_shiftFlag hplace .kind kind).map (shape left)
  have hboth := (performs_shiftFlag hplace .direction direction).andThen
    (fun left _ _ => hkind left) (by
      intro left warnings abort hleft hfail
      cases hother : OperandReader.shiftFlag context .kind kind with
      | error refusal => exact shiftFlag_clean hleft hother
      | ok found => simp [hother, Except.map] at hfail)
  cases hleft : OperandReader.shiftFlag context .direction direction with
  | error abort =>
      rw [hleft] at hboth
      exact hboth
  | ok found =>
      rw [hleft] at hboth
      cases hother : OperandReader.shiftFlag context .kind kind with
      | error abort =>
          rw [hother] at hboth
          exact hboth
      | ok other =>
          rw [hother] at hboth
          exact hboth

theorem performs_shift (hplace : fits → Place.Fits context.place) (text : Text) :
    (shift context text).Performs fits (OperandReader.shift context text) := by
  refine performs_quietly_bind
    ((OperandReader.onlyRefuses_fields context .shift text).reads.reports hplace) ?_
  intro tokens hfields
  have htrim : ∀ token ∈ tokens, Text.trim token = token := by
    rw [((OperandReader.fields_eq_ok_iff context .shift text tokens).mp hfields).1]
    exact fun token => OperandReader.trim_of_mem_fields
  have hnumber : ∀ field, ∀ token ∈ tokens,
      Reports fits (OperandReader.number context field token) := fun field token hmem =>
    (OperandReader.reads_number context field (htrim token hmem)).reports hplace
  rcases tokens with _ | ⟨register, _ | ⟨count, _ | ⟨direction, _ | ⟨kind, _ | ⟨fifth, rest⟩⟩⟩⟩⟩
  case cons.cons.cons.cons.nil =>
    refine performs_quietly_bind (hnumber .register register (by simp)) fun number _ => ?_
    refine performs_quietly_bind (hnumber .shiftCount count (by simp)) fun places _ => ?_
    exact performs_shiftFlags hplace direction kind (.shift number places)
  -- Any other number of fields is refused.
  all_goals exact performs_refuse hplace rfl

theorem performs_read (hplace : fits → Place.Fits context.place) (instruction : Instruction)
    (text : Text) :
    (read context instruction text).Performs fits
      (OperandReader.read context instruction text) := by
  have hreads := OperandReader.reads_read context text instruction
  have hreports := hreads.reports hplace
  rw [OperandReader.read] at hreports
  rw [read, OperandReader.read]
  cases hformat : instruction.format with
  | shift => exact performs_shift hplace text
  | memory | immediate | register | device | bare =>
      rw [hformat] at hreports
      exact performs_quietly fun abort herror =>
        hreports abort (by rw [OperandReader.quietly, herror]; rfl)

end Operands

section Records

variable {table : SymbolTable} {strict : Bool} {record : Record} {fits : Prop}

theorem reports_resolve (hline : fits → Text.Writable record.line) (value : Value) :
    Reports fits (Encoding.resolve table record value) := by
  intro abort herror hfit
  cases value with
  | literal number => cases herror
  | label name =>
      rw [Encoding.resolve, SymbolTable.resolve] at herror
      cases haddress : table.address? name with
      | some address => simp [haddress] at herror
      | none =>
          simp only [haddress, Except.error.injEq] at herror
          rw [← herror]
          refine ⟨by simp [Error.Cause.numbers], ?_⟩
          simpa [Place.Fits, Record.place] using hline hfit

/-- The address of a label is that of the table, and any other can be printed. -/
theorem writable_of_resolve (htable : table.Fits) {value : Value} (hvalue : value.Printable)
    {address : Int} (hresolve : Encoding.resolve table record value = .ok address) :
    Text.Writable address := by
  cases value with
  | literal number =>
      obtain rfl := Except.ok.inj hresolve
      exact (Text.writable_iff number).mpr hvalue
  | label name =>
      apply htable.of_address?
      rw [Encoding.resolve, SymbolTable.resolve] at hresolve
      cases haddress : table.address? name with
      | some found =>
          simp only [haddress, Except.ok.injEq] at hresolve
          rw [hresolve]
      | none => simp [haddress] at hresolve

theorem performs_operandAddress (hline : fits → Text.Writable record.line)
    (htable : fits → table.Fits) {value : Value} (hvalue : value.Printable) :
    (operandAddress table record value).Performs fits
      (Encoding.operandAddress table record value) := by
  refine performs_quietly_bind (reports_resolve hline value) ?_
  intro address hresolve
  have hplace : fits → Place.Fits (some record.place) := by
    intro hfit
    simpa [Place.Fits, Record.place] using hline hfit
  have haddress : fits → ∀ n ∈ [address], Text.Writable n := by
    intro hfit
    simpa using writable_of_resolve (htable hfit) hvalue hresolve
  split
  · exact performs_stop fun hfit => ⟨haddress hfit, hplace hfit⟩
  · have hoverflow : fits → Warning.Fits ⟨.addressOverflow address, some record.place⟩ :=
      fun hfit => ⟨haddress hfit, hplace hfit⟩
    have htruncated : fits →
        Warning.Fits ⟨.addressTruncated (Encoding.labelOf? value) address, some record.place⟩ :=
      fun hfit => ⟨haddress hfit, hplace hfit⟩
    exact (performs_warnIf (Word.largest < address) hoverflow).andThen
      (fun _ _ _ => (performs_warnIf (31 < address) htruncated).map (fun _ => address))
      (fun _ _ _ _ hfail => by cases hfail)

theorem performs_layOut (hline : fits → Text.Writable record.line) (htable : fits → table.Fits)
    (opcode : BitVec 6) {operands : Operands} (hvalue : operands.value.Printable) :
    (layOut table record opcode operands).Performs fits
      (Encoding.layOut table record opcode operands) := by
  rw [Encoding.layOut_eq]
  cases operands with
  | memory register index indirect value =>
      exact (performs_operandAddress hline htable hvalue).map _
  | immediate register number => exact performs_pure _
  | registers first second => exact performs_pure _
  | shift register count left arithmetic => exact performs_pure _
  | device register number => exact performs_pure _
  | bare => exact performs_pure _

/-- Operands that were warned about can be laid out: they are those of a shift. -/
theorem read_clean {context : OperandReader.Context} {instruction : Instruction} {text : Text}
    {operands : Operands} {warnings : Log} {opcode : BitVec 6} {abort : Abort}
    (hread : OperandReader.read context instruction text = .ok (operands, warnings))
    (hfail : Encoding.layOut table record opcode operands = .error abort) : warnings = [] := by
  obtain ⟨hspelled, rfl⟩ := (OperandReader.read_eq_ok_iff _ _ _ _ _).mp hread
  cases hspelled with
  | short hformat => simp [Operands.flagWarnings, hformat]
  | shortIndirect hformat => simp [Operands.flagWarnings, hformat]
  | direct hformat => simp [Operands.flagWarnings, hformat]
  | full hformat => simp [Operands.flagWarnings, hformat]
  | immediate => cases hfail
  | registers => cases hfail
  | shift => cases hfail
  | device => cases hfail
  | bare => cases hfail

theorem performs_encodeInstruction (hline : fits → Text.Writable record.line)
    (htable : fits → table.Fits) :
    (encodeInstruction table strict record).Performs fits
      (Encoding.encodeInstruction table strict record) := by
  have hplace : fits → Place.Fits (some record.place) := by
    intro hfit
    simpa [Place.Fits, Record.place] using hline hfit
  rw [encodeInstruction, Encoding.encodeInstruction]
  cases record.operation with
  | none =>
      have hstop : (stop .noOperation : Recorder Word).Performs fits (.error .noOperation) :=
        performs_stop fun _ => trivial
      exact hstop
  | some mnemonic =>
      simp only
      cases Instruction.ofMnemonic? mnemonic with
      | none => exact performs_stop fun hfit => ⟨by simp [Error.Cause.numbers], hplace hfit⟩
      | some instruction =>
          refine (performs_read hplace instruction record.operands).andThen ?_
            (fun _ _ _ hread hfail => read_clean hread hfail)
          intro operands warnings hread
          have hspelled := ((OperandReader.read_eq_ok_iff _ _ _ _ _).mp hread).1
          exact performs_layOut hline htable instruction.opcode hspelled.printable_value

/-- A data line gives rise to no warnings. -/
theorem performs_encodeData (hline : fits → Text.Writable record.line) :
    (quietly ((Encoding.encodeData table record).map Prod.fst)).Performs fits
      (Encoding.encodeData table record) := by
  rw [Encoding.encodeData]
  cases record.data with
  | none =>
      have hstop : (stop .noValue : Recorder Word).Performs fits (.error .noValue) :=
        performs_stop fun _ => trivial
      exact hstop
  | some value =>
      have hreports : Reports fits (Encoding.resolve table record value) :=
        reports_resolve hline value
      simp only
      cases hresolve : Encoding.resolve table record value with
      | error abort => exact performs_stop (hreports abort hresolve)
      | ok address => exact performs_pure (Word.ofInt address)

/-- The encoder at work does exactly what the outcome of the record says, if the number of its line and
the addresses in the table can be written. -/
theorem performs_encode (table : SymbolTable) (strict : Bool) (record : Record) :
    (encode table strict record).Performs (Text.Writable record.line ∧ table.Fits)
      (Encoding.encode table strict record) := by
  rw [encode, Encoding.encode]
  split
  · exact performs_encodeData And.left
  · exact performs_encodeInstruction And.left And.right

end Records

section Sequence

variable {table : SymbolTable} {strict : Bool} {words : List PlacedWord} {log : Log}

theorem encodeFrom_cons_of_skipped {record : Record} (hskipped : record.occupiesWord = false)
    (rest : List Record) :
    encodeFrom table strict words log (record :: rest) = encodeFrom table strict words log rest := by
  simp [encodeFrom, hskipped]

theorem encodeFrom_cons_of_ok {record : Record} (hoccupies : record.occupiesWord = true) {word : Word}
    {next : Log} (hencode : (encode table strict record).run log = .ok word next)
    (rest : List Record) :
    encodeFrom table strict words log (record :: rest) =
      encodeFrom table strict (words ++ [⟨record.address, word, record.line⟩]) next rest := by
  simp [encodeFrom, hoccupies, hencode]

theorem encodeFrom_cons_of_error {record : Record} (hoccupies : record.occupiesWord = true)
    {abort : Abort} {next : Log} (hencode : (encode table strict record).run log = .error abort next)
    (rest : List Record) :
    encodeFrom table strict words log (record :: rest) = ⟨words, next, some abort⟩ := by
  simp [encodeFrom, hoccupies, hencode]

/-- Records are encoded as their outcomes say if the numbers of their lines and the addresses in the
table can be written. -/
theorem encodeFrom_of_fits (htable : table.Fits) {records : List Record}
    (hlines : ∀ record ∈ records, Text.Writable record.line) :
    encodeFrom table strict words log records =
      ⟨words ++ (Encoding.ofRecords table strict records).words,
        log ++ (Encoding.ofRecords table strict records).log,
        (Encoding.ofRecords table strict records).stop⟩ := by
  induction records generalizing words log with
  | nil => simp [encodeFrom, Encoding.ofRecords]
  | cons record rest ih =>
      have hrest := fun other hmem => hlines other (List.mem_cons_of_mem record hmem)
      have hencode := ((performs_encode table strict record).attains log).eq_of_fits
        ⟨hlines record List.mem_cons_self, htable⟩
      cases hoccupies : record.occupiesWord with
      | false =>
          rw [encodeFrom_cons_of_skipped hoccupies, ih hrest]
          simp [Encoding.ofRecords, hoccupies]
      | true =>
          cases houtcome : Encoding.encode table strict record with
          | error abort =>
              rw [houtcome] at hencode
              rw [encodeFrom_cons_of_error hoccupies hencode]
              simp [Encoding.ofRecords, hoccupies, houtcome]
          | ok output =>
              rw [houtcome] at hencode
              rw [encodeFrom_cons_of_ok hoccupies hencode, ih hrest]
              simp [Encoding.ofRecords, hoccupies, houtcome]

/-- An encoding that stops has encoded the records before, and was stopped by the next one. -/
theorem encodeFrom_of_stop {records : List Record} {made : List PlacedWord} {after : Log}
    {abort : Abort} (hstop : encodeFrom table strict words log records = ⟨made, after, some abort⟩) :
    ∃ front bad rest before, records = front ++ bad :: rest ∧
      encodeFrom table strict words log front = ⟨made, before, none⟩ ∧ bad.occupiesWord = true ∧
      (encode table strict bad).run before = .error abort after := by
  induction records generalizing words log with
  | nil => cases hstop
  | cons record rest ih =>
      cases hoccupies : record.occupiesWord with
      | false =>
          rw [encodeFrom_cons_of_skipped hoccupies] at hstop
          obtain ⟨front, bad, later, before, rfl, hfront, hbad⟩ := ih hstop
          refine ⟨record :: front, bad, later, before, rfl, ?_, hbad⟩
          rw [encodeFrom_cons_of_skipped hoccupies, hfront]
      | true =>
          cases hencode : (encode table strict record).run log with
          | error cause next =>
              rw [encodeFrom_cons_of_error hoccupies hencode, Encoding.mk.injEq,
                Option.some.injEq] at hstop
              obtain ⟨rfl, rfl, rfl⟩ := hstop
              exact ⟨[], record, rest, log, rfl, rfl, hoccupies, hencode⟩
          | ok word next =>
              rw [encodeFrom_cons_of_ok hoccupies hencode] at hstop
              obtain ⟨front, bad, later, before, rfl, hfront, hbad⟩ := ih hstop
              refine ⟨record :: front, bad, later, before, rfl, ?_, hbad⟩
              rw [encodeFrom_cons_of_ok hoccupies hencode, hfront]

end Sequence

end Recorder

end TwoPass
