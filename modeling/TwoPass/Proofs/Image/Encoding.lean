import Mathlib.Data.List.Forall2
import TwoPass.Image.Encoding
import TwoPass.Proofs.Operand.Grammar
import TwoPass.Proofs.Source.Position
import TwoPass.Proofs.Text.Capital

/-!
# What a line encodes to

The word of a line is determined by its text and by the addresses of the labels.  A data line holds the
value it names, an instruction the fields that its operands spell below its opcode.  Encoding a source
goes through its word lines in order: each makes its word and its warnings, and the first one that
makes none ends the run.
-/

namespace TwoPass

/-- The address that a value stands for. -/
def Value.address? (symbols : List (Text × Int)) : Value → Option Int
  | .literal number => some number
  | .label name => symbols.lookup name

/-- The warnings due for an address in an instruction: one if it is beyond the last address, and one if
the five bits of its field are not all of it. -/
def Value.warnings (place : Place) (value : Value) (address : Int) : Log :=
  (if 65535 < address then [⟨.addressOverflow address, some place⟩] else []) ++
    (if 31 < address then [⟨.addressTruncated (Encoding.labelOf? value) address, some place⟩]
      else [])

namespace Operands

/-- The value in the address field; operands without such a field have zero there. -/
def value : Operands → Value
  | .memory _ _ _ value => value
  | _ => .literal 0

/-- The operands below an opcode, with the value in the address field resolved. -/
def word (opcode : BitVec 6) (address : Int) : Operands → Word
  | .memory register index indirect _ =>
      Word.pack opcode (BitVec.ofNat 2 register) (BitVec.ofNat 2 index) (BitVec.ofBool indirect)
        (BitVec.ofInt 5 address)
  | .immediate register number | .device register number =>
      Word.pack opcode (BitVec.ofNat 2 register) 0 0 (BitVec.ofNat 5 number)
  | .registers first second =>
      Word.pack opcode (BitVec.ofNat 2 first) (BitVec.ofNat 2 second) 0 0
  | .shift register count left arithmetic =>
      (Word.pack opcode (BitVec.ofNat 2 register) 0 0 0).overlayShift (BitVec.ofNat 4 count) left
        arithmetic
  | .bare => Word.pack opcode 0 0 0 0

end Operands

namespace Line

/-- The line makes the word when the labels have the given addresses, and the warnings are due.  `place`
is where the line stands. -/
inductive Makes (strict : Bool) (symbols : List (Text × Int)) (place : Place) (raw : Text) :
    Word → Log → Prop
  | data {value : Value} {address : Int} (hkind : kind raw = .data)
      (hvalue : Value.ofToken? (argument raw) = some value)
      (haddress : value.address? symbols = some address) :
      Makes strict symbols place raw (Word.ofInt address) []
  | instruction {instruction : Instruction} {operands : Operands} {address : Int}
      (hkind : kind raw = .instruction) (hkeyword : keyword raw = instruction.mnemonic)
      (hspelled : operands.Spelled strict instruction (argument raw))
      (haddress : operands.value.address? symbols = some address) (hnonneg : 0 ≤ address) :
      Makes strict symbols place raw (operands.word instruction.opcode address)
        (Operands.flagWarnings (some place) instruction (argument raw) ++
          operands.value.warnings place address)

section Makes

variable {strict : Bool} {symbols : List (Text × Int)} {place : Place} {raw : Text} {word : Word}
  {log : Log}

/-- A data line makes the word of its value. -/
theorem Makes.of_data (hmakes : Makes strict symbols place raw word log) (hkind : kind raw = .data) :
    ∃ (value : Value) (address : Int), Value.ofToken? (argument raw) = some value ∧
      value.address? symbols = some address ∧ word = Word.ofInt address ∧ log = [] := by
  cases hmakes with
  | data _ hvalue haddress => exact ⟨_, _, hvalue, haddress, rfl, rfl⟩
  | instruction hother => simp [hkind] at hother

/-- An instruction line makes the word of the operands it spells. -/
theorem Makes.of_instruction (hmakes : Makes strict symbols place raw word log)
    (hkind : kind raw = .instruction) :
    ∃ (instruction : Instruction) (operands : Operands) (address : Int),
      keyword raw = instruction.mnemonic ∧ operands.Spelled strict instruction (argument raw) ∧
      operands.value.address? symbols = some address ∧ 0 ≤ address ∧
      word = operands.word instruction.opcode address ∧
      log = Operands.flagWarnings (some place) instruction (argument raw) ++
        operands.value.warnings place address := by
  cases hmakes with
  | data hother => simp [hkind] at hother
  | instruction _ hkeyword hspelled haddress hnonneg =>
      exact ⟨_, _, _, hkeyword, hspelled, haddress, hnonneg, rfl, rfl⟩

/-- What an instruction line makes is told by any reading of its operands. -/
theorem Makes.of_spelled (hmakes : Makes strict symbols place raw word log)
    (hkind : kind raw = .instruction) {instruction : Instruction} {operands : Operands}
    (hkeyword : keyword raw = instruction.mnemonic)
    (hspelled : operands.Spelled strict instruction (argument raw)) :
    ∃ address, operands.value.address? symbols = some address ∧ 0 ≤ address ∧
      word = operands.word instruction.opcode address := by
  obtain ⟨other, others, address, hother, hothers, haddress, hnonneg, hword, -⟩ :=
    hmakes.of_instruction hkind
  obtain rfl := Instruction.mnemonic_injective (hkeyword.symm.trans hother)
  obtain rfl := hspelled.unique hothers
  exact ⟨address, haddress, hnonneg, hword⟩

/-- A line makes one word only, and always with the same warnings. -/
theorem Makes.unique (hmakes : Makes strict symbols place raw word log) {other : Word} {others : Log}
    (hother : Makes strict symbols place raw other others) : word = other ∧ log = others := by
  cases hmakes with
  | data hkind hvalue haddress =>
      obtain ⟨value, address, hvalue', haddress', rfl, rfl⟩ := hother.of_data hkind
      obtain rfl := Option.some.inj (hvalue.symm.trans hvalue')
      obtain rfl := Option.some.inj (haddress.symm.trans haddress')
      exact ⟨rfl, rfl⟩
  | instruction hkind hkeyword hspelled haddress hnonneg =>
      obtain ⟨instruction, operands, address, hkeyword', hspelled', haddress', -, rfl, rfl⟩ :=
        hother.of_instruction hkind
      obtain rfl := Instruction.mnemonic_injective (hkeyword.symm.trans hkeyword')
      obtain rfl := hspelled.unique hspelled'
      obtain rfl := Option.some.inj (haddress.symm.trans haddress')
      exact ⟨rfl, rfl⟩

end Makes

theorem ofMnemonic?_keyword_iff (raw : Text) (instruction : Instruction) :
    Instruction.ofMnemonic? (keyword raw) = some instruction ↔
      keyword raw = instruction.mnemonic :=
  Instruction.ofMnemonic?_upper_eq_some_iff (operation raw) instruction

end Line

namespace Encoding

theorem resolve_eq_ok_iff (table : SymbolTable) (record : Record) (value : Value) (address : Int) :
    resolve table record value = .ok address ↔ value.address? table.bindings = some address := by
  cases value with
  | literal number => simp [resolve, Value.address?]
  | label name =>
      simp only [resolve, Value.address?, SymbolTable.lookup_bindings, SymbolTable.resolve]
      cases table.address? name <;> simp

theorem operandAddress_eq_ok_iff (table : SymbolTable) (record : Record) (value : Value)
    (address : Int) (log : Log) :
    operandAddress table record value = .ok (address, log) ↔
      value.address? table.bindings = some address ∧ 0 ≤ address ∧
        log = value.warnings record.place address := by
  simp only [operandAddress, bind_eq_ok_iff, resolve_eq_ok_iff]
  constructor
  · rintro ⟨found, hfound, hchecked⟩
    split at hchecked
    · contradiction
    · rename_i hnonneg
      obtain ⟨rfl, rfl⟩ := Prod.mk.inj (Except.ok.inj hchecked)
      exact ⟨hfound, by omega, rfl⟩
  · rintro ⟨hfound, hnonneg, rfl⟩
    refine ⟨address, hfound, ?_⟩
    rw [if_neg (by omega)]
    rfl

/-- Only the value in the address field can stop the operands from being laid out. -/
theorem layOut_eq (table : SymbolTable) (record : Record) (opcode : BitVec 6)
    (operands : Operands) :
    layOut table record opcode operands =
      (operandAddress table record operands.value).map
        (fun found => (operands.word opcode found.1, found.2)) := by
  cases operands with
  | memory register index indirect value =>
      simp only [layOut, Operands.value]
      cases operandAddress table record value <;> rfl
  | immediate register number => rfl
  | registers first second => rfl
  | shift register count left arithmetic => rfl
  | device register number => rfl
  | bare => rfl

theorem layOut_eq_ok_iff (table : SymbolTable) (record : Record) (opcode : BitVec 6)
    (operands : Operands) (word : Word) (log : Log) :
    layOut table record opcode operands = .ok (word, log) ↔
      ∃ address, operands.value.address? table.bindings = some address ∧ 0 ≤ address ∧
        word = operands.word opcode address ∧ log = operands.value.warnings record.place address := by
  rw [layOut_eq]
  constructor
  · intro hmap
    cases hfound : operandAddress table record operands.value with
    | error abort => simp [hfound, Except.map] at hmap
    | ok found =>
        obtain ⟨haddress, hnonneg, hlog⟩ := (operandAddress_eq_ok_iff _ _ _ _ _).mp hfound
        simp only [hfound, Except.map, Except.ok.injEq, Prod.mk.injEq] at hmap
        exact ⟨found.1, haddress, hnonneg, hmap.1.symm, hmap.2.symm.trans hlog⟩
  · rintro ⟨address, haddress, hnonneg, rfl, rfl⟩
    rw [(operandAddress_eq_ok_iff _ _ _ _ _).mpr ⟨haddress, hnonneg, rfl⟩]
    rfl

section Position

variable (file : Text) (position : Position)

theorem encode_of_data (table : SymbolTable) (strict : Bool)
    (hkind : Line.kind position.raw = .data) :
    encode table strict (position.record file) =
      match Value.ofToken? (Line.argument position.raw) with
      | none => .error .noValue
      | some value =>
          (resolve table (position.record file) value).map
            (fun address => (Word.ofInt address, [])) := by
  have hrecord : (position.record file).kind = .data := hkind
  have hdata : (position.record file).data = Value.ofToken? (Line.argument position.raw) := by
    simp [Position.record, Line.record, hkind]
  cases hvalue : Value.ofToken? (Line.argument position.raw) with
  | none => simp only [encode, hrecord, ↓reduceIte, encodeData, hdata, hvalue]
  | some value => simp only [encode, hrecord, ↓reduceIte, encodeData, hdata, hvalue]

theorem encode_of_instruction (table : SymbolTable) (strict : Bool)
    (hkind : Line.kind position.raw = .instruction) :
    encode table strict (position.record file) =
      match Instruction.ofMnemonic? (Line.keyword position.raw) with
      | none => .error (unknownOpcode (position.record file) (Line.keyword position.raw))
      | some instruction => do
          let (operands, flagWarnings) ← OperandReader.read
            ⟨Line.keyword position.raw, some (position.place file), some position.raw, strict⟩
            instruction (Line.argument position.raw)
          let (word, addressWarnings) ←
            layOut table (position.record file) instruction.opcode operands
          return (word, flagWarnings ++ addressWarnings) := by
  have hrecord : (position.record file).kind ≠ .data := by
    simp [Position.record, Line.record, hkind]
  have hoperation : (position.record file).operation = some (Line.keyword position.raw) := by
    simp [Position.record, Line.record, Line.recordedOperation?, hkind]
  rw [encode, if_neg hrecord, encodeInstruction, hoperation]
  rfl

/-- Encoding a word line gives exactly the word and the warnings that the line makes. -/
theorem encode_eq_ok_iff (table : SymbolTable) (strict : Bool)
    (hword : Line.takesWord position.raw = true) (word : Word) (log : Log) :
    encode table strict (position.record file) = .ok (word, log) ↔
      Line.Makes strict table.bindings (position.place file) position.raw word log := by
  rcases (Line.takesWord_iff _).mp hword with hkind | hkind
  · rw [encode_of_data file position table strict hkind]
    constructor
    · intro hencode
      cases hvalue : Value.ofToken? (Line.argument position.raw) with
      | none => simp [hvalue] at hencode
      | some value =>
          cases hresolve : resolve table (position.record file) value with
          | error abort => simp [hvalue, hresolve, Except.map] at hencode
          | ok address =>
              simp only [hvalue, hresolve, Except.map, Except.ok.injEq, Prod.mk.injEq] at hencode
              obtain ⟨rfl, rfl⟩ := hencode
              exact .data hkind hvalue ((resolve_eq_ok_iff _ _ _ _).mp hresolve)
    · intro hmakes
      obtain ⟨value, address, hvalue, haddress, rfl, rfl⟩ := hmakes.of_data hkind
      simp only [hvalue, (resolve_eq_ok_iff _ _ _ _).mpr haddress]
      rfl
  · rw [encode_of_instruction file position table strict hkind]
    constructor
    · intro hencode
      cases hmnemonic : Instruction.ofMnemonic? (Line.keyword position.raw) with
      | none => simp [hmnemonic] at hencode
      | some instruction =>
          simp only [hmnemonic, bind_eq_ok_iff] at hencode
          obtain ⟨⟨operands, flags⟩, hread, ⟨packed, warnings⟩, hlayOut, hresult⟩ := hencode
          obtain ⟨hspelled, rfl⟩ := (OperandReader.read_eq_ok_iff _ _ _ _ _).mp hread
          obtain ⟨address, haddress, hnonneg, rfl, rfl⟩ := (layOut_eq_ok_iff _ _ _ _ _ _).mp hlayOut
          obtain ⟨rfl, rfl⟩ := Prod.mk.inj (Except.ok.inj hresult)
          exact .instruction hkind ((Line.ofMnemonic?_keyword_iff _ _).mp hmnemonic) hspelled
            haddress hnonneg
    · intro hmakes
      obtain ⟨instruction, operands, address, hkeyword, hspelled, haddress, hnonneg, rfl, rfl⟩ :=
        hmakes.of_instruction hkind
      rw [(Line.ofMnemonic?_keyword_iff _ _).mpr hkeyword]
      simp only [bind_eq_ok_iff]
      exact ⟨_, (OperandReader.read_eq_ok_iff _ _ _ _ _).mpr ⟨hspelled, rfl⟩, _,
        (layOut_eq_ok_iff _ _ _ _ _ _).mpr ⟨address, haddress, hnonneg, rfl, rfl⟩, rfl⟩

end Position

/-- Records that can be encoded do not stop the run. -/
theorem stop_append_of_ok {table : SymbolTable} {strict : Bool} {front : List Record}
    (hfront : ∀ record ∈ front, record.occupiesWord = true →
      ∃ output, encode table strict record = .ok output) (rest : List Record) :
    (ofRecords table strict (front ++ rest)).stop = (ofRecords table strict rest).stop := by
  induction front with
  | nil => rfl
  | cons record more ih =>
      have hmore := ih (fun other hother => hfront other (List.mem_cons_of_mem record hother))
      rw [List.cons_append, ofRecords]
      split
      · rename_i hoccupies
        obtain ⟨⟨word, log⟩, hencode⟩ := hfront record List.mem_cons_self hoccupies
        simp only [hencode]
        exact hmore
      · exact hmore

theorem stop_of_error {table : SymbolTable} {strict : Bool} {record : Record} {abort : Abort}
    (hoccupies : record.occupiesWord = true) (hencode : encode table strict record = .error abort)
    (rest : List Record) : (ofRecords table strict (record :: rest)).stop = some abort := by
  simp [ofRecords, hoccupies, hencode]

/-- A run that was not stopped has one word and one list of warnings for every word record, in
order. -/
theorem outputs_of_stop_eq_none {table : SymbolTable} {strict : Bool} {records : List Record}
    (hstop : (ofRecords table strict records).stop = none) :
    ∃ outputs : List (PlacedWord × Log),
      List.Forall₂
        (fun record output => encode table strict record = .ok (output.1.word, output.2) ∧
          output.1.address = record.address ∧ output.1.line = record.line)
        (records.filter Record.occupiesWord) outputs ∧
      (ofRecords table strict records).words = outputs.map Prod.fst ∧
      (ofRecords table strict records).log = outputs.flatMap Prod.snd := by
  induction records with
  | nil => exact ⟨[], by simp [ofRecords]⟩
  | cons record rest ih =>
      rw [ofRecords] at hstop ⊢
      cases hoccupies : record.occupiesWord with
      | false =>
          simp only [hoccupies, Bool.false_eq_true, ↓reduceIte] at hstop ⊢
          rw [List.filter_cons_of_neg (by simp [hoccupies])]
          exact ih hstop
      | true =>
          simp only [hoccupies, ↓reduceIte] at hstop ⊢
          rw [List.filter_cons_of_pos hoccupies]
          cases hencode : encode table strict record with
          | error abort => simp [hencode] at hstop
          | ok output =>
              simp only [hencode] at hstop ⊢
              obtain ⟨outputs, houtputs, hwords, hlog⟩ := ih hstop
              refine ⟨(⟨record.address, output.1, record.line⟩, output.2) :: outputs,
                List.Forall₂.cons ⟨hencode, rfl, rfl⟩ houtputs, ?_, ?_⟩
              · simp [hwords]
              · simp [hlog]

end Encoding

end TwoPass
