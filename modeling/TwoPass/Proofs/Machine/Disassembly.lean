import TwoPass.Proofs.Machine.Layout
import TwoPass.Proofs.Source.Statement

/-!
# Words as instructions

A word holds an instruction if its opcode is that of the instruction and the bits that the format leaves
unused are zero.  Its fields are then written as decimal numbers behind the mnemonic.  The line that is
written so makes the word again, and it does so without a warning and in either way of reading.
-/

namespace TwoPass

namespace Word

theorem fits_cut {widths : List Nat} {number : Nat} (hlt : number < 2 ^ widths.sum) :
    Fits widths (cut widths number) := by
  induction widths generalizing number with
  | nil => exact .nil
  | cons width rest ih =>
      refine .cons ?_ (ih (Nat.mod_lt _ (Nat.two_pow_pos _)))
      rw [Nat.div_lt_iff_lt_mul (Nat.two_pow_pos _), ← Nat.pow_add]
      simpa using hlt

/-- Joining the fields that a number was cut into gives the number. -/
theorem join_cut {widths : List Nat} {number : Nat} (hlt : number < 2 ^ widths.sum) :
    join widths (cut widths number) = number := by
  induction widths generalizing number with
  | nil =>
      simp only [List.sum_nil, Nat.pow_zero] at hlt
      simp only [join]
      omega
  | cons width rest ih =>
      rw [cut, join, ih (Nat.mod_lt _ (Nat.two_pow_pos _)), Nat.mul_comm]
      exact Nat.div_add_mod _ _

/-- The fields below the opcode, cut as the format has them. -/
def fieldsAs (format : Format) (word : Word) : List Nat :=
  cut format.widths (word.toNat % 1024)

theorem fits_fieldsAs (format : Format) (word : Word) :
    Fits format.widths (word.fieldsAs format) := by
  apply fits_cut
  rw [Format.sum_widths]
  exact Nat.mod_lt _ (by decide)

end Word

namespace Format

/-- The bits that the format leaves unused. -/
def unused : Format → List Nat → Nat
  | .immediate, [_, spare, _] | .device, [_, spare, _] => spare
  | .register, [_, _, spare] => spare
  | .shift, [_, _, _, _, spare] => spare
  | .bare, [spare] => spare
  | _, _ => 0

/-- The fields in the order in which operands are written. -/
def written : Format → List Nat → List Nat
  | .memory, [target, index, indirect, address] => [target, index, address, indirect]
  | .immediate, [target, _, number] | .device, [target, _, number] => [target, number]
  | .register, [first, second, _] => [first, second]
  | .shift, [target, count, left, arithmetic, _] => [target, count, left, arithmetic]
  | _, _ => []

/-- The written fields as decimal numbers with commas between them. -/
def operandText (format : Format) (fields : List Nat) : Text :=
  [.char ','].intercalate ((format.written fields).map Text.ofNat)

end Format

/-- The word has the opcode of the instruction, and no unused bit is set. -/
def Word.Holds (word : Word) (instruction : Instruction) : Prop :=
  word.toNat / 1024 = instruction.opcode.toNat ∧
    instruction.format.unused (word.fieldsAs instruction.format) = 0

instance (word : Word) (instruction : Instruction) : Decidable (word.Holds instruction) :=
  inferInstanceAs (Decidable (_ ∧ _))

/-- The instruction with the operands that are read off the word. -/
def Instruction.statement (instruction : Instruction) (word : Word) : Text :=
  Line.plain instruction.mnemonic
    (instruction.format.operandText (word.fieldsAs instruction.format))

theorem Field.holds_numeral (field : Field) (number : Fin (field.largest + 1)) :
    field.Holds (Text.ofNat number.val) number := by
  have hbound : field.largest < 65535 := by
    cases field <;> decide
  have hlt := number.isLt
  refine ⟨?_, ?_, Text.signedValue_ofNat number.val⟩
  · rw [Text.dropSign_of_isDigits (Text.isDigits_ofNat _)]
    exact Text.isDigits_ofNat _
  · rw [Text.dropSign_of_isDigits (Text.isDigits_ofNat _)]
    exact Text.length_ofNat_le (by omega)

theorem Value.written_numeral {number : Nat} (hlt : number < 65536) :
    Value.Written (Text.ofNat number) (.literal number) := by
  have hsign := Text.dropSign_of_isDigits (Text.isDigits_ofNat number)
  refine ⟨?_, ?_⟩
  · simp [Value.ofToken?, hsign, Text.isDigits_ofNat, Text.signedValue_ofNat]
  · intro _
    rw [hsign]
    exact Text.length_ofNat_le hlt

theorem ShiftFlag.ofToken?_numeral (flag : ShiftFlag) (set : Bool) :
    flag.ofToken? (Text.ofNat set.toNat) = some set := by
  cases flag <;> cases set <;> decide

theorem indirectOfToken?_numeral (set : Bool) :
    indirectOfToken? (Text.ofNat set.toNat) = some set := by
  cases set <;> decide

/-- The fields of numerals between commas are the numerals. -/
theorem Text.fields_intercalate_numeral {numbers : List Nat} (hne : numbers ≠ []) :
    Text.fields ([.char ','].intercalate (numbers.map Text.ofNat)) =
      numbers.map Text.ofNat := by
  have hcomma : ∀ token ∈ numbers.map Text.ofNat, .char ',' ∉ token := by
    intro token hmem
    obtain ⟨number, -, rfl⟩ := List.mem_map.mp hmem
    exact fun hmem => absurd (Text.isDigit_of_mem_ofNat hmem) (by decide)
  rw [Text.fields, List.splitOn_intercalate _ hcomma (by simpa using hne), List.map_map]
  exact List.map_congr_left fun number _ => Text.trim_of_isPlain Text.isPlain_of_mem_ofNat

namespace Operands

/-- Operands with a number in the address field are spelled by their fields. -/
theorem spelled_operandText {operands : Operands} {instruction : Instruction} {address : Nat}
    (hformat : operands.format = instruction.format) (hvalue : operands.value = .literal address)
    (hlt : address < 32) (strict : Bool) :
    operands.Spelled strict instruction
      (instruction.format.operandText (operands.fieldValues address)) := by
  have hmod : ((address : Int) % 32).toNat = address := by omega
  rw [← hformat]
  cases operands with
  | memory register index indirect value =>
      obtain rfl : value = .literal address := hvalue
      refine .full hformat.symm (Text.fields_intercalate_numeral (List.cons_ne_nil _ _))
        (Field.holds_numeral .register register) ?_ ?_ ?_
      · exact Field.holds_numeral .index index
      · rw [hmod]
        exact Value.written_numeral (by omega)
      · exact indirectOfToken?_numeral indirect
  | immediate register number =>
      exact .immediate hformat.symm (Text.fields_intercalate_numeral (List.cons_ne_nil _ _))
        (Field.holds_numeral .register register) (Field.holds_numeral .immediate number)
  | registers first second =>
      exact .registers hformat.symm (Text.fields_intercalate_numeral (List.cons_ne_nil _ _))
        (Field.holds_numeral .register first) (Field.holds_numeral .register second)
  | shift register count left arithmetic =>
      exact .shift hformat.symm (Text.fields_intercalate_numeral (List.cons_ne_nil _ _))
        (Field.holds_numeral .register register) (Field.holds_numeral .shiftCount count)
        (Or.inl (ShiftFlag.ofToken?_numeral _ left)) (Or.inl (ShiftFlag.ofToken?_numeral _ arithmetic))
  | device register number =>
      exact .device hformat.symm (Text.fields_intercalate_numeral (List.cons_ne_nil _ _))
        (Field.holds_numeral .register register) (Field.holds_numeral .device number)
  | bare => exact .bare hformat.symm rfl

/-- No warning is due for flags that are written as numbers. -/
theorem flagWarnings_operandText {operands : Operands} {instruction : Instruction}
    (hformat : operands.format = instruction.format) (place : Option Place) (address : Int) :
    flagWarnings place instruction
      (instruction.format.operandText (operands.fieldValues address)) = [] := by
  unfold flagWarnings
  split
  · rename_i direction kind hshift hfields
    rw [hshift] at hformat hfields
    cases operands with
    | shift register count left arithmetic =>
        have hne : [register.val, count.val, left.toNat, arithmetic.toNat] ≠ [] :=
          List.cons_ne_nil _ _
        have htokens := (Text.fields_intercalate_numeral hne).symm.trans hfields
        simp only [List.map_cons, List.map_nil, List.cons.injEq, and_true] at htokens
        obtain ⟨-, -, rfl, rfl⟩ := htokens
        simp [ShiftFlag.warnings, ShiftFlag.ofToken?_numeral]
    | memory | immediate | registers | device | bare => contradiction
  · rfl

theorem exists_toNat_eq {bit : Nat} (hlt : bit < 2) : ∃ set : Bool, set.toNat = bit := by
  refine ⟨bit == 1, ?_⟩
  obtain rfl | rfl : bit = 0 ∨ bit = 1 := by omega
  · rfl
  · rfl

/-- Fields without unused bits are the fields of operands. -/
theorem exists_of_fits {format : Format} {fields : List Nat}
    (hfits : Word.Fits format.widths fields) (hunused : format.unused fields = 0) :
    ∃ (operands : Operands) (address : Nat), operands.format = format ∧
      operands.value = .literal address ∧ address < 32 ∧ operands.fieldValues address = fields := by
  -- The widths give the number of fields, and each field fits the operand it is for.
  cases format <;>
    simp only [Word.Fits, Format.widths, List.forall₂_cons_left_iff,
      List.forall₂_nil_left_iff] at hfits
  case memory =>
    obtain ⟨register, _, hregister, ⟨index, _, hindex, ⟨bit, _, hbit, ⟨address, _, haddress, rfl,
      rfl⟩, rfl⟩, rfl⟩, rfl⟩ := hfits
    obtain ⟨indirect, rfl⟩ := exists_toNat_eq hbit
    refine ⟨.memory ⟨register, hregister⟩ ⟨index, hindex⟩ indirect (.literal address), address,
      rfl, rfl, haddress, ?_⟩
    have hmod : ((address : Int) % 32).toNat = address := by omega
    simp only [fieldValues, hmod]
  case immediate =>
    obtain ⟨register, _, hregister, ⟨spare, _, -, ⟨number, _, hnumber, rfl, rfl⟩, rfl⟩, rfl⟩ :=
      hfits
    obtain rfl : spare = 0 := hunused
    exact ⟨.immediate ⟨register, hregister⟩ ⟨number, hnumber⟩, 0, rfl, rfl, by decide, rfl⟩
  case register =>
    obtain ⟨first, _, hfirst, ⟨second, _, hsecond, ⟨spare, _, -, rfl, rfl⟩, rfl⟩, rfl⟩ := hfits
    obtain rfl : spare = 0 := hunused
    exact ⟨.registers ⟨first, hfirst⟩ ⟨second, hsecond⟩, 0, rfl, rfl, by decide, rfl⟩
  case shift =>
    obtain ⟨register, _, hregister, ⟨count, _, hcount, ⟨first, _, hfirst, ⟨second, _, hsecond,
      ⟨spare, _, -, rfl, rfl⟩, rfl⟩, rfl⟩, rfl⟩, rfl⟩ := hfits
    obtain rfl : spare = 0 := hunused
    obtain ⟨left, rfl⟩ := exists_toNat_eq hfirst
    obtain ⟨arithmetic, rfl⟩ := exists_toNat_eq hsecond
    exact ⟨.shift ⟨register, hregister⟩ ⟨count, hcount⟩ left arithmetic, 0, rfl, rfl, by decide,
      rfl⟩
  case device =>
    obtain ⟨register, _, hregister, ⟨spare, _, -, ⟨number, _, hnumber, rfl, rfl⟩, rfl⟩, rfl⟩ :=
      hfits
    obtain rfl : spare = 0 := hunused
    exact ⟨.device ⟨register, hregister⟩ ⟨number, hnumber⟩, 0, rfl, rfl, by decide, rfl⟩
  case bare =>
    obtain ⟨spare, _, -, rfl, rfl⟩ := hfits
    obtain rfl : spare = 0 := hunused
    exact ⟨.bare, 0, rfl, rfl, by decide, rfl⟩

/-- Operands with the fields of a word make the word. -/
theorem word_eq_of_fieldValues {operands : Operands} {opcode : BitVec 6} {address : Int}
    {word : Word} (hopcode : word.toNat / 1024 = opcode.toNat)
    (hfields : operands.fieldValues address = word.fieldsAs operands.format) :
    operands.word opcode address = word := by
  have hlow : word.toNat % 1024 < 2 ^ operands.format.widths.sum := by
    rw [Format.sum_widths]
    exact Nat.mod_lt _ (by decide)
  apply BitVec.eq_of_toNat_eq
  rw [toNat_word, hfields, Word.fieldsAs, Word.join_cut hlow, ← hopcode]
  omega

end Operands

theorem Text.mem_intercalate {separator : Text} {tokens : List Text} {c : CodePoint}
    (hmem : c ∈ separator.intercalate tokens) : c ∈ separator ∨ ∃ token ∈ tokens, c ∈ token := by
  induction tokens with
  | nil => simp at hmem
  | cons token rest ih =>
      cases rest with
      | nil => exact Or.inr ⟨token, List.mem_cons_self, by simpa using hmem⟩
      | cons next more =>
          rw [List.intercalate_cons_cons, List.mem_append, List.mem_append] at hmem
          rcases hmem with (htoken | hseparator) | hmore
          · exact Or.inr ⟨token, List.mem_cons_self, htoken⟩
          · exact Or.inl hseparator
          · rcases ih hmore with hseparator | ⟨other, hother, hc⟩
            · exact Or.inl hseparator
            · exact Or.inr ⟨other, List.mem_cons_of_mem token hother, hc⟩

theorem Format.isPlain_of_mem_operandText {format : Format} {fields : List Nat} :
    ∀ c ∈ format.operandText fields, Text.isPlain c = true := by
  intro c hmem
  rcases Text.mem_intercalate hmem with hcomma | ⟨token, htoken, hc⟩
  · rw [List.mem_singleton.mp hcomma]
    decide
  · obtain ⟨number, -, rfl⟩ := List.mem_map.mp htoken
    exact Text.isPlain_of_mem_ofNat c hc

namespace Instruction

theorem isPlain_of_mem_mnemonic {instruction : Instruction} :
    ∀ c ∈ instruction.mnemonic, Text.isPlain c = true := by
  have hall : instruction.mnemonic.all Text.isPlain = true := by
    cases instruction <;> decide
  exact List.all_eq_true.mp hall

theorem mnemonic_ne_nil (instruction : Instruction) : instruction.mnemonic ≠ [] := by
  cases instruction <;> decide

/-- Mnemonics are in capitals, and none is a directive. -/
theorem upper_mnemonic (instruction : Instruction) :
    Text.upper instruction.mnemonic = instruction.mnemonic ∧
      instruction.mnemonic ≠ Record.originKeyword ∧
      instruction.mnemonic ≠ Record.dataKeyword := by
  have hall : ∀ one ∈ all, Text.upper one.mnemonic = one.mnemonic ∧
      one.mnemonic ≠ Record.originKeyword ∧ one.mnemonic ≠ Record.dataKeyword := by
    decide +kernel
  exact hall instruction (mem_all instruction)

section Statement

variable (instruction : Instruction) (word : Word)

theorem kind_statement : Line.kind (instruction.statement word) = .instruction := by
  obtain ⟨hupper, horigin, hdata⟩ := instruction.upper_mnemonic
  rw [statement, Line.kind_plain instruction.mnemonic_ne_nil isPlain_of_mem_mnemonic
    Format.isPlain_of_mem_operandText, hupper, if_neg horigin, if_neg hdata]

theorem keyword_statement : Line.keyword (instruction.statement word) = instruction.mnemonic := by
  rw [Line.keyword, statement, Line.operation_plain instruction.mnemonic_ne_nil
    isPlain_of_mem_mnemonic Format.isPlain_of_mem_operandText]
  exact instruction.upper_mnemonic.1

theorem argument_statement :
    Line.argument (instruction.statement word) =
      instruction.format.operandText (word.fieldsAs instruction.format) :=
  Line.argument_plain instruction.mnemonic_ne_nil isPlain_of_mem_mnemonic
    Format.isPlain_of_mem_operandText

end Statement

end Instruction

/-- The instruction that a word holds makes the word, and gives no warning. -/
theorem Word.Holds.makes {word : Word} {instruction : Instruction} (hholds : word.Holds instruction)
    (strict : Bool) (symbols : List (Text × Int)) (place : Place) :
    Line.Makes strict symbols place (instruction.statement word) word [] := by
  obtain ⟨operands, address, hformat, hvalue, hlt, hfields⟩ :=
    Operands.exists_of_fits (word.fits_fieldsAs _) hholds.2
  have hargument : Line.argument (instruction.statement word) =
      instruction.format.operandText (operands.fieldValues address) := by
    rw [hfields, Instruction.argument_statement]
  have hspelled := Operands.spelled_operandText hformat hvalue hlt strict
  have hword : operands.word instruction.opcode address = word :=
    Operands.word_eq_of_fieldValues hholds.1 (by rw [hfields, hformat])
  have hquiet : operands.value.warnings place address = [] := by
    simp only [Value.warnings]
    rw [if_neg (by omega), if_neg (by omega)]
    rfl
  have hlog : Operands.flagWarnings (some place) instruction
      (Line.argument (instruction.statement word)) ++ operands.value.warnings place address = [] := by
    rw [hargument, Operands.flagWarnings_operandText hformat, hquiet]
    rfl
  rw [← hargument] at hspelled
  have haddress : operands.value.address? symbols = some (address : Int) := by
    rw [hvalue]
    rfl
  have hmakes : Line.Makes strict symbols place (instruction.statement word) _ _ :=
    .instruction (instruction.kind_statement word) (instruction.keyword_statement word) hspelled
      haddress (Int.natCast_nonneg address)
  rwa [hword, hlog] at hmakes

example : Word.Holds 0o002652 .ldr ∧ Instruction.ldr.statement 0o002652 = "LDR 1,2,10,1".text := by
  decide +kernel

end TwoPass
