import TwoPass.Proofs.Failure
import TwoPass.Proofs.Text.Field

/-!
# Which operands are accepted

The operand texts that an instruction accepts are listed by format: how many fields there are between the
commas, which numbers, addresses and flags they hold, and what is recorded of them.  The reader accepts
these texts and no others.  Addresses have no largest number, but like all numerals they must not be too
long to convert.
-/

namespace TwoPass

namespace Text

/-- A numeral, with or without a sign, for a number from zero up to the largest. -/
def IsNumberUpTo (largest : Nat) (token : Text) : Prop :=
  isDigits (dropSign token) = true ∧ (dropSign token).length ≤ maxDigits ∧
    0 ≤ signedValue token ∧ signedValue token ≤ largest

instance (largest : Nat) (token : Text) : Decidable (IsNumberUpTo largest token) :=
  inferInstanceAs (Decidable (_ ∧ _))

/-- A numeral, with or without a sign, or a name. -/
def IsAddress (token : Text) : Prop :=
  (isDigits (dropSign token) = true ∧ (dropSign token).length ≤ maxDigits) ∨ isName token = true

instance (token : Text) : Decidable (IsAddress token) :=
  inferInstanceAs (Decidable (_ ∨ _))

/-- The number or the label that an address field holds. -/
def addressValue (token : Text) : Value :=
  if isDigits (dropSign token) then .literal (signedValue token) else .label token

end Text

/-- The token is a flag; unless the reading is strict, any spelling is taken. -/
def ShiftFlag.Takes (flag : ShiftFlag) (strict : Bool) (token : Text) : Prop :=
  token ≠ [] ∧
    (strict = true → Text.upper token ∈ flag.settingSpellings ++ flag.clearingSpellings)

instance (flag : ShiftFlag) (strict : Bool) (token : Text) : Decidable (flag.Takes strict token) :=
  inferInstanceAs (Decidable (_ ∧ _))

/-- The third of three fields is a flag: the instruction is `LDX` or `STX`, and the field is the letter
`I` in either case. -/
def Instruction.EndsIndirect (instruction : Instruction) (third : Text) : Prop :=
  (instruction = .ldx ∨ instruction = .stx) ∧ Text.upper third = "I".text

instance (instruction : Instruction) (third : Text) : Decidable (instruction.EndsIndirect third) :=
  inferInstanceAs (Decidable (_ ∧ _))

namespace Instruction

/-- The text is an operand list of the instruction. -/
def Accepts (instruction : Instruction) (strict : Bool) (text : Text) : Prop :=
  match instruction.format, Text.fields text with
  | .memory, [ix, addr] => Text.IsNumberUpTo 3 ix ∧ Text.IsAddress addr
  | .memory, [first, second, third] =>
      if instruction.EndsIndirect third then Text.IsNumberUpTo 3 first ∧ Text.IsAddress second
      else Text.IsNumberUpTo 3 first ∧ Text.IsNumberUpTo 3 second ∧ Text.IsAddress third
  | .memory, [r, ix, addr, flag] =>
      Text.IsNumberUpTo 3 r ∧ Text.IsNumberUpTo 3 ix ∧ Text.IsAddress addr ∧
        Text.upper flag ∈ ["0".text, "1".text, "I".text]
  | .immediate, [r, n] => Text.IsNumberUpTo 3 r ∧ Text.IsNumberUpTo 31 n
  | .register, [x, y] => Text.IsNumberUpTo 3 x ∧ Text.IsNumberUpTo 3 y
  | .shift, [r, c, d, k] =>
      Text.IsNumberUpTo 3 r ∧ Text.IsNumberUpTo 15 c ∧ ShiftFlag.direction.Takes strict d ∧
        ShiftFlag.kind.Takes strict k
  | .device, [r, n] => Text.IsNumberUpTo 3 r ∧ Text.IsNumberUpTo 31 n
  | .bare, _ => Text.trim text = []
  | _, _ => False

instance (instruction : Instruction) (strict : Bool) (text : Text) :
    Decidable (instruction.Accepts strict text) := by
  unfold Accepts
  split <;> infer_instance

/-- The operands hold what stands in the fields of the text. -/
def Records (instruction : Instruction) (text : Text) (operands : Operands) : Prop :=
  match instruction.format, Text.fields text, operands with
  | .memory, [ix, addr], .memory register index indirect value =>
      register.val = 0 ∧ Text.signedValue ix = index ∧ value = Text.addressValue addr ∧ indirect = false
  | .memory, [first, second, third], .memory register index indirect value =>
      if instruction.EndsIndirect third then
        register.val = 0 ∧ Text.signedValue first = index ∧ value = Text.addressValue second ∧
          indirect = true
      else
        Text.signedValue first = register ∧ Text.signedValue second = index ∧
          value = Text.addressValue third ∧ indirect = false
  | .memory, [r, ix, addr, flag], .memory register index indirect value =>
      Text.signedValue r = register ∧ Text.signedValue ix = index ∧
        value = Text.addressValue addr ∧ indirect = (Text.upper flag != "0".text)
  | .immediate, [r, n], .immediate register number =>
      Text.signedValue r = register ∧ Text.signedValue n = number
  | .register, [x, y], .registers first second =>
      Text.signedValue x = first ∧ Text.signedValue y = second
  | .shift, [r, c, d, k], .shift register count left arithmetic =>
      Text.signedValue r = register ∧ Text.signedValue c = count ∧
        left = ShiftFlag.direction.settingSpellings.contains (Text.upper d) ∧
        arithmetic = ShiftFlag.kind.settingSpellings.contains (Text.upper k)
  | .device, [r, n], .device register number =>
      Text.signedValue r = register ∧ Text.signedValue n = number
  | .bare, _, .bare => True
  | _, _, _ => False

end Instruction

theorem Field.Holds.isNumberUpTo {field : Field} {token : Text} {number : Fin (field.largest + 1)}
    (hholds : field.Holds token number) : Text.IsNumberUpTo field.largest token := by
  obtain ⟨hdigits, hlength, hvalue⟩ := hholds
  have hlt := number.isLt
  refine ⟨hdigits, hlength, ?_, ?_⟩
  · omega
  · omega

theorem Field.exists_holds (field : Field) {token : Text}
    (hnumber : Text.IsNumberUpTo field.largest token) : ∃ number, field.Holds token number := by
  obtain ⟨hdigits, hlength, hnonneg, hle⟩ := hnumber
  exact ⟨⟨(Text.signedValue token).toNat, by omega⟩, hdigits, hlength,
    (Int.toNat_of_nonneg hnonneg).symm⟩

theorem Text.isAddress_iff (token : Text) :
    IsAddress token ↔
      (isDigits (dropSign token) = true ∨ isName token = true) ∧ Convertible token := by
  constructor
  · rintro (⟨hdigits, hlength⟩ | hname)
    · exact ⟨Or.inl hdigits, fun _ => hlength⟩
    · refine ⟨Or.inr hname, fun hdigits => ?_⟩
      rw [not_isDigits_of_isName hname] at hdigits
      contradiction
  · rintro ⟨hdigits | hname, hconvertible⟩
    · exact Or.inl ⟨hdigits, hconvertible hdigits⟩
    · exact Or.inr hname

theorem Value.written_iff (token : Text) (value : Value) :
    Value.Written token value ↔ Text.IsAddress token ∧ value = Text.addressValue token := by
  have hsome : Text.isDigits (Text.dropSign token) = true ∨ Text.isName token = true →
      ofToken? token = some (Text.addressValue token) := by
    intro hform
    unfold ofToken? Text.addressValue
    split
    · rfl
    · rename_i hdigits
      rw [if_pos (hform.resolve_left hdigits)]
  rw [Text.isAddress_iff]
  constructor
  · rintro ⟨hvalue, hconvertible⟩
    have hform := (Line.ofToken?_isSome_iff token).mp (Option.isSome_of_eq_some hvalue)
    rw [hsome hform] at hvalue
    exact ⟨⟨hform, hconvertible⟩, (Option.some.inj hvalue).symm⟩
  · rintro ⟨⟨hform, hconvertible⟩, rfl⟩
    exact ⟨hsome hform, hconvertible⟩

theorem Value.exists_written {token : Text} (haddress : Text.IsAddress token) :
    ∃ value, Value.Written token value :=
  ⟨Text.addressValue token, (written_iff token _).mpr ⟨haddress, rfl⟩⟩

theorem ShiftFlag.reads_iff (flag : ShiftFlag) (strict : Bool) (token : Text) (set : Bool) :
    flag.Reads strict token set ↔
      flag.Takes strict token ∧ set = flag.settingSpellings.contains (Text.upper token) := by
  by_cases hnil : token = []
  · constructor
    · intro hreads
      exact absurd hnil hreads.ne_nil
    · rintro ⟨⟨hne, -⟩, -⟩
      exact absurd hnil hne
  · by_cases hset : Text.upper token ∈ flag.settingSpellings
    · cases set <;> simp [Reads, Takes, ofToken?, hset, hnil]
    · by_cases hclear : Text.upper token ∈ flag.clearingSpellings
      · cases set <;> simp [Reads, Takes, ofToken?, hset, hclear, hnil]
      · cases set <;> simp [Reads, Takes, ofToken?, hset, hclear, hnil]

theorem ShiftFlag.exists_reads {flag : ShiftFlag} {strict : Bool} {token : Text}
    (htakes : flag.Takes strict token) : ∃ set, flag.Reads strict token set :=
  ⟨_, (flag.reads_iff strict token _).mpr ⟨htakes, rfl⟩⟩

theorem indirectOfToken?_eq_some_iff (token : Text) (set : Bool) :
    indirectOfToken? token = some set ↔
      Text.upper token ∈ ["0".text, "1".text, "I".text] ∧
        set = (Text.upper token != "0".text) := by
  unfold indirectOfToken?
  generalize Text.upper token = spelled
  by_cases hone : spelled = "1".text
  · subst hone
    cases set <;> decide
  · by_cases hletter : spelled = "I".text
    · subst hletter
      cases set <;> decide
    · by_cases hzero : spelled = "0".text
      · subst hzero
        cases set <;> decide
      · simp only [List.mem_cons, List.not_mem_nil, hone, hletter, hzero, decide_false,
          Bool.or_self, Bool.false_eq_true, ↓reduceIte, reduceCtorEq, or_self, false_and]

theorem Instruction.endsIndirect_iff (instruction : Instruction) (third : Text) :
    instruction.EndsIndirect third ↔
      instruction.hasIndexForm = true ∧ Text.upper third = "I".text := by
  cases instruction <;> simp [EndsIndirect, hasIndexForm]

namespace Instruction

variable {strict : Bool} {instruction : Instruction} {text : Text} {operands : Operands}

/-- What a text spells is accepted and recorded. -/
theorem accepts_and_records_of_spelled (hspelled : operands.Spelled strict instruction text) :
    instruction.Accepts strict text ∧ instruction.Records text operands := by
  unfold Accepts Records
  cases hspelled with
  | short hformat hfields hindex hvalue =>
      obtain ⟨haddress, hvalue⟩ := (Value.written_iff _ _).mp hvalue
      simp only [hformat, hfields]
      exact ⟨⟨hindex.isNumberUpTo, haddress⟩, rfl, hindex.2.2, hvalue, trivial⟩
  | shortIndirect hformat hfields hform hflag hindex hvalue =>
      obtain ⟨haddress, hvalue⟩ := (Value.written_iff _ _).mp hvalue
      have hends := (instruction.endsIndirect_iff _).mpr ⟨hform, hflag⟩
      simp only [hformat, hfields, if_pos hends]
      exact ⟨⟨hindex.isNumberUpTo, haddress⟩, rfl, hindex.2.2, hvalue, trivial⟩
  | direct hformat hfields hform hregister hindex hvalue =>
      obtain ⟨haddress, hvalue⟩ := (Value.written_iff _ _).mp hvalue
      have hends := mt (instruction.endsIndirect_iff _).mp hform
      simp only [hformat, hfields, if_neg hends]
      exact ⟨⟨hregister.isNumberUpTo, hindex.isNumberUpTo, haddress⟩, hregister.2.2, hindex.2.2,
        hvalue, trivial⟩
  | full hformat hfields hregister hindex hvalue hflag =>
      obtain ⟨haddress, hvalue⟩ := (Value.written_iff _ _).mp hvalue
      obtain ⟨hspelling, hset⟩ := (indirectOfToken?_eq_some_iff _ _).mp hflag
      simp only [hformat, hfields]
      exact ⟨⟨hregister.isNumberUpTo, hindex.isNumberUpTo, haddress, hspelling⟩, hregister.2.2,
        hindex.2.2, hvalue, hset⟩
  | immediate hformat hfields hregister hnumber =>
      simp only [hformat, hfields]
      exact ⟨⟨hregister.isNumberUpTo, hnumber.isNumberUpTo⟩, hregister.2.2, hnumber.2.2⟩
  | registers hformat hfields hfirst hsecond =>
      simp only [hformat, hfields]
      exact ⟨⟨hfirst.isNumberUpTo, hsecond.isNumberUpTo⟩, hfirst.2.2, hsecond.2.2⟩
  | shift hformat hfields hregister hcount hleft harithmetic =>
      obtain ⟨hdirection, hleft⟩ := (ShiftFlag.reads_iff _ _ _ _).mp hleft
      obtain ⟨hkind, harithmetic⟩ := (ShiftFlag.reads_iff _ _ _ _).mp harithmetic
      simp only [hformat, hfields]
      exact ⟨⟨hregister.isNumberUpTo, hcount.isNumberUpTo, hdirection, hkind⟩, hregister.2.2,
        hcount.2.2, hleft, harithmetic⟩
  | device hformat hfields hregister hnumber =>
      simp only [hformat, hfields]
      exact ⟨⟨hregister.isNumberUpTo, hnumber.isNumberUpTo⟩, hregister.2.2, hnumber.2.2⟩
  | bare hformat hblank =>
      simp only [hformat]
      exact ⟨hblank, trivial⟩

/-- What is accepted spells operands. -/
theorem exists_spelled_of_accepts (haccepts : instruction.Accepts strict text) :
    ∃ operands : Operands, operands.Spelled strict instruction text := by
  unfold Accepts at haccepts
  split at haccepts
  · rename_i hformat hfields
    obtain ⟨hix, haddr⟩ := haccepts
    obtain ⟨index, hindex⟩ := Field.exists_holds .index hix
    obtain ⟨value, hvalue⟩ := Value.exists_written haddr
    exact ⟨_, .short hformat hfields hindex hvalue⟩
  · rename_i hformat hfields
    split at haccepts
    · rename_i hends
      obtain ⟨hform, hflag⟩ := (instruction.endsIndirect_iff _).mp hends
      obtain ⟨hix, haddr⟩ := haccepts
      obtain ⟨index, hindex⟩ := Field.exists_holds .index hix
      obtain ⟨value, hvalue⟩ := Value.exists_written haddr
      exact ⟨_, .shortIndirect hformat hfields hform hflag hindex hvalue⟩
    · rename_i hends
      obtain ⟨hr, hix, haddr⟩ := haccepts
      obtain ⟨register, hregister⟩ := Field.exists_holds .register hr
      obtain ⟨index, hindex⟩ := Field.exists_holds .index hix
      obtain ⟨value, hvalue⟩ := Value.exists_written haddr
      exact ⟨_, .direct hformat hfields (mt (instruction.endsIndirect_iff _).mpr hends) hregister
        hindex hvalue⟩
  · rename_i hformat hfields
    obtain ⟨hr, hix, haddr, hflag⟩ := haccepts
    obtain ⟨register, hregister⟩ := Field.exists_holds .register hr
    obtain ⟨index, hindex⟩ := Field.exists_holds .index hix
    obtain ⟨value, hvalue⟩ := Value.exists_written haddr
    exact ⟨_, .full hformat hfields hregister hindex hvalue
      ((indirectOfToken?_eq_some_iff _ _).mpr ⟨hflag, rfl⟩)⟩
  · rename_i hformat hfields
    obtain ⟨hr, hn⟩ := haccepts
    obtain ⟨register, hregister⟩ := Field.exists_holds .register hr
    obtain ⟨number, hnumber⟩ := Field.exists_holds .immediate hn
    exact ⟨_, .immediate hformat hfields hregister hnumber⟩
  · rename_i hformat hfields
    obtain ⟨hx, hy⟩ := haccepts
    obtain ⟨first, hfirst⟩ := Field.exists_holds .register hx
    obtain ⟨second, hsecond⟩ := Field.exists_holds .register hy
    exact ⟨_, .registers hformat hfields hfirst hsecond⟩
  · rename_i hformat hfields
    obtain ⟨hr, hc, hd, hk⟩ := haccepts
    obtain ⟨register, hregister⟩ := Field.exists_holds .register hr
    obtain ⟨count, hcount⟩ := Field.exists_holds .shiftCount hc
    obtain ⟨left, hleft⟩ := ShiftFlag.exists_reads hd
    obtain ⟨arithmetic, harithmetic⟩ := ShiftFlag.exists_reads hk
    exact ⟨_, .shift hformat hfields hregister hcount hleft harithmetic⟩
  · rename_i hformat hfields
    obtain ⟨hr, hn⟩ := haccepts
    obtain ⟨register, hregister⟩ := Field.exists_holds .register hr
    obtain ⟨number, hnumber⟩ := Field.exists_holds .device hn
    exact ⟨_, .device hformat hfields hregister hnumber⟩
  · rename_i hformat
    exact ⟨_, .bare hformat haccepts⟩
  · exact haccepts.elim

end Instruction

namespace OperandReader

/-- The reader takes the operand lists of the instruction and no other text, and records what they hold.
It gives up on a numeral that is too long, and refuses all else as operand syntax. -/
structure ReadsExactly (context : Context) (instruction : Instruction) (text : Text) : Prop where
  accepts : (∃ operands log, read context instruction text = .ok (operands, log)) ↔
    instruction.Accepts context.strict text
  records : ∀ operands log, read context instruction text = .ok (operands, log) →
    instruction.Records text operands ∧
      log = Operands.flagWarnings context.place instruction text
  givesUp : instruction.LongOperand text →
    ∃ fault, read context instruction text = .error (.numeral fault)
  refuses : ¬ instruction.Accepts context.strict text → ¬ instruction.LongOperand text →
    ∃ cause : Error.Cause, cause.category = .operandSyntax ∧
      read context instruction text = .error (.error ⟨cause, context.place, context.sourceLine⟩)

theorem exists_read_iff (context : Context) (instruction : Instruction) (text : Text) :
    (∃ operands log, read context instruction text = .ok (operands, log)) ↔
      instruction.Accepts context.strict text := by
  constructor
  · rintro ⟨operands, log, hread⟩
    have hspelled := ((read_eq_ok_iff context instruction text operands log).mp hread).1
    exact (Instruction.accepts_and_records_of_spelled hspelled).1
  · intro haccepts
    obtain ⟨operands, hspelled⟩ := Instruction.exists_spelled_of_accepts haccepts
    exact ⟨operands, _, (read_eq_ok_iff context instruction text operands _).mpr ⟨hspelled, rfl⟩⟩

/-- Every operand text, for every instruction and in both modes, is read exactly as the list of accepted
forms says. -/
theorem readsExactly (context : Context) (instruction : Instruction) (text : Text) :
    ReadsExactly context instruction text where
  accepts := exists_read_iff context instruction text
  records operands log hread := by
    obtain ⟨hspelled, hlog⟩ := (read_eq_ok_iff context instruction text operands log).mp hread
    exact ⟨(Instruction.accepts_and_records_of_spelled hspelled).2, hlog⟩
  givesUp := (reads_read context text instruction).of_long
  refuses hnot hshort := by
    cases hread : read context instruction text with
    | ok result =>
        exact absurd ((exists_read_iff context instruction text).mp ⟨result.1, result.2, hread⟩) hnot
    | error abort =>
        obtain ⟨cause, hcategory, -, rfl⟩ :=
          (reads_read context text instruction).of_short hshort abort hread
        exact ⟨cause, hcategory, rfl⟩

example : Instruction.ldx.Accepts true " +03 ,\t-0 ,i ".text := by decide +kernel

example : ¬ Instruction.ldr.Accepts false "1,2,3,x".text := by decide +kernel

theorem fields_of_long_address {digits : Text} (hdigits : Text.isDigits digits = true) :
    Text.fields ("0,0,".text ++ digits) = ["0".text, "0".text, digits] := by
  have hplain : ∀ c ∈ digits, Text.isPlain c = true := by
    intro c hmem
    simp only [Text.isDigits, Bool.and_eq_true, List.all_eq_true] at hdigits
    exact Text.isPlain_of_isDigit (hdigits.2 c hmem)
  have hfront : Text.fields "0".text = ["0".text] := by decide
  have hlast : Text.fields digits = [digits] :=
    Line.fields_of_isDigits (Text.trim_of_isPlain hplain)
      ((Text.dropSign_of_isDigits hdigits).symm ▸ hdigits)
  calc Text.fields ("0,0,".text ++ digits)
      = Text.fields ("0".text ++ .char ',' :: ("0".text ++ .char ',' :: digits)) := rfl
    _ = ["0".text, "0".text, digits] := by
      rw [Text.fields_append_comma, Text.fields_append_comma, hfront, hlast]
      rfl

/-- An address of too many digits is given up on, whatever its value. -/
theorem exists_fault_of_long_address (context : Context) {digits : Text}
    (hdigits : Text.isDigits digits = true) (hlong : Text.maxDigits < digits.length) :
    ∃ fault, read context .ldr ("0,0,".text ++ digits) = .error (.numeral fault) := by
  have hunsigned := Text.dropSign_of_isDigits hdigits
  have hzero : ∀ field : Field, (Slot.number field).Accepts "0".text := by
    intro field
    exact ⟨0, by decide, by decide, rfl⟩
  have hnot : ¬ Text.Convertible digits := by
    intro hconvertible
    have hlength := hconvertible (hunsigned.symm ▸ hdigits)
    rw [hunsigned] at hlength
    omega
  apply (reads_read context _ .ldr).of_long
  rw [Instruction.LongOperand, fields_of_long_address hdigits]
  constructor
  · have hne : digits ≠ [] := by
      rintro rfl
      contradiction
    simp [hne]
  · exact Or.inr ⟨hzero .register, Or.inr ⟨hzero .index, Or.inl hnot⟩⟩

/-- Zeros are a numeral for zero, but as an address too many of them are neither accepted nor refused as
operand syntax. -/
theorem read_of_long_zero :
    Text.fields ("0,0,".text ++ List.replicate 4301 (.char '0')) =
        ["0".text, "0".text, List.replicate 4301 (.char '0')] ∧
      Text.isDigits (List.replicate 4301 (.char '0')) = true ∧
      Text.signedValue (List.replicate 4301 (.char '0')) = 0 ∧
      ∀ context : Context, ∃ fault,
        read context .ldr ("0,0,".text ++ List.replicate 4301 (.char '0')) = .error (.numeral fault) := by
  have hdigits : Text.isDigits (List.replicate 4301 (.char '0')) = true := by decide +kernel
  have hlong : Text.maxDigits < (List.replicate 4301 (CodePoint.char '0')).length := by decide +kernel
  exact ⟨fields_of_long_address hdigits, hdigits, by decide +kernel,
    fun context => exists_fault_of_long_address context hdigits hlong⟩

end OperandReader

end TwoPass
