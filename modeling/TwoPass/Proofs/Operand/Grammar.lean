import TwoPass.Operand.Reader
import TwoPass.Proofs.Text.Token

/-!
# The grammar of operands

Which texts spell which operands is said here without the reader: by the fields between the commas, the
numbers that fit them, the spellings of the flags and the forms a memory instruction may take.  The
reader accepts exactly these texts, and returns the operands they spell with one warning for each
unknown shift flag.  Whatever else it is given it refuses, and the error names the line.
-/

namespace TwoPass

def Text.fields (text : Text) : List Text :=
  (text.splitOn (.char ',')).map Text.trim

/-- The token is a numeral for the number, which the field holds. -/
def Field.Holds (field : Field) (token : Text) (number : Fin (field.largest + 1)) : Prop :=
  Text.isDigits (Text.dropSign token) = true ∧ (Text.dropSign token).length ≤ Text.maxDigits ∧
    Text.signedValue token = number

theorem Field.Holds.ne_nil {field : Field} {token : Text} {number : Fin (field.largest + 1)}
    (hholds : field.Holds token number) : token ≠ [] := by
  rintro rfl
  simp [Field.Holds, Text.dropSign, Text.isDigits] at hholds

/-- The token writes the value, as a numeral that can be converted or as a name. -/
def Value.Written (token : Text) (value : Value) : Prop :=
  ofToken? token = some value ∧ Text.Convertible token

theorem Value.Written.ne_nil {token : Text} {value : Value} (hwritten : Value.Written token value) :
    token ≠ [] := by
  rintro rfl
  simp [Value.Written, Value.ofToken?, Text.dropSign, Text.isDigits, Text.isName] at hwritten

/-- The token spells the flag; an unknown spelling counts as clear unless the reading is strict. -/
def ShiftFlag.Reads (strict : Bool) (flag : ShiftFlag) (token : Text) (set : Bool) : Prop :=
  flag.ofToken? token = some set ∨
    (strict = false ∧ token ≠ [] ∧ flag.ofToken? token = none ∧ set = false)

theorem ShiftFlag.Reads.ne_nil {strict : Bool} {flag : ShiftFlag} {token : Text} {set : Bool}
    (hreads : flag.Reads strict token set) : token ≠ [] := by
  rintro rfl
  rcases hreads with hspelled | ⟨-, hne, -⟩
  · cases flag <;> simp [ShiftFlag.ofToken?, Text.upper, settingSpellings, clearingSpellings]
      at hspelled
  · exact hne rfl

/-- The warning due for an unknown spelling of a flag. -/
def ShiftFlag.warnings (place : Option Place) (flag : ShiftFlag) (token : Text) : Log :=
  if flag.ofToken? token = none then [⟨.unknownFlag flag token, place⟩] else []

namespace Operands

/-- The text spells the operands of the instruction. -/
inductive Spelled (strict : Bool) (instruction : Instruction) (text : Text) : Operands → Prop
  /-- Index register and address. -/
  | short {ix addr : Text} {index : Fin 4} {value : Value}
      (hformat : instruction.format = .memory) (hfields : Text.fields text = [ix, addr])
      (hindex : Field.index.Holds ix index) (hvalue : Value.Written addr value) :
      Spelled strict instruction text (.memory 0 index false value)
  /-- Index register, address and the letter `I`, for instructions on an index register. -/
  | shortIndirect {ix addr flag : Text} {index : Fin 4} {value : Value}
      (hformat : instruction.format = .memory) (hfields : Text.fields text = [ix, addr, flag])
      (hform : instruction.hasIndexForm = true) (hflag : Text.upper flag = "I".text)
      (hindex : Field.index.Holds ix index) (hvalue : Value.Written addr value) :
      Spelled strict instruction text (.memory 0 index true value)
  /-- Register, index register and address. -/
  | direct {r ix addr : Text} {register index : Fin 4} {value : Value}
      (hformat : instruction.format = .memory) (hfields : Text.fields text = [r, ix, addr])
      (hform : ¬ (instruction.hasIndexForm = true ∧ Text.upper addr = "I".text))
      (hregister : Field.register.Holds r register) (hindex : Field.index.Holds ix index)
      (hvalue : Value.Written addr value) :
      Spelled strict instruction text (.memory register index false value)
  /-- Register, index register, address and indirect flag. -/
  | full {r ix addr flag : Text} {register index : Fin 4} {indirect : Bool} {value : Value}
      (hformat : instruction.format = .memory) (hfields : Text.fields text = [r, ix, addr, flag])
      (hregister : Field.register.Holds r register) (hindex : Field.index.Holds ix index)
      (hvalue : Value.Written addr value) (hflag : indirectOfToken? flag = some indirect) :
      Spelled strict instruction text (.memory register index indirect value)
  | immediate {r n : Text} {register : Fin 4} {number : Fin 32}
      (hformat : instruction.format = .immediate) (hfields : Text.fields text = [r, n])
      (hregister : Field.register.Holds r register) (hnumber : Field.immediate.Holds n number) :
      Spelled strict instruction text (.immediate register number)
  | registers {x y : Text} {first second : Fin 4}
      (hformat : instruction.format = .register) (hfields : Text.fields text = [x, y])
      (hfirst : Field.register.Holds x first) (hsecond : Field.register.Holds y second) :
      Spelled strict instruction text (.registers first second)
  | shift {r c d k : Text} {register : Fin 4} {count : Fin 16} {left arithmetic : Bool}
      (hformat : instruction.format = .shift) (hfields : Text.fields text = [r, c, d, k])
      (hregister : Field.register.Holds r register) (hcount : Field.shiftCount.Holds c count)
      (hleft : ShiftFlag.direction.Reads strict d left)
      (harithmetic : ShiftFlag.kind.Reads strict k arithmetic) :
      Spelled strict instruction text (.shift register count left arithmetic)
  | device {r n : Text} {register : Fin 4} {number : Fin 32}
      (hformat : instruction.format = .device) (hfields : Text.fields text = [r, n])
      (hregister : Field.register.Holds r register) (hnumber : Field.device.Holds n number) :
      Spelled strict instruction text (.device register number)
  | bare (hformat : instruction.format = .bare) (hblank : Text.trim text = []) :
      Spelled strict instruction text .bare

/-- The warnings due for the shift flags in a text, direction before kind. -/
def flagWarnings (place : Option Place) (instruction : Instruction) (text : Text) : Log :=
  match instruction.format, Text.fields text with
  | .shift, [_, _, direction, kind] =>
      ShiftFlag.direction.warnings place direction ++ ShiftFlag.kind.warnings place kind
  | _, _ => []

end Operands

theorem bind_eq_ok_iff {α β : Type} {first : Except Abort α} {next : α → Except Abort β} {result : β} :
    (first >>= next) = .ok result ↔ ∃ value, first = .ok value ∧ next value = .ok result := by
  cases first with
  | error abort => simp [bind, Except.bind]
  | ok value => simp [bind, Except.bind]

theorem bind_eq_error_iff {α β : Type} {first : Except Abort α} {next : α → Except Abort β}
    {abort : Abort} :
    (first >>= next) = .error abort ↔
      first = .error abort ∨ ∃ value, first = .ok value ∧ next value = .error abort := by
  cases first with
  | error cause => simp [bind, Except.bind]
  | ok value => simp [bind, Except.bind]

theorem map_eq_error_iff {α β : Type} {outcome : Except Abort α} {shape : α → β} {abort : Abort} :
    outcome.map shape = .error abort ↔ outcome = .error abort := by
  cases outcome with
  | error cause => simp [Except.map]
  | ok value => simp [Except.map]

namespace OperandReader

variable (context : Context)

theorem trim_of_mem_fields {text token : Text} (hmem : token ∈ Text.fields text) :
    Text.trim token = token := by
  obtain ⟨part, -, rfl⟩ := List.mem_map.mp hmem
  exact Text.trim_trim part

theorem trim_of_fields_eq {text : Text} {tokens : List Text} (hfields : Text.fields text = tokens) :
    ∀ token ∈ tokens, Text.trim token = token := by
  rw [← hfields]
  exact fun token => trim_of_mem_fields

/-- White space alone is one empty field. -/
theorem fields_of_blank {text : Text} (htrim : Text.trim text = []) : Text.fields text = [[]] := by
  have hcomma : .char ',' ∉ text := by
    intro hmem
    have hblank := (Text.trim_eq_nil_iff text).mp htrim ',' hmem
    simp [Text.isBlank] at hblank
  rw [Text.fields, List.splitOn_eq_singleton hcomma]
  simp [htrim]

theorem fields_eq_ok_iff (format : Format) (text : Text) (tokens : List Text) :
    fields context format text = .ok tokens ↔
      tokens = Text.fields text ∧ ∀ token ∈ Text.fields text, token ≠ [] := by
  unfold fields
  by_cases htrim : Text.trim text = []
  · have hblank := fields_of_blank htrim
    simp [htrim, refuse, hblank]
  · have htokens : (text.splitOn (.char ',')).map Text.trim = Text.fields text := rfl
    simp only [List.isEmpty_iff, htrim, ↓reduceIte, htokens]
    cases hempty : (Text.fields text).findIdx? List.isEmpty with
    | some position =>
        have hsome : ((Text.fields text).findIdx? List.isEmpty).isSome = true := by simp [hempty]
        rw [List.findIdx?_isSome, List.any_eq_true] at hsome
        obtain ⟨token, hmem, hnil⟩ := hsome
        simp only [refuse, reduceCtorEq, false_iff, not_and, not_forall]
        intro _
        exact ⟨token, hmem, by simpa using hnil⟩
    | none =>
        have hall := List.findIdx?_eq_none_iff.mp hempty
        constructor
        · intro hok
          refine ⟨(Except.ok.inj hok).symm, ?_⟩
          intro token hmem hnil
          have hfalse := hall token hmem
          simp [hnil] at hfalse
        · rintro ⟨rfl, -⟩
          rfl

theorem number_eq_ok_iff {field : Field} {token : Text} (htoken : Text.trim token = token)
    (value : Fin (field.largest + 1)) :
    number context field token = .ok value ↔ field.Holds token value := by
  unfold number Field.Holds
  rw [Text.isDecimalToken_of_token htoken, Text.readDecimal_of_token htoken]
  by_cases hdigits : Text.isDigits (Text.dropSign token) = true
  · by_cases hlength : (Text.dropSign token).length ≤ Text.maxDigits
    · by_cases hfits : 0 ≤ Text.signedValue token ∧ Text.signedValue token ≤ field.largest
      · simp only [hdigits, hlength, hfits, ↓reduceIte, and_self, ↓reduceDIte, Except.ok.injEq,
          Fin.ext_iff, true_and]
        omega
      · simp only [hdigits, hlength, hfits, ↓reduceIte, ↓reduceDIte, refuse, reduceCtorEq,
          true_and, false_iff]
        intro heq
        have hbound := value.isLt
        omega
    · simp [hdigits, hlength]
  · simp [hdigits, refuse]

theorem address_eq_ok_iff {token : Text} (htoken : Text.trim token = token) (value : Value) :
    address context token = .ok value ↔ Value.Written token value := by
  unfold address Value.Written
  cases hread : Value.read? token with
  | error fault =>
      have hnot := Value.not_convertible_of_read? htoken hread
      simp [hnot]
  | ok found =>
      obtain ⟨hfound, hconvertible⟩ := Value.ofToken?_of_read? htoken hread
      cases found with
      | none => simp [hfound, refuse]
      | some other => simp [hfound, hconvertible]

theorem indirect_eq_ok_iff (token : Text) (set : Bool) :
    indirect context token = .ok set ↔ indirectOfToken? token = some set := by
  unfold indirect
  cases indirectOfToken? token <;> simp [refuse]

theorem shiftFlag_eq_ok_iff {flag : ShiftFlag} {token : Text} (hne : token ≠ []) (set : Bool)
    (log : Log) :
    shiftFlag context flag token = .ok (set, log) ↔
      flag.Reads context.strict token set ∧ log = flag.warnings context.place token := by
  unfold shiftFlag ShiftFlag.Reads ShiftFlag.warnings
  cases hspelled : flag.ofToken? token with
  | some known =>
      simp only [Except.ok.injEq, Prod.mk.injEq, Option.some.injEq, reduceCtorEq, false_and,
        and_false, or_false, ↓reduceIte]
      exact and_congr_right fun _ => eq_comm
  | none =>
      by_cases hstrict : context.strict = true
      · simp [hstrict, refuse]
      · simp only [hstrict, Bool.false_eq_true, ↓reduceIte, Except.ok.injEq, Prod.mk.injEq,
          reduceCtorEq, hne, ne_eq, not_false_eq_true, true_and, false_or]
        exact and_congr eq_comm eq_comm

theorem shortMemory_eq_ok_iff {ix addr : Text} (hix : Text.trim ix = ix)
    (haddr : Text.trim addr = addr) (set : Bool) (operands : Operands) :
    shortMemory context ix addr set = .ok operands ↔
      ∃ index value, Field.index.Holds ix index ∧ Value.Written addr value ∧
        operands = .memory 0 index set value := by
  simp only [shortMemory, bind_eq_ok_iff, number_eq_ok_iff context hix,
    address_eq_ok_iff context haddr, pure, Except.pure, Except.ok.injEq]
  constructor
  · rintro ⟨index, hindex, value, hvalue, rfl⟩
    exact ⟨index, value, hindex, hvalue, rfl⟩
  · rintro ⟨index, value, hindex, hvalue, rfl⟩
    exact ⟨index, hindex, value, hvalue, rfl⟩

theorem longMemory_eq_ok_iff {r ix addr : Text} (hr : Text.trim r = r) (hix : Text.trim ix = ix)
    (haddr : Text.trim addr = addr) (flag : Option Text) (operands : Operands) :
    longMemory context r ix addr flag = .ok operands ↔
      ∃ register index value set, Field.register.Holds r register ∧ Field.index.Holds ix index ∧
        Value.Written addr value ∧
        (flag.map indirectOfToken?).getD (some false) = some set ∧
        operands = .memory register index set value := by
  cases flag with
  | none =>
      simp only [longMemory, bind_eq_ok_iff, number_eq_ok_iff context hr,
        number_eq_ok_iff context hix, address_eq_ok_iff context haddr, pure, Except.pure,
        Except.ok.injEq]
      constructor
      · rintro ⟨register, hregister, index, hindex, value, hvalue, rfl⟩
        exact ⟨register, index, value, false, hregister, hindex, hvalue, rfl, rfl⟩
      · rintro ⟨register, index, value, set, hregister, hindex, hvalue, hset, rfl⟩
        obtain rfl : false = set := Option.some.inj hset
        exact ⟨register, hregister, index, hindex, value, hvalue, rfl⟩
  | some token =>
      simp only [longMemory, bind_eq_ok_iff, number_eq_ok_iff context hr,
        number_eq_ok_iff context hix, address_eq_ok_iff context haddr, indirect_eq_ok_iff, pure,
        Except.pure, Except.ok.injEq]
      constructor
      · rintro ⟨register, hregister, index, hindex, value, hvalue, set, hset, rfl⟩
        exact ⟨register, index, value, set, hregister, hindex, hvalue, hset, rfl⟩
      · rintro ⟨register, index, value, set, hregister, hindex, hvalue, hset, rfl⟩
        exact ⟨register, hregister, index, hindex, value, hvalue, set, hset, rfl⟩

/-- What a memory instruction accepts is spelled in one of its four forms. -/
theorem spelled_of_memory {instruction : Instruction} (hformat : instruction.format = .memory)
    {text : Text} {operands : Operands}
    (hread : memory context instruction.hasIndexForm text = .ok operands) :
    operands.Spelled context.strict instruction text := by
  simp only [memory, bind_eq_ok_iff, fields_eq_ok_iff] at hread
  obtain ⟨tokens, ⟨hfields, -⟩, hread⟩ := hread
  have htrim := trim_of_fields_eq hfields.symm
  split at hread
  · rw [shortMemory_eq_ok_iff context (htrim _ (by simp)) (htrim _ (by simp))] at hread
    obtain ⟨index, value, hindex, hvalue, rfl⟩ := hread
    exact .short hformat hfields.symm hindex hvalue
  · split at hread
    · rename_i hform
      simp only [Bool.and_eq_true, beq_iff_eq] at hform
      rw [shortMemory_eq_ok_iff context (htrim _ (by simp)) (htrim _ (by simp))] at hread
      obtain ⟨index, value, hindex, hvalue, rfl⟩ := hread
      exact .shortIndirect hformat hfields.symm hform.1 hform.2 hindex hvalue
    · rename_i hform
      simp only [Bool.and_eq_true, beq_iff_eq] at hform
      rw [longMemory_eq_ok_iff context (htrim _ (by simp)) (htrim _ (by simp))
        (htrim _ (by simp))] at hread
      obtain ⟨register, index, value, set, hregister, hindex, hvalue, hset, rfl⟩ := hread
      obtain rfl : false = set := Option.some.inj hset
      exact .direct hformat hfields.symm hform hregister hindex hvalue
  · rw [longMemory_eq_ok_iff context (htrim _ (by simp)) (htrim _ (by simp))
      (htrim _ (by simp))] at hread
    obtain ⟨register, index, value, set, hregister, hindex, hvalue, hset, rfl⟩ := hread
    exact .full hformat hfields.symm hregister hindex hvalue hset
  · simp [wrongCount, refuse] at hread

/-- Two numbers are accepted exactly when there are two fields and each number fits its own. -/
theorem pair_eq_ok_iff (format : Format) (first second : Field)
    (make : Fin (first.largest + 1) → Fin (second.largest + 1) → Operands) (text : Text)
    (operands : Operands) :
    (do
      match ← fields context format text with
      | [left, right] =>
          let left ← number context first left
          let right ← number context second right
          return make left right
      | tokens => wrongCount context format tokens) = .ok operands ↔
      ∃ left right x y, Text.fields text = [left, right] ∧ first.Holds left x ∧
        second.Holds right y ∧ operands = make x y := by
  simp only [bind_eq_ok_iff, fields_eq_ok_iff]
  constructor
  · rintro ⟨tokens, ⟨hfields, -⟩, hread⟩
    have htrim := trim_of_fields_eq hfields.symm
    split at hread
    · simp only [bind_eq_ok_iff, number_eq_ok_iff context (htrim _ List.mem_cons_self),
        number_eq_ok_iff context (htrim _ (List.mem_cons_of_mem _ List.mem_cons_self)), pure,
        Except.pure, Except.ok.injEq] at hread
      obtain ⟨x, hx, y, hy, rfl⟩ := hread
      exact ⟨_, _, x, y, hfields.symm, hx, hy, rfl⟩
    · simp [wrongCount, refuse] at hread
  · rintro ⟨left, right, x, y, hfields, hx, hy, rfl⟩
    have htrim := trim_of_fields_eq hfields
    refine ⟨[left, right], ⟨hfields.symm, ?_⟩, ?_⟩
    · rw [hfields]
      simp [hx.ne_nil, hy.ne_nil]
    · simp only [bind_eq_ok_iff]
      exact ⟨x, (number_eq_ok_iff context (htrim _ (by simp)) x).mpr hx, y,
        (number_eq_ok_iff context (htrim _ (by simp)) y).mpr hy, rfl⟩

theorem immediate_eq_ok_iff (text : Text) (operands : Operands) :
    immediate context text = .ok operands ↔
      ∃ r n register number, Text.fields text = [r, n] ∧ Field.register.Holds r register ∧
        Field.immediate.Holds n number ∧ operands = .immediate register number :=
  pair_eq_ok_iff context .immediate .register .immediate .immediate text operands

theorem registers_eq_ok_iff (text : Text) (operands : Operands) :
    registers context text = .ok operands ↔
      ∃ x y first second, Text.fields text = [x, y] ∧ Field.register.Holds x first ∧
        Field.register.Holds y second ∧ operands = .registers first second :=
  pair_eq_ok_iff context .register .register .register .registers text operands

theorem device_eq_ok_iff (text : Text) (operands : Operands) :
    device context text = .ok operands ↔
      ∃ r n register number, Text.fields text = [r, n] ∧ Field.register.Holds r register ∧
        Field.device.Holds n number ∧ operands = .device register number :=
  pair_eq_ok_iff context .device .register .device .device text operands

theorem shift_eq_ok_iff (text : Text) (operands : Operands) (log : Log) :
    shift context text = .ok (operands, log) ↔
      ∃ r c d k register count left arithmetic, Text.fields text = [r, c, d, k] ∧
        Field.register.Holds r register ∧ Field.shiftCount.Holds c count ∧
        ShiftFlag.direction.Reads context.strict d left ∧
        ShiftFlag.kind.Reads context.strict k arithmetic ∧
        operands = .shift register count left arithmetic ∧
        log = ShiftFlag.direction.warnings context.place d ++
          ShiftFlag.kind.warnings context.place k := by
  simp only [shift, bind_eq_ok_iff, fields_eq_ok_iff]
  constructor
  · rintro ⟨tokens, ⟨hfields, hne⟩, hread⟩
    rw [← hfields] at hne
    have htrim := trim_of_fields_eq hfields.symm
    split at hread
    · simp only [bind_eq_ok_iff, number_eq_ok_iff context (htrim _ List.mem_cons_self),
        number_eq_ok_iff context (htrim _ (List.mem_cons_of_mem _ List.mem_cons_self)), pure,
        Except.pure, Except.ok.injEq, Prod.mk.injEq] at hread
      obtain ⟨register, hregister, count, hcount, ⟨left, leftLog⟩, hleft, ⟨arithmetic, kindLog⟩,
        hkind, rfl, rfl⟩ := hread
      rw [shiftFlag_eq_ok_iff context (hne _ (by simp))] at hleft hkind
      obtain ⟨hleft, rfl⟩ := hleft
      obtain ⟨hkind, rfl⟩ := hkind
      exact ⟨_, _, _, _, register, count, left, arithmetic, hfields.symm, hregister, hcount, hleft,
        hkind, rfl, rfl⟩
    · simp [wrongCount, refuse] at hread
  · rintro ⟨r, c, d, k, register, count, left, arithmetic, hfields, hregister, hcount, hleft, hkind,
      rfl, rfl⟩
    have htrim := trim_of_fields_eq hfields
    refine ⟨[r, c, d, k], ⟨hfields.symm, ?_⟩, ?_⟩
    · rw [hfields]
      simp [hregister.ne_nil, hcount.ne_nil, hleft.ne_nil, hkind.ne_nil]
    · simp only [bind_eq_ok_iff]
      exact ⟨register, (number_eq_ok_iff context (htrim _ (by simp)) register).mpr hregister, count,
        (number_eq_ok_iff context (htrim _ (by simp)) count).mpr hcount, (left, _),
        (shiftFlag_eq_ok_iff context hleft.ne_nil left _).mpr ⟨hleft, rfl⟩, (arithmetic, _),
        (shiftFlag_eq_ok_iff context hkind.ne_nil arithmetic _).mpr ⟨hkind, rfl⟩, rfl⟩

theorem bare_eq_ok_iff (text : Text) (operands : Operands) :
    bare context text = .ok operands ↔ Text.trim text = [] ∧ operands = .bare := by
  unfold bare
  by_cases htrim : Text.trim text = []
  · simp [htrim, eq_comm]
  · simp [htrim, refuse]

/-- Every form of a memory instruction is accepted. -/
theorem memory_of_spelled {instruction : Instruction} (hformat : instruction.format = .memory)
    {text : Text} {operands : Operands}
    (hspelled : operands.Spelled context.strict instruction text) :
    memory context instruction.hasIndexForm text = .ok operands := by
  simp only [memory, bind_eq_ok_iff, fields_eq_ok_iff]
  cases hspelled with
  | short _ hfields hindex hvalue =>
      have htrim := trim_of_fields_eq hfields
      refine ⟨_, ⟨rfl, ?_⟩, ?_⟩
      · rw [hfields]
        simp [hindex.ne_nil, hvalue.ne_nil]
      · rw [hfields]
        exact (shortMemory_eq_ok_iff context (htrim _ (by simp)) (htrim _ (by simp)) _ _).mpr
          ⟨_, _, hindex, hvalue, rfl⟩
  | @shortIndirect _ _ flag _ _ _ hfields hform hflag hindex hvalue =>
      have htrim := trim_of_fields_eq hfields
      have hne : flag ≠ [] := by
        rintro rfl
        simp [Text.upper] at hflag
      refine ⟨_, ⟨rfl, ?_⟩, ?_⟩
      · rw [hfields]
        simp [hindex.ne_nil, hvalue.ne_nil, hne]
      · rw [hfields]
        simp only [hform, hflag, Bool.true_and, beq_self_eq_true, ↓reduceIte]
        exact (shortMemory_eq_ok_iff context (htrim _ (by simp)) (htrim _ (by simp)) _ _).mpr
          ⟨_, _, hindex, hvalue, rfl⟩
  | direct _ hfields hform hregister hindex hvalue =>
      have htrim := trim_of_fields_eq hfields
      refine ⟨_, ⟨rfl, ?_⟩, ?_⟩
      · rw [hfields]
        simp [hregister.ne_nil, hindex.ne_nil, hvalue.ne_nil]
      · rw [hfields]
        simp only [Bool.and_eq_true, beq_iff_eq, hform, ↓reduceIte]
        exact (longMemory_eq_ok_iff context (htrim _ (by simp)) (htrim _ (by simp))
          (htrim _ (by simp)) none _).mpr ⟨_, _, _, _, hregister, hindex, hvalue, rfl, rfl⟩
  | @full _ _ _ flag _ _ _ _ _ hfields hregister hindex hvalue hflag =>
      have htrim := trim_of_fields_eq hfields
      have hne : flag ≠ [] := by
        rintro rfl
        simp [indirectOfToken?, Text.upper] at hflag
      refine ⟨_, ⟨rfl, ?_⟩, ?_⟩
      · rw [hfields]
        simp [hregister.ne_nil, hindex.ne_nil, hvalue.ne_nil, hne]
      · rw [hfields]
        exact (longMemory_eq_ok_iff context (htrim _ (by simp)) (htrim _ (by simp))
          (htrim _ (by simp)) (some _) _).mpr
          ⟨_, _, _, _, hregister, hindex, hvalue, hflag, rfl⟩
  | immediate hother | registers hother | shift hother | device hother | bare hother =>
      rw [hformat] at hother
      contradiction

theorem quietly_eq_ok_iff (outcome : Except Abort Operands) (operands : Operands) (log : Log) :
    quietly outcome = .ok (operands, log) ↔ outcome = .ok operands ∧ log = [] := by
  cases outcome with
  | error abort => simp [quietly, Except.map]
  | ok found =>
      simp only [quietly, Except.map, Except.ok.injEq, Prod.mk.injEq]
      exact and_congr_right fun _ => eq_comm

/-- Reading accepts exactly the texts that spell operands of the instruction, and warns of each
unknown shift flag. -/
theorem read_eq_ok_iff (instruction : Instruction) (text : Text) (operands : Operands) (log : Log) :
    read context instruction text = .ok (operands, log) ↔
      operands.Spelled context.strict instruction text ∧
        log = Operands.flagWarnings context.place instruction text := by
  unfold read Operands.flagWarnings
  cases hformat : instruction.format with
  | memory =>
      simp only [quietly_eq_ok_iff]
      exact and_congr_left fun _ =>
        ⟨spelled_of_memory context hformat, memory_of_spelled context hformat⟩
  | immediate =>
      simp only [quietly_eq_ok_iff, immediate_eq_ok_iff]
      refine and_congr_left fun _ => ⟨?_, ?_⟩
      · rintro ⟨r, n, register, number, hfields, hregister, hnumber, rfl⟩
        exact .immediate hformat hfields hregister hnumber
      · intro hspelled
        cases hspelled with
        | immediate _ hfields hregister hnumber =>
            exact ⟨_, _, _, _, hfields, hregister, hnumber, rfl⟩
        | _ => simp_all
  | register =>
      simp only [quietly_eq_ok_iff, registers_eq_ok_iff]
      refine and_congr_left fun _ => ⟨?_, ?_⟩
      · rintro ⟨x, y, first, second, hfields, hfirst, hsecond, rfl⟩
        exact .registers hformat hfields hfirst hsecond
      · intro hspelled
        cases hspelled with
        | registers _ hfields hfirst hsecond =>
            exact ⟨_, _, _, _, hfields, hfirst, hsecond, rfl⟩
        | _ => simp_all
  | shift =>
      simp only [shift_eq_ok_iff]
      constructor
      · rintro ⟨r, c, d, k, register, count, left, arithmetic, hfields, hregister, hcount, hleft,
          hkind, rfl, rfl⟩
        rw [hfields]
        exact ⟨.shift hformat hfields hregister hcount hleft hkind, rfl⟩
      · rintro ⟨hspelled, rfl⟩
        cases hspelled with
        | shift _ hfields hregister hcount hleft hkind =>
            rw [hfields]
            exact ⟨_, _, _, _, _, _, _, _, rfl, hregister, hcount, hleft, hkind, rfl, rfl⟩
        | _ => simp_all
  | device =>
      simp only [quietly_eq_ok_iff, device_eq_ok_iff]
      refine and_congr_left fun _ => ⟨?_, ?_⟩
      · rintro ⟨r, n, register, number, hfields, hregister, hnumber, rfl⟩
        exact .device hformat hfields hregister hnumber
      · intro hspelled
        cases hspelled with
        | device _ hfields hregister hnumber =>
            exact ⟨_, _, _, _, hfields, hregister, hnumber, rfl⟩
        | _ => simp_all
  | bare =>
      simp only [quietly_eq_ok_iff, bare_eq_ok_iff]
      refine and_congr_left fun _ => ⟨?_, ?_⟩
      · rintro ⟨hblank, rfl⟩
        exact .bare hformat hblank
      · intro hspelled
        cases hspelled with
        | bare _ hblank => exact ⟨hblank, rfl⟩
        | _ => simp_all

end OperandReader

/-- A text spells the operands of an instruction in one way only. -/
theorem Operands.Spelled.unique {strict : Bool} {instruction : Instruction} {text : Text}
    {operands others : Operands} (hspelled : operands.Spelled strict instruction text)
    (hothers : others.Spelled strict instruction text) : operands = others := by
  let context : OperandReader.Context := ⟨[], none, none, strict⟩
  have hread := (OperandReader.read_eq_ok_iff context instruction text operands _).mpr
    ⟨hspelled, rfl⟩
  have hreadOthers := (OperandReader.read_eq_ok_iff context instruction text others _).mpr
    ⟨hothers, rfl⟩
  rw [hread] at hreadOthers
  exact (Prod.mk.inj (Except.ok.inj hreadOthers)).1

end TwoPass
