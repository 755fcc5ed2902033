import TwoPass.Proofs.Operand.Grammar

/-!
# Refused operands

Operands that the reader does not accept end the run with an error of operand syntax that names the
line, unless the first field that is not accepted is a numeral too long to convert.  Which texts come
to such a numeral is said without the reader, by the slots that the fields fill.
-/

namespace TwoPass

/-- What a field that holds a numeral is read as. -/
inductive Slot
  /-- A number that fits the field. -/
  | number (field : Field)
  /-- A number or a label. -/
  | address
  deriving DecidableEq, Repr

def Slot.Accepts : Slot → Text → Prop
  | .number field, token => ∃ number, field.Holds token number
  | .address, token => ∃ value, Value.Written token value

/-- Of the tokens that their slots do not take, the first is a numeral too long to convert. -/
def Slot.FirstLong : List (Slot × Text) → Prop
  | [] => False
  | (slot, token) :: rest => ¬ Text.Convertible token ∨ (slot.Accepts token ∧ FirstLong rest)

theorem Slot.not_firstLong {slots : List (Slot × Text)}
    (hconvertible : ∀ filled ∈ slots, Text.Convertible filled.2) : ¬ FirstLong slots := by
  induction slots with
  | nil => exact id
  | cons filled rest ih =>
      rintro (hlong | ⟨-, hrest⟩)
      · exact hlong (hconvertible filled List.mem_cons_self)
      · exact ih (fun other hmem => hconvertible other (List.mem_cons_of_mem filled hmem)) hrest

namespace Instruction

/-- The slots of a memory instruction, in the order in which they are read.  The flag of indirection is
not among them. -/
def memorySlots (indexForm : Bool) : List Text → List (Slot × Text)
  | [ix, addr] => [(.number .index, ix), (.address, addr)]
  | [first, second, third] =>
      if indexForm = true ∧ Text.upper third = "I".text then
        [(.number .index, first), (.address, second)]
      else [(.number .register, first), (.number .index, second), (.address, third)]
  | [r, ix, addr, _] => [(.number .register, r), (.number .index, ix), (.address, addr)]
  | _ => []

def pairSlots (first second : Field) : List Text → List (Slot × Text)
  | [left, right] => [(.number first, left), (.number second, right)]
  | _ => []

def shiftSlots : List Text → List (Slot × Text)
  | [r, c, _, _] => [(.number .register, r), (.number .shiftCount, c)]
  | _ => []

/-- The slots that fields fill; fields in a wrong number fill none. -/
def slots (instruction : Instruction) (tokens : List Text) : List (Slot × Text) :=
  match instruction.format with
  | .memory => memorySlots instruction.hasIndexForm tokens
  | .immediate => pairSlots .register .immediate tokens
  | .register => pairSlots .register .register tokens
  | .shift => shiftSlots tokens
  | .device => pairSlots .register .device tokens
  | .bare => []

/-- A slot is filled with one of the fields. -/
theorem mem_of_mem_slots {instruction : Instruction} {tokens : List Text} {filled : Slot × Text}
    (hmem : filled ∈ instruction.slots tokens) : filled.2 ∈ tokens := by
  unfold slots memorySlots pairSlots shiftSlots at hmem
  grind

/-- Reading the operand text comes to a numeral that is too long. -/
def LongOperand (instruction : Instruction) (text : Text) : Prop :=
  (∀ token ∈ Text.fields text, token ≠ []) ∧
    Slot.FirstLong (instruction.slots (Text.fields text))

theorem not_longOperand {instruction : Instruction} {text : Text}
    (hconvertible : ∀ token ∈ Text.fields text, Text.Convertible token) :
    ¬ instruction.LongOperand text := by
  rintro ⟨-, hlong⟩
  exact Slot.not_firstLong (fun filled hmem => hconvertible _ (mem_of_mem_slots hmem)) hlong

end Instruction

namespace OperandReader

variable (context : Context)

/-- If the computation fails, it does so with an error of operand syntax at the line, whose message
writes no number but those of fields. -/
def OnlyRefuses {α : Type} (outcome : Except Abort α) : Prop :=
  ∀ abort, outcome = .error abort →
    ∃ cause : Error.Cause, cause.category = .operandSyntax ∧ cause.numbers = [] ∧
      abort = .error ⟨cause, context.place, context.sourceLine⟩

theorem onlyRefuses_ok {α : Type} (value : α) : OnlyRefuses context (.ok value) := by
  intro abort herror
  contradiction

theorem onlyRefuses_refuse {α : Type} {cause : Error.Cause}
    (hcategory : cause.category = .operandSyntax) (hnumbers : cause.numbers = []) :
    OnlyRefuses context (refuse context cause : Except Abort α) := by
  intro abort herror
  exact ⟨cause, hcategory, hnumbers, (Except.error.inj herror).symm⟩

variable {context}

theorem OnlyRefuses.bind {α β : Type} {first : Except Abort α} {next : α → Except Abort β}
    (hfirst : OnlyRefuses context first)
    (hnext : ∀ value, first = .ok value → OnlyRefuses context (next value)) :
    OnlyRefuses context (first >>= next) := by
  cases hcase : first with
  | error abort =>
      intro other herror
      obtain rfl : abort = other := Except.error.inj herror
      exact hfirst abort hcase
  | ok value => exact hnext value hcase

theorem OnlyRefuses.quietly {outcome : Except Abort Operands}
    (houtcome : OnlyRefuses context outcome) : OnlyRefuses context (quietly outcome) := by
  cases outcome with
  | error abort =>
      intro other herror
      exact houtcome other (by simpa [OperandReader.quietly, Except.map] using herror)
  | ok operands => exact onlyRefuses_ok context _

variable (context)

theorem onlyRefuses_fields (format : Format) (text : Text) :
    OnlyRefuses context (fields context format text) := by
  unfold fields
  split
  · exact onlyRefuses_refuse context rfl rfl
  · dsimp only
    split
    · exact onlyRefuses_refuse context rfl rfl
    · exact onlyRefuses_ok context _

theorem onlyRefuses_number (field : Field) {token : Text} (htoken : Text.trim token = token)
    (hconvertible : Text.Convertible token) : OnlyRefuses context (number context field token) := by
  unfold number
  rw [Text.isDecimalToken_of_token htoken, Text.readDecimal_of_token htoken]
  by_cases hdigits : Text.isDigits (Text.dropSign token) = true
  · rw [if_pos hdigits, if_pos (hconvertible hdigits)]
    dsimp only
    split
    · exact onlyRefuses_ok context _
    · exact onlyRefuses_refuse context rfl rfl
  · rw [if_neg hdigits]
    exact onlyRefuses_refuse context rfl rfl

theorem onlyRefuses_address {token : Text} (htoken : Text.trim token = token)
    (hconvertible : Text.Convertible token) : OnlyRefuses context (address context token) := by
  unfold address
  rw [Value.read?_of_convertible htoken hconvertible]
  cases Value.ofToken? token with
  | none => exact onlyRefuses_refuse context rfl rfl
  | some value => exact onlyRefuses_ok context _

theorem onlyRefuses_indirect (token : Text) : OnlyRefuses context (indirect context token) := by
  unfold indirect
  split
  · exact onlyRefuses_ok context _
  · exact onlyRefuses_refuse context rfl rfl

theorem onlyRefuses_shiftFlag (flag : ShiftFlag) (token : Text) :
    OnlyRefuses context (shiftFlag context flag token) := by
  unfold shiftFlag
  split
  · exact onlyRefuses_ok context _
  · split
    · exact onlyRefuses_refuse context rfl rfl
    · exact onlyRefuses_ok context _

theorem onlyRefuses_wrongCount {α : Type} (format : Format) (tokens : List Text) :
    OnlyRefuses context (wrongCount context format tokens : Except Abort α) :=
  onlyRefuses_refuse context rfl rfl

theorem onlyRefuses_bare (text : Text) : OnlyRefuses context (bare context text) := by
  unfold bare
  dsimp only
  split
  · exact onlyRefuses_ok context _
  · exact onlyRefuses_refuse context rfl rfl

/-- The computation gives up on a numeral exactly when a condition holds, and otherwise only refuses. -/
structure Reads {α : Type} (long : Prop) (outcome : Except Abort α) : Prop where
  of_long : long → ∃ fault, outcome = .error (.numeral fault)
  of_short : ¬ long → OnlyRefuses context outcome

variable {context}

theorem Reads.congr {α : Type} {long other : Prop} {outcome : Except Abort α}
    (hreads : Reads context long outcome) (hiff : other ↔ long) : Reads context other outcome :=
  ⟨fun hlong => hreads.of_long (hiff.mp hlong),
    fun hshort => hreads.of_short (fun hlong => hshort (hiff.mpr hlong))⟩

theorem OnlyRefuses.reads {α : Type} {outcome : Except Abort α}
    (honly : OnlyRefuses context outcome) : Reads context False outcome :=
  ⟨False.elim, fun _ => honly⟩

theorem Reads.bind {α β : Type} {first : Except Abort α} {next : α → Except Abort β} {long : Prop}
    {longNext : α → Prop} (hfirst : Reads context long first)
    (hnext : ∀ value, first = .ok value → Reads context (longNext value) (next value)) :
    Reads context (long ∨ ∃ value, first = .ok value ∧ longNext value) (first >>= next) := by
  constructor
  · rintro (hlong | ⟨value, hvalue, hlong⟩)
    · obtain ⟨fault, hfault⟩ := hfirst.of_long hlong
      exact ⟨fault, by rw [hfault]; rfl⟩
    · obtain ⟨fault, hfault⟩ := (hnext value hvalue).of_long hlong
      exact ⟨fault, by rw [hvalue]; exact hfault⟩
  · intro hshort
    rw [not_or, not_exists] at hshort
    refine (hfirst.of_short hshort.1).bind fun value hvalue => ?_
    exact (hnext value hvalue).of_short fun hlong => hshort.2 value ⟨hvalue, hlong⟩

theorem Reads.quietly {outcome : Except Abort Operands} {long : Prop}
    (hreads : Reads context long outcome) : Reads context long (quietly outcome) := by
  constructor
  · intro hlong
    obtain ⟨fault, hfault⟩ := hreads.of_long hlong
    exact ⟨fault, by rw [hfault]; rfl⟩
  · intro hshort
    exact (hreads.of_short hshort).quietly

variable (context)

theorem reads_number (field : Field) {token : Text} (htoken : Text.trim token = token) :
    Reads context (¬ Text.Convertible token) (number context field token) := by
  constructor
  · intro hlong
    rw [Text.Convertible, Classical.not_imp] at hlong
    refine ⟨⟨(Text.dropSign token).length⟩, ?_⟩
    simp [number, Text.isDecimalToken_of_token htoken, Text.readDecimal_of_token htoken, hlong]
  · intro hshort
    exact onlyRefuses_number context field htoken (not_not.mp hshort)

theorem reads_address {token : Text} (htoken : Text.trim token = token) :
    Reads context (¬ Text.Convertible token) (address context token) := by
  constructor
  · intro hlong
    cases hread : Value.read? token with
    | error fault => exact ⟨fault, by rw [address, hread]⟩
    | ok value => exact absurd (Value.ofToken?_of_read? htoken hread).2 hlong
  · intro hshort
    exact onlyRefuses_address context htoken (not_not.mp hshort)

variable {context}

/-- A number in front of what else is read. -/
theorem Reads.number_bind {β : Type} {field : Field} {token : Text} {rest : List (Slot × Text)}
    {next : Fin (field.largest + 1) → Except Abort β} (htoken : Text.trim token = token)
    (hnext : ∀ value, Reads context (Slot.FirstLong rest) (next value)) :
    Reads context (Slot.FirstLong ((.number field, token) :: rest))
      (number context field token >>= next) := by
  refine ((reads_number context field htoken).bind fun value _ => hnext value).congr ?_
  simp only [Slot.FirstLong, Slot.Accepts, number_eq_ok_iff context htoken, exists_and_right]

/-- An address in front of what else is read. -/
theorem Reads.address_bind {β : Type} {token : Text} {rest : List (Slot × Text)}
    {next : Value → Except Abort β} (htoken : Text.trim token = token)
    (hnext : ∀ value, Reads context (Slot.FirstLong rest) (next value)) :
    Reads context (Slot.FirstLong ((.address, token) :: rest)) (address context token >>= next) := by
  refine ((reads_address context htoken).bind fun value _ => hnext value).congr ?_
  simp only [Slot.FirstLong, Slot.Accepts, address_eq_ok_iff context htoken, exists_and_right]

/-- The fields in front of what is made of them. -/
theorem Reads.fields_bind {β : Type} {format : Format} {text : Text}
    {slots : List Text → List (Slot × Text)} {next : List Text → Except Abort β}
    (hnext : ∀ tokens : List Text, (∀ token ∈ tokens, Text.trim token = token) →
      Reads context (Slot.FirstLong (slots tokens)) (next tokens)) :
    Reads context
      ((∀ token ∈ Text.fields text, token ≠ []) ∧ Slot.FirstLong (slots (Text.fields text)))
      (fields context format text >>= next) := by
  refine ((onlyRefuses_fields context format text).reads.bind fun tokens hfields =>
    hnext tokens ?_).congr ?_
  · rw [((fields_eq_ok_iff context format text tokens).mp hfields).1]
    exact fun token => trim_of_mem_fields
  · simp [fields_eq_ok_iff, and_assoc]

variable (context)

theorem reads_shortMemory {ix addr : Text} (hix : Text.trim ix = ix)
    (haddr : Text.trim addr = addr) (set : Bool) :
    Reads context (Slot.FirstLong [(.number .index, ix), (.address, addr)])
      (shortMemory context ix addr set) := by
  refine Reads.number_bind hix fun index => ?_
  refine Reads.address_bind haddr fun value => ?_
  exact (onlyRefuses_ok context _).reads

theorem reads_longMemory {r ix addr : Text} (hr : Text.trim r = r) (hix : Text.trim ix = ix)
    (haddr : Text.trim addr = addr) (flag : Option Text) :
    Reads context
      (Slot.FirstLong [(.number .register, r), (.number .index, ix), (.address, addr)])
      (longMemory context r ix addr flag) := by
  refine Reads.number_bind hr fun register => ?_
  refine Reads.number_bind hix fun index => ?_
  refine Reads.address_bind haddr fun value => OnlyRefuses.reads ?_
  cases flag with
  | none => exact onlyRefuses_ok context _
  | some token =>
      refine (onlyRefuses_indirect context token).bind fun set _ => ?_
      exact onlyRefuses_ok context _

variable (text : Text)

theorem reads_memory (indexForm : Bool) :
    Reads context ((∀ token ∈ Text.fields text, token ≠ []) ∧
        Slot.FirstLong (Instruction.memorySlots indexForm (Text.fields text)))
      (memory context indexForm text) := by
  refine Reads.fields_bind fun tokens htrim => ?_
  match tokens, htrim with
  | [ix, addr], htrim =>
      exact reads_shortMemory context (htrim ix (by simp)) (htrim addr (by simp)) false
  | [first, second, third], htrim =>
      simp only [Instruction.memorySlots, Bool.and_eq_true, beq_iff_eq]
      split
      · exact reads_shortMemory context (htrim first (by simp)) (htrim second (by simp)) true
      · exact reads_longMemory context (htrim first (by simp)) (htrim second (by simp))
          (htrim third (by simp)) none
  | [r, ix, addr, flag], htrim =>
      exact reads_longMemory context (htrim r (by simp)) (htrim ix (by simp))
        (htrim addr (by simp)) (some flag)
  | [], _ | [_], _ | _ :: _ :: _ :: _ :: _ :: _, _ =>
      exact (onlyRefuses_wrongCount context .memory _).reads

theorem reads_pair (format : Format) (first second : Field)
    (make : Fin (first.largest + 1) → Fin (second.largest + 1) → Operands) :
    Reads context ((∀ token ∈ Text.fields text, token ≠ []) ∧
        Slot.FirstLong (Instruction.pairSlots first second (Text.fields text)))
      (do
        match ← fields context format text with
        | [left, right] =>
            let left ← number context first left
            let right ← number context second right
            return make left right
        | tokens => wrongCount context format tokens) := by
  refine Reads.fields_bind fun tokens htrim => ?_
  match tokens, htrim with
  | [left, right], htrim =>
      refine Reads.number_bind (htrim left (by simp)) fun x => ?_
      refine Reads.number_bind (htrim right (by simp)) fun y => ?_
      exact (onlyRefuses_ok context _).reads
  | [], _ | [_], _ | _ :: _ :: _ :: _, _ =>
      exact (onlyRefuses_wrongCount context format _).reads

theorem reads_shift :
    Reads context ((∀ token ∈ Text.fields text, token ≠ []) ∧
        Slot.FirstLong (Instruction.shiftSlots (Text.fields text)))
      (shift context text) := by
  refine Reads.fields_bind fun tokens htrim => ?_
  match tokens, htrim with
  | [r, c, direction, kind], htrim =>
      refine Reads.number_bind (htrim r (by simp)) fun register => ?_
      refine Reads.number_bind (htrim c (by simp)) fun count => OnlyRefuses.reads ?_
      refine (onlyRefuses_shiftFlag context .direction direction).bind fun left _ => ?_
      refine (onlyRefuses_shiftFlag context .kind kind).bind fun arithmetic _ => ?_
      exact onlyRefuses_ok context _
  | [], _ | [_], _ | [_, _], _ | [_, _, _], _ | _ :: _ :: _ :: _ :: _ :: _, _ =>
      exact (onlyRefuses_wrongCount context .shift _).reads

/-- Reading operands gives up exactly on the texts that come to a numeral that is too long; any other
text is accepted, or refused as operand syntax. -/
theorem reads_read (instruction : Instruction) :
    Reads context (instruction.LongOperand text) (read context instruction text) := by
  unfold read Instruction.LongOperand Instruction.slots
  cases instruction.format with
  | memory => exact (reads_memory context text instruction.hasIndexForm).quietly
  | immediate => exact (reads_pair context text .immediate .register .immediate .immediate).quietly
  | register => exact (reads_pair context text .register .register .register .registers).quietly
  | shift => exact reads_shift context text
  | device => exact (reads_pair context text .device .register .device .device).quietly
  | bare =>
      refine (onlyRefuses_bare context text).reads.quietly.congr ?_
      simp [Slot.FirstLong]

end OperandReader

end TwoPass
