import TwoPass.Proofs.Correspondence
import TwoPass.Proofs.Operand.Acceptance
import TwoPass.Proofs.Source.WellFormed
import TwoPass.Proofs.Text.Field

/-!
# Short and long forms of memory operands

A memory instruction may leave out its register field, which then is zero, and its indirect flag, which
then is clear; the instructions on an index register may leave out the register and keep the flag.  All
these forms of an index register and an address are one instruction.  Indirection changes one bit of
its word and nothing else.
-/

namespace TwoPass

/-- The fields that write an index register and an address for an instruction with register zero.  The
first parameter tells whether they ask for indirection.  Three fields are no form where the third is
taken for a flag. -/
inductive MemoryForm (instruction : Instruction) (index addr : Text) : Bool → List Text → Prop
  | short : MemoryForm instruction index addr false [index, addr]
  | long (hform : ¬ instruction.EndsIndirect (Text.trim addr)) :
      MemoryForm instruction index addr false [[.char '0'], index, addr]
  | full : MemoryForm instruction index addr false [[.char '0'], index, addr, [.char '0']]
  | shortIndirect {letter : CodePoint} (hform : instruction = .ldx ∨ instruction = .stx)
      (hletter : letter = 'I' ∨ letter = 'i') :
      MemoryForm instruction index addr true [index, addr, [letter]]
  | fullIndirect {letter : CodePoint} (hletter : letter = 'I' ∨ letter = 'i') :
      MemoryForm instruction index addr true [[.char '0'], index, addr, [letter]]

namespace MemoryForm

variable {instruction : Instruction} {index addr : Text} {set : Bool} {pieces : List Text}

/-- No field of a form contains a comma. -/
theorem comma_not_mem (hform : MemoryForm instruction index addr set pieces) (hindex : .char ',' ∉ index)
    (haddr : .char ',' ∉ addr) : ∀ piece ∈ pieces, .char ',' ∉ piece := by
  cases hform with
  | short => simp [hindex, haddr]
  | long => simp [hindex, haddr]
  | full => simp [hindex, haddr]
  | shortIndirect _ hletter => rcases hletter with rfl | rfl <;> simp [hindex, haddr]
  | fullIndirect hletter => rcases hletter with rfl | rfl <;> simp [hindex, haddr]

theorem mem_pieces (hform : MemoryForm instruction index addr set pieces) :
    index ∈ pieces ∧ addr ∈ pieces := by
  cases hform <;> simp

theorem fields_join (hform : MemoryForm instruction index addr set pieces) (hindex : .char ',' ∉ index)
    (haddr : .char ',' ∉ addr) : Text.fields ([.char ','].intercalate pieces) = pieces.map Text.trim :=
  Text.fields_join (hform.comma_not_mem hindex haddr) (List.ne_nil_of_mem hform.mem_pieces.1)

/-- Beside index register and address a form has no empty field. -/
theorem trim_ne_nil (hform : MemoryForm instruction index addr set pieces)
    (hindex : Text.trim index ≠ []) (haddr : Text.trim addr ≠ []) :
    ∀ token ∈ pieces.map Text.trim, token ≠ [] := by
  have hzero : Text.trim [.char '0'] ≠ [] := by decide
  have hletters : ∀ letter : CodePoint, letter = 'I' ∨ letter = 'i' → Text.trim [letter] ≠ [] := by
    rintro letter (rfl | rfl) <;> decide
  cases hform with
  | short => simp [hindex, haddr]
  | long => simp [hindex, haddr, hzero]
  | full => simp [hindex, haddr, hzero]
  | shortIndirect _ hletter => simp [hindex, haddr, hletters _ hletter]
  | fullIndirect hletter => simp [hindex, haddr, hzero, hletters _ hletter]

end MemoryForm

namespace OperandReader

variable (context : Context) {instruction : Instruction} {index addr : Text} {set : Bool}
  {pieces : List Text}

/-- A register field of zero makes no difference. -/
theorem longMemory_zero {flag : Option Text}
    (hflag : (flag.map indirectOfToken?).getD (some false) = some set) :
    longMemory context [.char '0'] index addr flag = shortMemory context index addr set := by
  have hzero : number context .register [.char '0'] = .ok 0 := rfl
  rw [longMemory, hzero, shortMemory]
  cases flag with
  | none =>
      obtain rfl : false = set := Option.some.inj hflag
      rfl
  | some token =>
      have htoken : indirect context token = .ok set := (indirect_eq_ok_iff context token set).mpr hflag
      simp only [htoken]
      rfl

/-- Where neither is empty, every form is read as its index register and its address. -/
theorem memory_of_form (hform : MemoryForm instruction index addr set pieces) (hindex : .char ',' ∉ index)
    (haddr : .char ',' ∉ addr) (hindexNe : Text.trim index ≠ []) (haddrNe : Text.trim addr ≠ []) :
    memory context instruction.hasIndexForm ([.char ','].intercalate pieces) =
      shortMemory context (Text.trim index) (Text.trim addr) set := by
  have hfields : fields context .memory ([.char ','].intercalate pieces) = .ok (pieces.map Text.trim) := by
    rw [fields_eq_ok_iff, hform.fields_join hindex haddr]
    exact ⟨rfl, hform.trim_ne_nil hindexNe haddrNe⟩
  have hclear : ((some [.char '0']).map indirectOfToken?).getD (some false) = some false := rfl
  have hset : ∀ letter : CodePoint, letter = 'I' ∨ letter = 'i' →
      ((some (Text.trim [letter])).map indirectOfToken?).getD (some false) = some true := by
    rintro letter (rfl | rfl) <;> rfl
  rw [memory, hfields]
  cases hform with
  | short => rfl
  | long hform =>
      have hthird : ¬ (instruction.hasIndexForm &&
          Text.upper (Text.trim addr) == "I".text) = true := by
        rwa [Bool.and_eq_true, beq_iff_eq, ← Instruction.endsIndirect_iff]
      exact (if_neg hthird).trans (longMemory_zero context rfl)
  | full => exact longMemory_zero context hclear
  | @shortIndirect letter hform hletter =>
      have hthird : (instruction.hasIndexForm &&
          Text.upper (Text.trim [letter]) == "I".text) = true := by
        rcases hform with rfl | rfl <;> rcases hletter with rfl | rfl <;> decide
      exact if_pos hthird
  | fullIndirect hletter => exact longMemory_zero context (hset _ hletter)

/-- An empty index register or address is refused in every form. -/
theorem memory_of_empty (hform : MemoryForm instruction index addr set pieces) (hindex : .char ',' ∉ index)
    (haddr : .char ',' ∉ addr) (hempty : Text.trim index = [] ∨ Text.trim addr = []) :
    ∃ cause : Error.Cause, cause.category = .operandSyntax ∧
      memory context instruction.hasIndexForm ([.char ','].intercalate pieces) =
        .error (.error ⟨cause, context.place, context.sourceLine⟩) := by
  cases hfields : fields context .memory ([.char ','].intercalate pieces) with
  | error abort =>
      obtain ⟨cause, hcategory, -, rfl⟩ := onlyRefuses_fields context .memory _ abort hfields
      exact ⟨cause, hcategory, by rw [memory, hfields]; rfl⟩
  | ok tokens =>
      have hnone := ((fields_eq_ok_iff _ _ _ _).mp hfields).2
      rw [hform.fields_join hindex haddr] at hnone
      rcases hempty with hempty | hempty
      · exact absurd hempty (hnone _ (List.mem_map_of_mem hform.mem_pieces.1))
      · exact absurd hempty (hnone _ (List.mem_map_of_mem hform.mem_pieces.2))

end OperandReader

namespace Word

variable (opcode : BitVec 6) (register index : BitVec 2) (low : BitVec 5)

theorem getLsbD_pack_indirect (set : Bool) :
    (pack opcode register index (BitVec.ofBool set) low).getLsbD 5 = set := by
  rw [pack, BitVec.getLsbD_append, if_neg (by decide), BitVec.getLsbD_append, if_pos (by decide)]
  cases set <;> rfl

/-- Indirection is told by one bit alone. -/
theorem getLsbD_pack_of_ne (set other : Bool) {k : Nat} (hk : k ≠ 5) :
    (pack opcode register index (BitVec.ofBool set) low).getLsbD k =
      (pack opcode register index (BitVec.ofBool other) low).getLsbD k := by
  simp only [pack, BitVec.getLsbD_append]
  split
  · rfl
  · have hlarge : ¬ k - 5 < 1 := by omega
    simp [hlarge]

/-- The words are the same but for their bits of indirection, which are the given ones. -/
def SameButIndirect (set other : Bool) (word counterpart : Word) : Prop :=
  word.getLsbD 5 = set ∧ counterpart.getLsbD 5 = other ∧
    ∀ k, k ≠ 5 → counterpart.getLsbD k = word.getLsbD k

theorem SameButIndirect.eq {set : Bool} {word counterpart : Word}
    (hsame : SameButIndirect set set word counterpart) : word = counterpart := by
  obtain ⟨hword, hcounterpart, hrest⟩ := hsame
  apply BitVec.eq_of_getLsbD_eq
  intro k _
  by_cases hk : k = 5
  · rw [hk, hword, hcounterpart]
  · exact (hrest k hk).symm

end Word

theorem Abort.IsFault.agrees {abort : Abort} (hfault : abort.IsFault) : abort.Agrees id abort := by
  cases abort with
  | error report => exact .error rfl (by simp)
  | numeral fault => exact .numeral
  | unwritable => exact hfault.elim
  | noOperation => exact hfault.elim
  | noValue => exact hfault.elim
  | noInstruction => exact hfault.elim

namespace Encoding

/-- Both outcomes are words that are related, with the same warnings, or both are failures of the same
class. -/
inductive Alike (R : Word → Word → Prop) (first second : Except Abort (Word × Log)) : Prop
  | encoded {word other : Word} {warnings : Log} (hfirst : first = .ok (word, warnings))
      (hsecond : second = .ok (other, warnings)) (hrelated : R word other)
  | stopped {abort other : Abort} (hfirst : first = .error abort) (hsecond : second = .error other)
      (hagrees : abort.Agrees id other)

theorem Alike.mono {R S : Word → Word → Prop} {first second : Except Abort (Word × Log)}
    (halike : Alike R first second) (himp : ∀ word other, R word other → S word other) :
    Alike S first second := by
  cases halike with
  | encoded hfirst hsecond hrelated => exact .encoded hfirst hsecond (himp _ _ hrelated)
  | stopped hfirst hsecond hagrees => exact .stopped hfirst hsecond hagrees

section Memory

variable {record : Record} {mnemonic : Text} {instruction : Instruction}

/-- The word for an index register and an address, with the warnings due for the address. -/
def locatedWord (opcode : BitVec 6) (set : Bool) (found : Fin 4 × Int × Log) : Word × Log :=
  (Word.pack opcode 0 (BitVec.ofNat 2 found.1) (BitVec.ofBool set) (BitVec.ofInt 5 found.2.1),
    found.2.2)

/-- What is read from an index register and an address does not depend on the indirection. -/
theorem exists_located (table : SymbolTable) (record : Record) (opcode : BitVec 6)
    (context : OperandReader.Context) (index addr : Text) :
    ∃ located : Except Abort (Fin 4 × Int × Log), ∀ set,
      (OperandReader.shortMemory context index addr set >>= layOut table record opcode) =
        located.map (locatedWord opcode set) := by
  cases hindex : OperandReader.number context .index index with
  | error abort =>
      refine ⟨.error abort, fun set => ?_⟩
      rw [OperandReader.shortMemory, hindex]
      rfl
  | ok number =>
      cases haddr : OperandReader.address context addr with
      | error abort =>
          refine ⟨.error abort, fun set => ?_⟩
          rw [OperandReader.shortMemory, hindex, haddr]
          rfl
      | ok value =>
          refine ⟨(operandAddress table record value).map (fun found => (number, found)),
            fun set => ?_⟩
          rw [OperandReader.shortMemory, hindex, haddr]
          change layOut table record opcode (.memory 0 number set value) = _
          simp only [layOut]
          cases operandAddress table record value <;> rfl

/-- The operands of a memory instruction are read and then laid out. -/
theorem encode_of_memory (hkind : record.kind ≠ .data) (hoperation : record.operation = some mnemonic)
    (hinstruction : Instruction.ofMnemonic? mnemonic = some instruction)
    (hformat : instruction.format = .memory) (table : SymbolTable) (strict : Bool) :
    encode table strict record =
      (OperandReader.memory ⟨mnemonic, some record.place, some record.raw, strict⟩
        instruction.hasIndexForm record.operands >>= layOut table record instruction.opcode) := by
  rw [encode, if_neg hkind, encodeInstruction, hoperation]
  simp only [hinstruction, OperandReader.read, hformat]
  cases OperandReader.memory ⟨mnemonic, some record.place, some record.raw, strict⟩
    instruction.hasIndexForm record.operands with
  | error abort => rfl
  | ok operands =>
      change (layOut table record instruction.opcode operands >>= fun output =>
        .ok (output.1, output.2)) = layOut table record instruction.opcode operands
      cases layOut table record instruction.opcode operands <;> rfl

/-- Two forms of one index register and one address are encoded alike. -/
theorem alike_of_forms (hkind : record.kind ≠ .data) (hoperation : record.operation = some mnemonic)
    (hinstruction : Instruction.ofMnemonic? mnemonic = some instruction)
    (hformat : instruction.format = .memory) (table : SymbolTable) (strict : Bool)
    {index addr : Text} (hindex : .char ',' ∉ index) (haddr : .char ',' ∉ addr) {set other : Bool}
    {first second : List Text} (hfirst : MemoryForm instruction index addr set first)
    (hsecond : MemoryForm instruction index addr other second) :
    Alike (Word.SameButIndirect set other)
      (encode table strict { record with operands := [.char ','].intercalate first })
      (encode table strict { record with operands := [.char ','].intercalate second }) := by
  have hencode : ∀ text, encode table strict { record with operands := text } =
      (OperandReader.memory ⟨mnemonic, some record.place, some record.raw, strict⟩
        instruction.hasIndexForm text >>= layOut table record instruction.opcode) :=
    fun text => @encode_of_memory { record with operands := text } mnemonic instruction hkind
      hoperation hinstruction hformat table strict
  by_cases hempty : Text.trim index = [] ∨ Text.trim addr = []
  · obtain ⟨cause, hcategory, hrefused⟩ := OperandReader.memory_of_empty _ hfirst hindex haddr hempty
    obtain ⟨otherCause, hotherCategory, hotherRefused⟩ :=
      OperandReader.memory_of_empty _ hsecond hindex haddr hempty
    rw [hencode, hencode, hrefused, hotherRefused]
    exact .stopped rfl rfl (.error (hotherCategory.trans hcategory.symm) (by simp [Error.line]))
  · rw [not_or] at hempty
    obtain ⟨located, hlocated⟩ := exists_located table record instruction.opcode
      ⟨mnemonic, some record.place, some record.raw, strict⟩ (Text.trim index) (Text.trim addr)
    have houtcome : ∀ side pieces, MemoryForm instruction index addr side pieces →
        encode table strict { record with operands := [.char ','].intercalate pieces } =
          located.map (locatedWord instruction.opcode side) := by
      intro side pieces hform
      rw [hencode, OperandReader.memory_of_form _ hform hindex haddr hempty.1 hempty.2, hlocated]
    have hone := houtcome set first hfirst
    have htwo := houtcome other second hsecond
    cases located with
    | error abort =>
        have herror : encodeInstruction table strict
            { record with operands := [.char ','].intercalate first } = .error abort :=
          (if_neg hkind).symm.trans hone
        have hfault := isFault_of_encodeInstruction herror hoperation
        exact .stopped hone htwo hfault.agrees
    | ok found =>
        exact .encoded hone htwo ⟨Word.getLsbD_pack_indirect _ _ _ _ set,
          Word.getLsbD_pack_indirect _ _ _ _ other,
          fun k hk => Word.getLsbD_pack_of_ne _ _ _ _ other set hk⟩

end Memory

end Encoding

/-- Short and long forms of the same index register and address are encoded to the same word with the
same warnings, or fail with errors of the same class at the same line.  Forms that ask for indirection
have its bit set, the others have it clear, and their words differ in that bit only. -/
theorem MemoryForm.encode_alike {record : Record} {mnemonic : Text} {instruction : Instruction}
    (hkind : record.kind ≠ .data) (hoperation : record.operation = some mnemonic)
    (hinstruction : Instruction.ofMnemonic? mnemonic = some instruction)
    (hformat : instruction.format = .memory) (table : SymbolTable) (strict : Bool)
    {index addr : Text} (hindex : .char ',' ∉ index) (haddr : .char ',' ∉ addr) :
    (∀ set first second, MemoryForm instruction index addr set first →
      MemoryForm instruction index addr set second →
      Encoding.Alike Eq
        (Encoding.encode table strict { record with operands := [.char ','].intercalate first })
        (Encoding.encode table strict { record with operands := [.char ','].intercalate second })) ∧
    ∀ set other first second, MemoryForm instruction index addr set first →
      MemoryForm instruction index addr other second →
      Encoding.Alike (Word.SameButIndirect set other)
        (Encoding.encode table strict { record with operands := [.char ','].intercalate first })
        (Encoding.encode table strict { record with operands := [.char ','].intercalate second }) := by
  have halike := fun set other first second => @Encoding.alike_of_forms record mnemonic instruction
    hkind hoperation hinstruction hformat table strict index addr hindex haddr set other first second
  refine ⟨?_, halike⟩
  intro set first second hfirst hsecond
  exact (halike set set first second hfirst hsecond).mono fun word other hsame => hsame.eq

/-- An instruction on an index register, with the fields of its operands. -/
def Record.indexLoad (pieces : List Text) : Record :=
  { Line.record "a.asm".text "ldx".text 3 10 with operands := [.char ','].intercalate pieces }

/-- A table whose only label is far away. -/
def SymbolTable.distant : SymbolTable :=
  ⟨[⟨"B".text, 70000, none⟩], true⟩

theorem MemoryForm.encode_alike_of_indexLoad :
    (∃ word warnings,
      Encoding.encode .distant true (Record.indexLoad [" 3".text, "B\t".text]) =
        .ok (word, warnings) ∧ warnings.length = 2) ∧
    Encoding.Alike Eq
      (Encoding.encode .distant true (Record.indexLoad [" 3".text, "B\t".text]))
      (Encoding.encode .distant true (Record.indexLoad [[.char '0'], " 3".text, "B\t".text])) ∧
    Encoding.Alike (Word.SameButIndirect false true)
      (Encoding.encode .distant true (Record.indexLoad [[.char '0'], " 3".text, "B\t".text, [.char '0']]))
      (Encoding.encode .distant true (Record.indexLoad [" 3".text, "B\t".text, [.char 'i']])) := by
  have hkind : (Line.record "a.asm".text "ldx".text 3 10).kind ≠ .data := by decide
  have hoperation : (Line.record "a.asm".text "ldx".text 3 10).operation =
      some "LDX".text := rfl
  have hinstruction : Instruction.ofMnemonic? "LDX".text = some .ldx := rfl
  have hindex : .char ',' ∉ " 3".text := by decide
  have haddr : .char ',' ∉ "B\t".text := by decide
  obtain ⟨hequal, halike⟩ := MemoryForm.encode_alike hkind hoperation hinstruction rfl .distant true
    hindex haddr
  have hlong : ¬ Instruction.ldx.EndsIndirect (Text.trim "B\t".text) := by decide
  refine ⟨⟨_, _, rfl, rfl⟩, ?_, ?_⟩
  · exact hequal false _ _ .short (.long hlong)
  · exact halike false true _ _ .full (.shortIndirect (Or.inl rfl) (Or.inr rfl))

end TwoPass
