import TwoPass.Proofs.Decoding
import TwoPass.Proofs.Operand.Acceptance
import TwoPass.Proofs.Text.Spelling

/-!
# Spellings that are accepted

The operation of an instruction line spells the mnemonic of the instruction, and a field that is read as a
set flag spells one of the words that set it.  The spelling is a change of case unless one of ten letters
outside ASCII occurs in the token: a dotless `ı` counts as `I`, a long `ſ` as `S`, and a ligature as the
letters it is made of.  Every such spelling is accepted.
-/

namespace TwoPass

/-- A token and the words, in ASCII capitals, that it may stand for. -/
structure Keyword where
  token : Text
  words : List Text
  capital : ∀ word ∈ words, Text.IsCapital word

namespace Keyword

/-- The token is taken for one of the words. -/
def Stands (keyword : Keyword) : Prop :=
  Text.upper keyword.token ∈ keyword.words

theorem stands_iff (keyword : Keyword) :
    keyword.Stands ↔ ∃ word ∈ keyword.words, Text.Spells keyword.token word := by
  constructor
  · intro hstands
    exact ⟨_, hstands, (Text.spells_iff (keyword.capital _ hstands)).mpr rfl⟩
  · rintro ⟨word, hmem, hspells⟩
    rwa [Stands, (Text.spells_iff (keyword.capital word hmem)).mp hspells]

/-- A token that is taken for a word is a word in letters of either case, unless a folded letter occurs
in it. -/
theorem Stands.recased_iff {keyword : Keyword} (hstands : keyword.Stands) :
    (∃ word ∈ keyword.words, Text.Recased keyword.token word) ↔
      ∀ c ∈ keyword.token, c.toNat ∉ Text.foldedLetters := by
  constructor
  · rintro ⟨word, hmem, hcase⟩
    exact hcase.not_folded (keyword.capital word hmem)
  · intro hplain
    obtain ⟨word, hmem, hspells⟩ := keyword.stands_iff.mp hstands
    exact ⟨word, hmem, hspells.recased hplain⟩

theorem capital_of_all {words : List Text}
    (hall : words.all (fun word =>
      word.all fun c => decide (c.toNat < 128) && c.toUpper == c) = true) :
    ∀ word ∈ words, Text.IsCapital word :=
  fun word hmem => Text.isCapital_of_all (List.all_eq_true.mp hall word hmem)

/-- The operation of a line that names the instruction. -/
def mnemonic (instruction : Instruction) (token : Text) : Keyword :=
  ⟨token, [instruction.mnemonic], capital_of_all (by cases instruction <;> decide)⟩

/-- The fourth field of a memory instruction. -/
def indirect (token : Text) : Keyword :=
  ⟨token, ["1".text, "I".text], capital_of_all (by decide)⟩

/-- The third field of an instruction on an index register. -/
def indirectLetter (token : Text) : Keyword :=
  ⟨token, ["I".text], capital_of_all (by decide)⟩

def shiftFlag (flag : ShiftFlag) (token : Text) : Keyword :=
  ⟨token, flag.settingSpellings, capital_of_all (by cases flag <;> decide)⟩

theorem stands_mnemonic_iff (instruction : Instruction) (token : Text) :
    (mnemonic instruction token).Stands ↔
      Instruction.ofMnemonic? (Text.upper token) = some instruction := by
  rw [Instruction.ofMnemonic?_upper_eq_some_iff]
  exact List.mem_singleton

theorem stands_indirect_iff (token : Text) :
    (indirect token).Stands ↔ indirectOfToken? token = some true := by
  rw [indirectOfToken?_eq_some_iff]
  constructor
  · intro hstands
    refine ⟨List.mem_cons_of_mem _ hstands, ?_⟩
    have hspelled : Text.upper token = "1".text ∨ Text.upper token = "I".text :=
      List.mem_pair.mp hstands
    rcases hspelled with hone | hletter
    · rw [hone]
      decide
    · rw [hletter]
      decide
  · rintro ⟨hmem, hset⟩
    rcases List.mem_cons.mp hmem with hzero | hstands
    · rw [hzero] at hset
      exact absurd hset (by decide)
    · exact hstands

theorem stands_shiftFlag_iff (flag : ShiftFlag) (token : Text) :
    (shiftFlag flag token).Stands ↔ flag.ofToken? token = some true := by
  unfold Stands shiftFlag ShiftFlag.ofToken?
  by_cases hset : Text.upper token ∈ flag.settingSpellings
  · simp [hset]
  · by_cases hclear : Text.upper token ∈ flag.clearingSpellings <;> simp [hset, hclear]

/-- An unknown spelling never sets a flag. -/
theorem stands_of_reads {strict set : Bool} {flag : ShiftFlag} {token : Text}
    (hreads : flag.Reads strict token set) :
    ∀ keyword ∈ if set then [shiftFlag flag token] else [], keyword.Stands := by
  cases set with
  | false => simp
  | true =>
      intro keyword hmem
      obtain rfl := List.mem_singleton.mp hmem
      rcases hreads with hspelled | ⟨-, -, -, hclear⟩
      · exact (stands_shiftFlag_iff flag token).mpr hspelled
      · cases hclear

end Keyword

namespace Operands

def setCount : Operands → Nat
  | .memory _ _ indirect _ => indirect.toNat
  | .shift _ _ left arithmetic => left.toNat + arithmetic.toNat
  | _ => 0

def setFlags (fields : List Text) : Operands → List Keyword
  | .memory _ _ indirect _ =>
      match fields with
      | [_, _, flag] => if indirect then [.indirectLetter flag] else []
      | [_, _, _, flag] => if indirect then [.indirect flag] else []
      | _ => []
  | .shift _ _ left arithmetic =>
      match fields with
      | [_, _, direction, kind] =>
          (if left then [.shiftFlag .direction direction] else []) ++
            if arithmetic then [.shiftFlag .kind kind] else []
      | _ => []
  | _ => []

variable {strict : Bool} {instruction : Instruction} {text : Text} {operands : Operands}

/-- Every set flag was read from a field. -/
theorem Spelled.length_setFlags (hspelled : operands.Spelled strict instruction text) :
    (operands.setFlags (Text.fields text)).length = operands.setCount := by
  cases hspelled with
  | short _ hfields => simp [setFlags, setCount, hfields]
  | shortIndirect _ hfields => simp [setFlags, setCount, hfields]
  | direct _ hfields => simp [setFlags, setCount, hfields]
  | @full _ _ _ _ _ _ indirect _ _ hfields =>
      cases indirect <;> simp [setFlags, setCount, hfields]
  | @shift _ _ _ _ _ _ left arithmetic _ hfields =>
      cases left <;> cases arithmetic <;> simp [setFlags, setCount, hfields]
  | immediate | registers | device | bare => rfl

/-- The field of a set flag stands for a word that sets it. -/
theorem Spelled.stands_of_mem (hspelled : operands.Spelled strict instruction text) :
    ∀ keyword ∈ operands.setFlags (Text.fields text), keyword.Stands := by
  cases hspelled with
  | short _ hfields => simp [setFlags, hfields]
  | shortIndirect _ hfields _ hflag =>
      simpa [setFlags, hfields, Keyword.Stands, Keyword.indirectLetter] using hflag
  | direct _ hfields => simp [setFlags, hfields]
  | @full _ _ _ _ _ _ indirect _ _ hfields _ _ _ hflag =>
      cases indirect with
      | false => simp [setFlags, hfields]
      | true => simpa [setFlags, hfields] using (Keyword.stands_indirect_iff _).mpr hflag
  | @shift _ _ _ _ _ _ left arithmetic _ hfields _ _ hleft harithmetic =>
      intro keyword hmem
      simp only [setFlags, hfields, List.mem_append] at hmem
      rcases hmem with hdirection | hkind
      · exact Keyword.stands_of_reads hleft keyword hdirection
      · exact Keyword.stands_of_reads harithmetic keyword hkind
  | immediate | registers | device | bare => simp [setFlags]

end Operands

namespace InstructionLine

variable {assembly : Assembly}

/-- The operation of the line and the fields that were read as set flags. -/
def keywords (line : InstructionLine assembly) : List Keyword :=
  .mnemonic line.instruction (Line.operation line.position.raw) ::
    line.operands.setFlags (Text.fields (Line.argument line.position.raw))

theorem stands_of_mem_keywords (line : InstructionLine assembly) :
    ∀ keyword ∈ line.keywords, keyword.Stands := by
  intro keyword hmem
  rcases List.mem_cons.mp hmem with rfl | hflag
  · exact (Keyword.stands_mnemonic_iff _ _).mpr line.ofMnemonic?_eq
  · exact line.spelled.stands_of_mem keyword hflag

end InstructionLine

/-- In an assembled program every instruction line has an operation that spells the mnemonic, and for
each set flag a field that spells one of its words.  Such a token differs from the word in more than case
exactly if a folded letter occurs in it.  Conversely every spelling is taken for its word. -/
theorem InstructionLine.keywords_spelled (assembly : Assembly) :
    (∀ position ∈ assembly.positions, Line.kind position.raw = .instruction →
      ∃ line : InstructionLine assembly, line.position = position) ∧
    (∀ line : InstructionLine assembly,
      line.keywords.length = line.operands.setCount + 1 ∧
      ∀ keyword ∈ line.keywords,
        (∃ word ∈ keyword.words, Text.Spells keyword.token word) ∧
        ((∃ word ∈ keyword.words, Text.Recased keyword.token word) ↔
          ∀ c ∈ keyword.token, c.toNat ∉ Text.foldedLetters)) ∧
    ∀ token : Text,
      (∀ instruction : Instruction,
        Instruction.ofMnemonic? (Text.upper token) = some instruction ↔
          Text.Spells token instruction.mnemonic) ∧
      (∀ flag : ShiftFlag,
        flag.ofToken? token = some true ↔
          ∃ word ∈ flag.settingSpellings, Text.Spells token word) ∧
      (indirectOfToken? token = some true ↔
        Text.Spells token "1".text ∨ Text.Spells token "I".text) := by
  refine ⟨fun _ => exists_of_position, ?_, ?_⟩
  · intro line
    refine ⟨congrArg (· + 1) line.spelled.length_setFlags, ?_⟩
    intro keyword hmem
    have hstands := line.stands_of_mem_keywords keyword hmem
    exact ⟨keyword.stands_iff.mp hstands, hstands.recased_iff⟩
  · intro token
    refine ⟨fun instruction => ?_, fun flag => ?_, ?_⟩
    · rw [← Keyword.stands_mnemonic_iff, Keyword.stands_iff]
      simp [Keyword.mnemonic]
    · rw [← Keyword.stands_shiftFlag_iff, Keyword.stands_iff]
      rfl
    · rw [← Keyword.stands_indirect_iff, Keyword.stands_iff]
      simp [Keyword.indirect]

/-- A shift whose operation and second flag are written with folded letters. -/
theorem InstructionLine.keywords_spelled_of_shift :
    ∃ (assembly : Assembly) (line : InstructionLine assembly),
      line.keywords.map Keyword.token = ["ſrc".text, "l".text, "arıthmetic".text] ∧
      line.keywords.length = line.operands.setCount + 1 ∧
      ∀ keyword ∈ line.keywords,
        (∃ word ∈ keyword.words, Text.Spells keyword.token word) ∧
        ((∃ word ∈ keyword.words, Text.Recased keyword.token word) ↔
          ∀ c ∈ keyword.token, c.toNat ∉ Text.foldedLetters) := by
  refine ⟨⟨⟨false, true, false⟩, [], ["ſrc 3,5,l,arıthmetic".text],
      ⟨⟨[⟨[], 1, "ſrc 3,5,l,arıthmetic".text, .instruction, 0, none, some "SRC".text,
        "3,5,l,arıthmetic".text, true, none, none⟩], [⟨0, 0b0110011101011100, 1⟩]⟩, [], []⟩,
      by decide +kernel⟩,
    ⟨⟨[], "ſrc 3,5,l,arıthmetic".text⟩, by decide +kernel, by decide +kernel, .src,
      by decide +kernel, .shift 3 5 true true, [], by decide +kernel, 0, rfl,
      ⟨0, 0b0110011101011100, 1⟩, by decide +kernel, by decide +kernel⟩, by decide +kernel, ?_⟩
  exact (InstructionLine.keywords_spelled _).2.1 _

/-- A dotless `ı` and the ligature `ﬆ` are accepted in mnemonics and flags, also when flags are read
strictly, and no mnemonic and no word for a flag is written so in letters of either case. -/
theorem Run.outcome_of_folded_letters :
    (∃ lines : List Text,
      lines.map Line.kind = [.instruction, .instruction, .instruction] ∧
      lines.map Line.operation = ["ın".text, "ﬆr".text, "src".text] ∧
      lines.map (fun line => Text.fields (Line.argument line)) =
        [["1".text, "2".text], ["1".text, "2".text, "3".text, "ı".text],
          ["3".text, "5".text, "l".text, "arıthmetıc".text]] ∧
      ((Run.ofLines ⟨false, true, false⟩ [] lines).outcome.map fun program =>
        program.image.words.map fun placed => placed.word.toNat) =
          .ok [0o142402, 0o004643, 0o063534]) ∧
    (∀ instruction : Instruction, ¬ Text.Recased "ın".text instruction.mnemonic ∧
      ¬ Text.Recased "ﬆr".text instruction.mnemonic) ∧
    (∀ word ∈ ["1".text, "I".text], ¬ Text.Recased "ı".text word) ∧
    ∀ word ∈ ShiftFlag.kind.settingSpellings, ¬ Text.Recased "arıthmetıc".text word := by
  refine ⟨⟨["ın 1,2".text, "ﬆr 1,2,3,ı".text, "src 3,5,l,arıthmetıc".text], ?_⟩, ?_, ?_, ?_⟩
  · exact ⟨by decide +kernel, by decide +kernel, by decide +kernel, by decide +kernel⟩
  · intro instruction
    have hcapital := (Keyword.mnemonic instruction []).capital _ List.mem_cons_self
    refine ⟨fun hcase => ?_, fun hcase => ?_⟩
    · exact hcase.not_folded hcapital 'ı' (by decide) (by decide)
    · exact hcase.not_folded hcapital 'ﬆ' (by decide) (by decide)
  · intro word hmem hcase
    have hcapital := (Keyword.indirect []).capital word hmem
    exact hcase.not_folded hcapital 'ı' (by decide) (by decide)
  · intro word hmem hcase
    have hcapital := (Keyword.shiftFlag .kind []).capital word hmem
    exact hcase.not_folded hcapital 'ı' (by decide) (by decide)

end TwoPass
