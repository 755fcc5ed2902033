import TwoPass.Proofs.Failure
import TwoPass.Proofs.Image.Output
import TwoPass.Proofs.Source.Edit

/-!
# Lines that say the same

A line has a counterpart in another source if it differs from it only in what does not matter: in the
names of labels, and in wording that is read in the same way.  A line and its counterpart are of the
same kind and are read alike; they make the same word and fail in the same way.
-/

namespace TwoPass

def Value.renamed (rename : Text → Text) : Value → Value
  | .literal number => .literal number
  | .label name => .label (rename name)

def Operands.renamed (rename : Text → Text) : Operands → Operands
  | .memory register index indirect value =>
      .memory register index indirect (value.renamed rename)
  | operands => operands

/-- Symbols of two sources in which labels have other names. -/
def RenamedSymbols (rename : Text → Text) (symbols others : List (Text × Int)) : Prop :=
  ∀ label, Text.isName label = true → others.lookup (rename label) = symbols.lookup label

namespace Value

variable {rename : Text → Text}

@[simp] theorem renamed_id (value : Value) : value.renamed id = value := by
  cases value <;> rfl

theorem isName_of_ofToken? {token name : Text} (hvalue : ofToken? token = some (.label name)) :
    Text.isName name = true := by
  unfold ofToken? at hvalue
  split at hvalue
  · simp at hvalue
  · split at hvalue
    · rename_i hname
      obtain rfl : token = name := by simpa using hvalue
      exact hname
    · contradiction

theorem address?_renamed {symbols others : List (Text × Int)}
    (hsymbols : RenamedSymbols rename symbols others) {token : Text} {value : Value}
    (hvalue : ofToken? token = some value) :
    (value.renamed rename).address? others = value.address? symbols := by
  cases value with
  | literal number => rfl
  | label name => exact hsymbols name (isName_of_ofToken? hvalue)

theorem warnings_renamed (shift : Int → Int) (place : Place) (value : Value) (address : Int) :
    (value.renamed rename).warnings (place.moved shift) address =
      (value.warnings place address).map (Warning.moved rename shift) := by
  have hlabel : Encoding.labelOf? (value.renamed rename) =
      (Encoding.labelOf? value).map rename := by
    cases value <;> rfl
  simp only [warnings, hlabel, List.map_append, apply_ite (List.map (Warning.moved rename shift))]
  rfl

end Value

namespace Operands

variable {rename : Text → Text}

@[simp] theorem renamed_id (operands : Operands) : operands.renamed id = operands := by
  cases operands <;> simp [renamed]

@[simp] theorem value_renamed (operands : Operands) :
    (operands.renamed rename).value = operands.value.renamed rename := by
  cases operands <;> rfl

@[simp] theorem word_renamed (opcode : BitVec 6) (address : Int) (operands : Operands) :
    (operands.renamed rename).word opcode address = operands.word opcode address := by
  cases operands <;> rfl

theorem address?_renamed {symbols others : List (Text × Int)}
    (hsymbols : RenamedSymbols rename symbols others) {strict : Bool} {instruction : Instruction}
    {text : Text} {operands : Operands} (hread : ofText? strict instruction text = some operands) :
    (operands.value.renamed rename).address? others = operands.value.address? symbols := by
  rw [ofText?_eq_some_iff] at hread
  cases hread with
  | short _ _ _ hwritten | shortIndirect _ _ _ _ _ hwritten | direct _ _ _ _ _ hwritten
  | full _ _ _ _ hwritten => exact Value.address?_renamed hsymbols hwritten.1
  | immediate | registers | shift | device | bare => rfl

/-- Which flags are unknown does not depend on where the text stands. -/
theorem flagWarnings_moved (rename : Text → Text) (shift : Int → Int) (place : Place)
    (instruction : Instruction) (text : Text) :
    flagWarnings (some (place.moved shift)) instruction text =
      (flagWarnings (some place) instruction text).map (Warning.moved rename shift) := by
  unfold flagWarnings
  split
  · simp only [ShiftFlag.warnings, List.map_append,
      apply_ite (List.map (Warning.moved rename shift))]
    rfl
  · rfl

/-- The second text spells the operands of the first, with labels renamed, and its flags give rise to
the same warnings as far as they are observed. -/
structure Counterpart {β : Type} (observe : Warning → β) (rename : Text → Text)
    (instruction : Instruction) (text other : Text) : Prop where
  read : ∀ strict,
    ofText? strict instruction other = (ofText? strict instruction text).map (renamed rename)
  flags : ∀ place, (flagWarnings place instruction other).map observe =
    (flagWarnings place instruction text).map observe
  long : instruction.LongOperand other ↔ instruction.LongOperand text

theorem Counterpart.refl {β : Type} (observe : Warning → β) (instruction : Instruction)
    (text : Text) : Counterpart observe id instruction text text where
  read strict := by
    have hid : renamed id = id := funext renamed_id
    rw [hid, Option.map_id, id]
  flags _ := rfl
  long := Iff.rfl

end Operands

namespace Line

/-- The family of the error that a word line leads to, if it cannot be encoded. -/
def fault? (strict : Bool) (symbols : List (Text × Int)) (raw : Text) : Option Error.Category :=
  match kind raw with
  | .data =>
      match Value.ofToken? (argument raw) with
      | none => none
      | some value =>
          match value.address? symbols with
          | none => some .undefinedLabel
          | some _ => none
  | .instruction =>
      match Instruction.ofMnemonic? (keyword raw) with
      | none => some .unknownOpcode
      | some instruction =>
          match Operands.ofText? strict instruction (argument raw) with
          | none => some .operandSyntax
          | some operands =>
              match operands.value.address? symbols with
              | none => some .undefinedLabel
              | some address => if address < 0 then some .operandSyntax else none
  | _ => none

section Fault

variable {strict : Bool} {file : Text} {source : List Text} {raw : Text} {instruction : Instruction}
  {operands : Operands}

theorem Fault.of_no_address (hkind : kind raw = .instruction)
    (hkeyword : keyword raw = instruction.mnemonic)
    (hspelled : operands.Spelled strict instruction (argument raw))
    (haddress : operands.value.address? (Source.symbols file source) = none) :
    Fault strict source raw .undefinedLabel := by
  cases operands with
  | memory register index indirect value =>
      cases value with
      | literal number => simp [Operands.value, Value.address?] at haddress
      | label name =>
          exact .undefinedOperand hkind hkeyword hspelled
            ((Source.lookup_symbols_eq_none_iff file source name).mp haddress)
  | immediate | registers | shift | device | bare =>
      simp [Operands.value, Value.address?] at haddress

/-- Only a numeral stands for a negative address. -/
theorem Fault.of_negative_address {address : Int} (hkind : kind raw = .instruction)
    (hkeyword : keyword raw = instruction.mnemonic)
    (hspelled : operands.Spelled strict instruction (argument raw))
    (haddress : operands.value.address? (Source.symbols file source) = some address)
    (hnegative : address < 0) : Fault strict source raw .operandSyntax := by
  cases operands with
  | memory register index indirect value =>
      cases value with
      | literal number =>
          obtain rfl : number = address := Option.some.inj haddress
          exact .negativeAddress hkind hkeyword hspelled hnegative
      | label name =>
          have hnonneg := Source.lookup_symbols_nonneg haddress
          omega
  | immediate | registers | shift | device | bare =>
      simp only [Operands.value, Value.address?, Option.some.injEq] at haddress
      omega

variable {category : Error.Category}

/-- What is found with the symbols of the source is a fault of the line. -/
theorem Fault.of_fault? (hfound : fault? strict (Source.symbols file source) raw = some category) :
    Fault strict source raw category := by
  unfold fault? at hfound
  split at hfound
  · rename_i hkind
    split at hfound
    · cases hfound
    · rename_i value hvalue
      split at hfound
      · rename_i haddress
        cases hfound
        cases value with
        | literal number => simp [Value.address?] at haddress
        | label name =>
            exact .undefinedData hkind hvalue
              ((Source.lookup_symbols_eq_none_iff file source name).mp haddress)
      · cases hfound
  · rename_i hkind
    split at hfound
    · rename_i hnone
      cases hfound
      exact .unknownOpcode hkind
        ((Instruction.ofMnemonic?_upper_eq_none_iff (operation raw)).mp hnone)
    · rename_i instruction hmnemonic
      have hkeyword := (ofMnemonic?_keyword_iff raw instruction).mp hmnemonic
      split at hfound
      · rename_i hnone
        cases hfound
        exact .badOperands hkind hkeyword ((Operands.ofText?_eq_none_iff _ _ _).mp hnone)
      · rename_i operands hread
        have hspelled := (Operands.ofText?_eq_some_iff _ _ _ _).mp hread
        split at hfound
        · rename_i haddress
          cases hfound
          exact .of_no_address hkind hkeyword hspelled haddress
        · rename_i address haddress
          split at hfound
          · rename_i hnegative
            cases hfound
            exact .of_negative_address hkind hkeyword hspelled haddress hnegative
          · cases hfound
  · cases hfound

/-- A fault of the line is found with the symbols of the source. -/
theorem Fault.fault?_eq (hfault : Fault strict source raw category) (file : Text) :
    fault? strict (Source.symbols file source) raw = some category := by
  cases hfault with
  | unknownOpcode hkind hunknown =>
      have hnone : Instruction.ofMnemonic? (keyword raw) = none :=
        (Instruction.ofMnemonic?_upper_eq_none_iff (operation raw)).mpr hunknown
      simp only [fault?, hkind, hnone]
  | badOperands hkind hkeyword hnone =>
      simp only [fault?, hkind, (ofMnemonic?_keyword_iff _ _).mpr hkeyword,
        (Operands.ofText?_eq_none_iff _ _ _).mpr hnone]
  | negativeAddress hkind hkeyword hspelled hnegative =>
      simp only [fault?, hkind, (ofMnemonic?_keyword_iff _ _).mpr hkeyword,
        (Operands.ofText?_eq_some_iff _ _ _ _).mpr hspelled, Operands.value, Value.address?,
        hnegative, ↓reduceIte]
  | @undefinedOperand _ _ _ _ label hkind hkeyword hspelled hundefined =>
      have hnone := (Source.lookup_symbols_eq_none_iff file source label).mpr hundefined
      simp only [fault?, hkind, (ofMnemonic?_keyword_iff _ _).mpr hkeyword,
        (Operands.ofText?_eq_some_iff _ _ _ _).mpr hspelled, Operands.value, Value.address?,
        hnone]
  | @undefinedData label hkind hvalue hundefined =>
      have hnone := (Source.lookup_symbols_eq_none_iff file source label).mpr hundefined
      simp only [fault?, hkind, hvalue, Value.address?, hnone]

end Fault

theorem fault?_eq_some_iff (strict : Bool) (file : Text) (source : List Text) (raw : Text)
    (category : Error.Category) :
    fault? strict (Source.symbols file source) raw = some category ↔
      Fault strict source raw category :=
  ⟨.of_fault?, fun hfault => hfault.fault?_eq file⟩

/-- The second line says what the first says, with labels renamed. -/
structure Counterpart {β : Type} (observe : Warning → β) (rename : Text → Text) (raw text : Text) :
    Prop where
  kind : kind text = kind raw
  label : label? text = (label? raw).map rename
  origin : Line.kind raw = .origin → argument text = argument raw
  value : Line.kind raw = .data →
    Value.ofToken? (argument text) = (Value.ofToken? (argument raw)).map (Value.renamed rename)
  convertible : Line.kind raw = .data →
    (Text.Convertible (argument text) ↔ Text.Convertible (argument raw))
  keyword : Line.kind raw = .instruction → keyword text = keyword raw
  operands : Line.kind raw = .instruction → ∀ instruction : Instruction,
    Line.keyword raw = instruction.mnemonic →
      Operands.Counterpart observe rename instruction (argument raw) (argument text)

/-- A line is its own counterpart, and so is a line that reads the same. -/
theorem Counterpart.of_body {β : Type} (observe : Warning → β) {raw text : Text}
    (hlabel : label? text = label? raw) (hbody : body text = body raw) :
    Counterpart observe id raw text := by
  have hargument : argument text = argument raw := by rw [argument, hbody, argument]
  have hkeyword : Line.keyword text = Line.keyword raw := by
    rw [Line.keyword, operation, hbody, Line.keyword, operation]
  refine ⟨?_, ?_, fun _ => hargument, ?_, ?_, fun _ => hkeyword, ?_⟩
  · simp only [Line.kind, hbody, hlabel, hkeyword]
  · simp [hlabel]
  · intro _
    have hid : Value.renamed id = id := funext Value.renamed_id
    rw [hid, Option.map_id, hargument, id]
  · intro _
    rw [hargument]
  · intro _ instruction _
    rw [hargument]
    exact .refl observe instruction _

section Counterpart

variable {β : Type} {observe : Warning → β} {rename : Text → Text} {raw text : Text}
  (hcounterpart : Counterpart observe rename raw text)

include hcounterpart

theorem Counterpart.laidOutAs : LaidOutAs rename raw text where
  label := hcounterpart.label
  takesWord := by simp only [takesWord, hcounterpart.kind]
  origin := by
    simp only [origin?, hcounterpart.kind]
    split
    · rename_i hkind
      simp only [Line.origin, hcounterpart.origin hkind]
    · rfl

theorem Counterpart.longArgument_iff : LongArgument text ↔ LongArgument raw := by
  unfold LongArgument
  rw [hcounterpart.kind]
  cases hkind : Line.kind raw with
  | origin => simp only [hcounterpart.origin hkind]
  | data => simp only [hcounterpart.convertible hkind]
  | blank | labelOnly | instruction => rfl

theorem Counterpart.sound_iff : Sound text ↔ Sound raw := by
  unfold Sound
  rw [hcounterpart.kind]
  cases hkind : Line.kind raw with
  | origin => simp only [Line.origin, hcounterpart.origin hkind]
  | data =>
      simp only [← ofToken?_isSome_iff, hcounterpart.value hkind, Option.isSome_map]
  | blank | labelOnly | instruction => rfl

theorem Counterpart.readable_iff : Readable text ↔ Readable raw := by
  apply and_congr hcounterpart.sound_iff
  unfold Converts
  rw [hcounterpart.kind]
  cases hkind : Line.kind raw with
  | origin => simp only [hcounterpart.origin hkind]
  | data => simp only [hcounterpart.convertible hkind]
  | blank | labelOnly | instruction => simp

theorem Counterpart.longOperand_iff : LongOperand text ↔ LongOperand raw := by
  unfold LongOperand
  rw [hcounterpart.kind]
  apply and_congr_right
  intro hkind
  rw [hcounterpart.keyword hkind]
  apply exists_congr
  intro instruction
  apply and_congr_right
  intro hkeyword
  exact (hcounterpart.operands hkind instruction hkeyword).long

/-- A line and its counterpart make the same word, with the same warnings as far as they are
observed. -/
theorem Counterpart.output? {symbols others : List (Text × Int)}
    (hsymbols : RenamedSymbols rename symbols others) (strict : Bool) (shift : Int → Int)
    (place : Place) :
    (output? strict others (place.moved shift) text).map (Prod.map id (List.map observe)) =
      (output? strict symbols place raw).map
        (Prod.map id (List.map (observe ∘ Warning.moved rename shift))) := by
  unfold Line.output?
  rw [hcounterpart.kind]
  cases hkind : Line.kind raw with
  | data =>
      simp only [hcounterpart.value hkind]
      cases hvalue : Value.ofToken? (argument raw) with
      | none => rfl
      | some value =>
          have haddress := Value.address?_renamed hsymbols hvalue
          simp only [Option.map_some, bind, Option.bind_some, haddress]
          cases value.address? symbols <;> rfl
  | instruction =>
      simp only [hcounterpart.keyword hkind]
      cases hmnemonic : Instruction.ofMnemonic? (Line.keyword raw) with
      | none => rfl
      | some instruction =>
          have hoperands := hcounterpart.operands hkind instruction
            ((ofMnemonic?_keyword_iff _ _).mp hmnemonic)
          simp only [bind, Option.bind_some, hoperands.read]
          cases hread : Operands.ofText? strict instruction (argument raw) with
          | none => rfl
          | some operands =>
              have haddress := Operands.address?_renamed hsymbols hread
              simp only [Option.map_some, Option.bind_some, Operands.value_renamed, haddress,
                Operands.word_renamed]
              cases operands.value.address? symbols with
              | none => rfl
              | some address =>
                  have hflags := (hoperands.flags (some (place.moved shift))).trans
                    (congrArg (List.map observe)
                      (Operands.flagWarnings_moved rename shift place instruction (argument raw)))
                  simp only [Option.bind_some]
                  split
                  · simp only [Option.map_some, Prod.map_apply, List.map_append, hflags,
                      Value.warnings_renamed, List.map_map]
                  · rfl
  | blank | labelOnly | origin => rfl

/-- A line and its counterpart have the same fault. -/
theorem Counterpart.fault? {symbols others : List (Text × Int)}
    (hsymbols : RenamedSymbols rename symbols others) (strict : Bool) :
    fault? strict others text = fault? strict symbols raw := by
  unfold Line.fault?
  rw [hcounterpart.kind]
  cases hkind : Line.kind raw with
  | data =>
      simp only [hcounterpart.value hkind]
      cases hvalue : Value.ofToken? (argument raw) with
      | none => rfl
      | some value =>
          have haddress := Value.address?_renamed hsymbols hvalue
          simp only [Option.map_some, haddress]
  | instruction =>
      simp only [hcounterpart.keyword hkind]
      cases hmnemonic : Instruction.ofMnemonic? (Line.keyword raw) with
      | none => rfl
      | some instruction =>
          have hoperands := hcounterpart.operands hkind instruction
            ((ofMnemonic?_keyword_iff _ _).mp hmnemonic)
          simp only [hoperands.read]
          cases hread : Operands.ofText? strict instruction (argument raw) with
          | none => rfl
          | some operands =>
              have haddress := Operands.address?_renamed hsymbols hread
              simp only [Option.map_some, Operands.value_renamed, haddress]
  | blank | labelOnly | origin => rfl

end Counterpart

end Line

end TwoPass
