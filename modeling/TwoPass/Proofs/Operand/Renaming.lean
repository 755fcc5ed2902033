import TwoPass.Proofs.Operand.Refusal
import TwoPass.Proofs.Source.Counterpart
import TwoPass.Proofs.Text.Capital
import TwoPass.Proofs.Text.Field

/-!
# Renaming the label in an operand

A label may be renamed where it stands in the address field of an operand list.  Which field that is
depends on the number of fields, and for instructions on an index register on whether the third field is
the letter `I`; renaming leaves this letter alone, so the field stays the same.  The new text spells the
same operands with the label renamed.
-/

namespace TwoPass

/-- A renaming of labels.  Names go to names, and names that differ to names that differ.  The letter
that stands for indirection keeps its name. -/
structure Renaming where
  image : Text → Text
  isName_image : ∀ name, Text.isName name = true → Text.isName (image name) = true
  apart : Text.KeepsNamesApart image
  image_capital : image "I".text = "I".text
  image_small : image "i".text = "i".text

/-- The letter `I` is the only name that is this letter in capitals, but for its small form. -/
theorem Text.eq_of_upper_eq_I {name : Text} (hname : isName name = true)
    (hupper : upper name = "I".text) : name = "I".text ∨ name = "i".text := by
  have hcapital : ∀ n < 128, (CodePoint.char (Char.ofNat n)).toUpper = 'I' →
      CodePoint.char (Char.ofNat n) = 'I' ∨ CodePoint.char (Char.ofNat n) = 'i' := by decide
  have hascii : ∀ c ∈ name, c.toNat < 128 := by
    intro c hmem
    have hplain := isPlain_of_isName hname c hmem
    simp only [isPlain, Bool.and_eq_true, decide_eq_true_eq] at hplain
    omega
  have hmap : upper name = name.map CodePoint.toUpper := by
    calc upper name = name.flatMap (fun c => [c.toUpper]) :=
          List.flatMap_congr fun c hmem => upperChar_of_ascii (hascii c hmem)
      _ = name.map CodePoint.toUpper := List.flatMap_pure_eq_map CodePoint.toUpper name
  rw [hmap] at hupper
  obtain ⟨c, rfl, hc⟩ := List.map_eq_singleton_iff.mp hupper
  have hsmall := hascii c List.mem_cons_self
  have hletter := hcapital c.toNat hsmall
  rw [CodePoint.char_ofNat_toNat (by omega)] at hletter
  rcases hletter hc with rfl | rfl
  · exact Or.inl rfl
  · exact Or.inr rfl

namespace Renaming

variable (names : Renaming)

/-- The token with its new name, if it is a name. -/
def token (text : Text) : Text :=
  if Text.isName text then names.image text else text

theorem token_of_isName {text : Text} (hname : Text.isName text = true) :
    names.token text = names.image text :=
  if_pos hname

theorem token_of_not_isName {text : Text} (hname : ¬ Text.isName text = true) :
    names.token text = text :=
  if_neg hname

theorem token_eq_nil_iff (text : Text) : names.token text = [] ↔ text = [] := by
  by_cases hname : Text.isName text = true
  · rw [names.token_of_isName hname]
    constructor
    · intro hnil
      have himage := names.isName_image text hname
      rw [hnil] at himage
      contradiction
    · rintro rfl
      contradiction
  · rw [names.token_of_not_isName hname]

theorem ofToken?_token (text : Text) :
    Value.ofToken? (names.token text) =
      (Value.ofToken? text).map (Value.renamed names.image) := by
  by_cases hname : Text.isName text = true
  · have himage := names.isName_image text hname
    simp only [names.token_of_isName hname, Value.ofToken?,
      Text.not_isDigits_of_isName hname, Text.not_isDigits_of_isName himage, hname, himage]
    rfl
  · simp only [names.token_of_not_isName hname, Value.ofToken?, hname]
    split <;> rfl

theorem convertible_token_iff (text : Text) :
    Text.Convertible (names.token text) ↔ Text.Convertible text := by
  by_cases hname : Text.isName text = true
  · have himage := names.isName_image text hname
    simp [names.token_of_isName hname, Text.Convertible, Text.not_isDigits_of_isName hname,
      Text.not_isDigits_of_isName himage]
  · rw [names.token_of_not_isName hname]

theorem written_token {text : Text} {value : Value} (hwritten : Value.Written text value) :
    Value.Written (names.token text) (value.renamed names.image) := by
  refine ⟨?_, (names.convertible_token_iff text).mpr hwritten.2⟩
  rw [ofToken?_token, hwritten.1, Option.map_some]

theorem written_of_token {text : Text} {value : Value}
    (hwritten : Value.Written (names.token text) value) :
    ∃ original, Value.Written text original := by
  obtain ⟨hvalue, hconvertible⟩ := hwritten
  rw [ofToken?_token, Option.map_eq_some_iff] at hvalue
  obtain ⟨original, horiginal, -⟩ := hvalue
  exact ⟨original, horiginal, (names.convertible_token_iff text).mp hconvertible⟩

/-- The letter of indirection stays, and no other name becomes one. -/
theorem upper_token_iff (text : Text) :
    Text.upper (names.token text) = "I".text ↔ Text.upper text = "I".text := by
  by_cases hname : Text.isName text = true
  · rw [names.token_of_isName hname]
    constructor
    · intro hupper
      rcases Text.eq_of_upper_eq_I (names.isName_image text hname) hupper with hcapital | hsmall
      · rw [names.apart text "I".text hname (by decide)
          (hcapital.trans names.image_capital.symm)]
        decide +kernel
      · rw [names.apart text "i".text hname (by decide)
          (hsmall.trans names.image_small.symm)]
        decide +kernel
    · intro hupper
      rcases Text.eq_of_upper_eq_I hname hupper with rfl | rfl
      · rw [names.image_capital]
        exact hupper
      · rw [names.image_small]
        exact hupper
  · rw [names.token_of_not_isName hname]

end Renaming

/-- Changes the address field among the fields of a memory instruction.  It is the second of two fields,
and the second of three if an index form ends with the letter `I`; otherwise it is the third. -/
def Instruction.atAddress (indexForm : Bool) (change : Text → Text) : List Text → List Text
  | [index, addr] => [index, change addr]
  | [first, second, third] =>
      if indexForm = true ∧ Text.upper (Text.trim third) = "I".text then
        [first, change second, third]
      else [first, second, change third]
  | first :: second :: third :: fourth :: rest => first :: second :: change third :: fourth :: rest
  | fields => fields

namespace Instruction

variable {indexForm : Bool} {change : Text → Text} {pieces : List Text}

theorem mem_atAddress {piece : Text} (hmem : piece ∈ atAddress indexForm change pieces) :
    piece ∈ pieces ∨ ∃ original ∈ pieces, piece = change original := by
  unfold atAddress at hmem
  grind

theorem length_atAddress :
    (atAddress indexForm change pieces).length = pieces.length := by
  unfold atAddress
  grind

theorem atAddress_ne_nil (hne : pieces ≠ []) : atAddress indexForm change pieces ≠ [] := by
  rw [← List.length_pos_iff, length_atAddress, List.length_pos_iff]
  exact hne

/-- The fields of changed pieces are the changed fields. -/
theorem map_trim_atAddress {other : Text → Text}
    (hchange : ∀ piece, Text.trim (change piece) = other (Text.trim piece)) :
    (atAddress indexForm change pieces).map Text.trim =
      atAddress indexForm other (pieces.map Text.trim) := by
  match pieces with
  | [] | [_] => rfl
  | [first, second] => simp [atAddress, hchange]
  | [first, second, third] =>
      simp only [atAddress, List.map_cons, List.map_nil, Text.trim_trim]
      split <;> simp [hchange]
  | first :: second :: third :: fourth :: rest => simp [atAddress, hchange]

end Instruction

namespace Renaming

variable (names : Renaming)

theorem ne_nil_of_mem_iff (indexForm : Bool) (tokens : List Text) :
    (∀ token ∈ Instruction.atAddress indexForm names.token tokens, token ≠ []) ↔
      ∀ token ∈ tokens, token ≠ [] := by
  match tokens with
  | [] | [_] => rfl
  | [first, second] => simp [Instruction.atAddress, names.token_eq_nil_iff]
  | [first, second, third] =>
      simp only [Instruction.atAddress]
      split <;> simp [names.token_eq_nil_iff]
  | first :: second :: third :: fourth :: rest =>
      simp [Instruction.atAddress, names.token_eq_nil_iff]

/-- A slot with its token, which is renamed if it is in the address field. -/
def slot : Slot × Text → Slot × Text
  | (.address, text) => (.address, names.token text)
  | (.number field, text) => (.number field, text)

theorem firstLong_map_slot (slots : List (Slot × Text)) :
    Slot.FirstLong (slots.map names.slot) ↔ Slot.FirstLong slots := by
  induction slots with
  | nil => rfl
  | cons filled rest ih =>
      rcases filled with ⟨field | _, text⟩
      · simp only [List.map_cons, slot, Slot.FirstLong, ih]
      · have haccepts : Slot.address.Accepts (names.token text) ↔ Slot.address.Accepts text := by
          constructor
          · rintro ⟨value, hwritten⟩
            exact names.written_of_token hwritten
          · rintro ⟨value, hwritten⟩
            exact ⟨_, names.written_token hwritten⟩
        simp only [List.map_cons, slot, Slot.FirstLong, names.convertible_token_iff, haccepts, ih]

theorem memorySlots_atAddress {indexForm : Bool} {tokens : List Text}
    (htokens : ∀ token ∈ tokens, Text.trim token = token) :
    Instruction.memorySlots indexForm (Instruction.atAddress indexForm names.token tokens) =
      (Instruction.memorySlots indexForm tokens).map names.slot := by
  match tokens with
  | [] | [_] => rfl
  | [first, second] => rfl
  | [first, second, third] =>
      have hthird := htokens third (by simp)
      by_cases hform : indexForm = true ∧ Text.upper third = "I".text
      · simp [Instruction.atAddress, Instruction.memorySlots, hthird, hform, slot]
      · have hrenamed : ¬ (indexForm = true ∧ Text.upper (names.token third) = "I".text) := by
          rwa [names.upper_token_iff]
        simp only [Instruction.atAddress, Instruction.memorySlots, hthird, hform, hrenamed, slot,
          ↓reduceIte, List.map_cons, List.map_nil]
  | [first, second, third, fourth] => rfl
  | first :: second :: third :: fourth :: fifth :: rest => rfl

section Memory

variable {names} {instruction : Instruction} {text other : Text} {strict : Bool} {operands : Operands}
  (hfields : Text.fields other =
    Instruction.atAddress instruction.hasIndexForm names.token (Text.fields text))

include hfields

/-- Renaming the address field renames the label of the operands. -/
theorem spelled_renamed (hformat : instruction.format = .memory)
    (hspelled : operands.Spelled strict instruction text) :
    (operands.renamed names.image).Spelled strict instruction other := by
  have htokens := OperandReader.trim_of_fields_eq (Eq.refl (Text.fields text))
  cases hspelled with
  | short _ htext hindex hvalue =>
      rw [htext] at hfields
      exact .short hformat hfields hindex (names.written_token hvalue)
  | @shortIndirect ix addr flag index value _ htext hform hflag hindex hvalue =>
      have htrim : Text.trim flag = flag := htokens flag (by simp [htext])
      rw [htext, Instruction.atAddress, if_pos ⟨hform, htrim.symm ▸ hflag⟩] at hfields
      exact .shortIndirect hformat hfields hform hflag hindex (names.written_token hvalue)
  | @direct r ix addr register index value _ htext hform hregister hindex hvalue =>
      have htrim : Text.trim addr = addr := htokens addr (by simp [htext])
      rw [htext, Instruction.atAddress, htrim, if_neg hform] at hfields
      refine .direct hformat hfields ?_ hregister hindex (names.written_token hvalue)
      rwa [names.upper_token_iff]
  | full _ htext hregister hindex hvalue hflag =>
      rw [htext] at hfields
      exact .full hformat hfields hregister hindex (names.written_token hvalue) hflag
  | immediate hother | registers hother | shift hother | device hother | bare hother =>
      simp [hformat] at hother

/-- Renaming the address field makes no operands out of a text that spells none. -/
theorem exists_spelled_of_renamed (hformat : instruction.format = .memory)
    (hspelled : operands.Spelled strict instruction other) :
    ∃ original : Operands, original.Spelled strict instruction text := by
  have htokens := OperandReader.trim_of_fields_eq (Eq.refl (Text.fields text))
  have hlength := congrArg List.length hfields
  rw [Instruction.length_atAddress] at hlength
  cases hspelled with
  | short _ hother hindex hvalue =>
      rw [hother] at hfields hlength
      obtain ⟨first, second, htext⟩ := List.length_eq_two.mp hlength.symm
      simp only [htext, Instruction.atAddress, List.cons.injEq, and_true] at hfields
      obtain ⟨rfl, rfl⟩ := hfields
      obtain ⟨original, horiginal⟩ := names.written_of_token hvalue
      exact ⟨_, .short hformat htext hindex horiginal⟩
  | shortIndirect _ hother hform hflag hindex hvalue =>
      rw [hother] at hfields hlength
      obtain ⟨first, second, third, htext⟩ := List.length_eq_three.mp hlength.symm
      have htrim : Text.trim third = third := htokens third (by simp [htext])
      simp only [htext, Instruction.atAddress, htrim, hform, true_and] at hfields
      split at hfields
      · simp only [List.cons.injEq, and_true] at hfields
        obtain ⟨rfl, rfl, rfl⟩ := hfields
        obtain ⟨original, horiginal⟩ := names.written_of_token hvalue
        exact ⟨_, .shortIndirect hformat htext hform hflag hindex horiginal⟩
      · rename_i hthird
        simp only [List.cons.injEq, and_true] at hfields
        obtain ⟨-, -, rfl⟩ := hfields
        exact absurd ((names.upper_token_iff third).mp hflag) hthird
  | direct _ hother hform hregister hindex hvalue =>
      rw [hother] at hfields hlength
      obtain ⟨first, second, third, htext⟩ := List.length_eq_three.mp hlength.symm
      have htrim : Text.trim third = third := htokens third (by simp [htext])
      simp only [htext, Instruction.atAddress, htrim] at hfields
      split at hfields
      · rename_i hthird
        simp only [List.cons.injEq, and_true] at hfields
        obtain ⟨-, -, rfl⟩ := hfields
        contradiction
      · rename_i hthird
        simp only [List.cons.injEq, and_true] at hfields
        obtain ⟨rfl, rfl, rfl⟩ := hfields
        obtain ⟨original, horiginal⟩ := names.written_of_token hvalue
        exact ⟨_, .direct hformat htext hthird hregister hindex horiginal⟩
  | full _ hother hregister hindex hvalue hflag =>
      rw [hother] at hfields hlength
      obtain ⟨first, rest, htext⟩ := List.exists_cons_of_length_eq_add_one hlength.symm
      obtain ⟨second, third, fourth, rfl⟩ :=
        List.length_eq_three.mp (by simpa [htext] using hlength.symm)
      simp only [htext, Instruction.atAddress, List.cons.injEq, and_true] at hfields
      obtain ⟨rfl, rfl, rfl, rfl⟩ := hfields
      obtain ⟨original, horiginal⟩ := names.written_of_token hvalue
      exact ⟨_, .full hformat htext hregister hindex horiginal hflag⟩
  | immediate hother | registers hother | shift hother | device hother | bare hother =>
      simp [hformat] at hother

/-- The text with its address field renamed is the counterpart of the text. -/
theorem counterpart_of_memory {β : Type} (observe : Warning → β)
    (hformat : instruction.format = .memory) :
    Operands.Counterpart observe names.image instruction text other where
  read strict := by
    cases hread : Operands.ofText? strict instruction text with
    | some operands =>
        rw [Operands.ofText?_eq_some_iff] at hread
        rw [Option.map_some, Operands.ofText?_eq_some_iff]
        exact spelled_renamed hfields hformat hread
    | none =>
        rw [Operands.ofText?_eq_none_iff] at hread
        rw [Option.map_none, Operands.ofText?_eq_none_iff]
        intro operands hspelled
        obtain ⟨original, horiginal⟩ := exists_spelled_of_renamed hfields hformat hspelled
        exact hread original horiginal
  flags place := by
    simp only [Operands.flagWarnings, hformat]
  long := by
    have htokens := OperandReader.trim_of_fields_eq (Eq.refl (Text.fields text))
    simp only [Instruction.LongOperand, Instruction.slots, hformat, hfields,
      names.memorySlots_atAddress htokens, names.firstLong_map_slot, names.ne_nil_of_mem_iff]

end Memory

/-- Operands of other formats have no label to rename. -/
theorem counterpart_of_not_memory {β : Type} (observe : Warning → β) {instruction : Instruction}
    (hformat : instruction.format ≠ .memory) (text : Text) :
    Operands.Counterpart observe names.image instruction text text where
  read strict := by
    cases hread : Operands.ofText? strict instruction text with
    | none => rfl
    | some operands =>
        rw [Operands.ofText?_eq_some_iff] at hread
        cases hread with
        | short hmemory | shortIndirect hmemory | direct hmemory | full hmemory => contradiction
        | immediate | registers | shift | device | bare => rfl
  flags _ := rfl
  long := Iff.rfl

end Renaming

end TwoPass
