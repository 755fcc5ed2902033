import TwoPass.Proofs.Source.Counterpart
import TwoPass.Proofs.Text.Field
import TwoPass.Proofs.Text.LetterCase

/-!
# Flags in either case

The fields of an operand list that are read as flags may be written in either case: the operands are the
same, and an unknown flag stays unknown.  Which field is a flag depends on the instruction, and for
instructions on an index register on the field itself: as the third of three it is a flag if it is the
letter `I`, in either case, and an address otherwise.
-/

namespace TwoPass

/-- The warning with the spelling of an unknown flag in capitals. -/
def Warning.inCapitals (warning : Warning) : Warning where
  cause :=
    match warning.cause with
    | .unknownFlag flag token => .unknownFlag flag (Text.upper token)
    | cause => cause
  place := warning.place

/-- A flag is spelled by its capitals. -/
theorem ShiftFlag.ofToken?_recased {token other : Text} (hcase : Text.Recased token other)
    (flag : ShiftFlag) : flag.ofToken? other = flag.ofToken? token := by
  simp only [ofToken?, hcase.upper_eq]

theorem ShiftFlag.Reads.recased {strict set : Bool} {flag : ShiftFlag} {token other : Text}
    (hreads : flag.Reads strict token set) (hcase : Text.Recased token other) :
    flag.Reads strict other set := by
  unfold Reads at hreads ⊢
  rwa [ofToken?_recased hcase, Ne, hcase.eq_nil_iff]

theorem ShiftFlag.warnings_recased {token other : Text} (hcase : Text.Recased token other)
    (place : Option Place) (flag : ShiftFlag) :
    (flag.warnings place other).map Warning.inCapitals =
      (flag.warnings place token).map Warning.inCapitals := by
  simp only [warnings, ofToken?_recased hcase]
  split
  · simp only [List.map_cons, List.map_nil, Warning.inCapitals, hcase.upper_eq]
  · rfl

theorem indirectOfToken?_recased {token other : Text} (hcase : Text.Recased token other) :
    indirectOfToken? other = indirectOfToken? token := by
  simp only [indirectOfToken?, hcase.upper_eq]

namespace Instruction

/-- The field at a position, counted from zero, is read as a flag: the third and the fourth of a shift,
and the fourth of a memory instruction.  The third of three is one if it is the letter `I` and the
instruction is on an index register. -/
def isFlagField (instruction : Instruction) (tokens : List Text) (position : Nat) : Bool :=
  match instruction.format, position with
  | .shift, 2 | .shift, 3 | .memory, 3 => true
  | .memory, 2 =>
      match tokens with
      | [_, _, third] => instruction.hasIndexForm && Text.upper third == "I".text
      | _ => false
  | _, _ => false

/-- The second list of fields has flags of another case, and is the same otherwise. -/
structure FlagsRecased (instruction : Instruction) (tokens others : List Text) : Prop where
  recased : List.Forall₂ Text.Recased tokens others
  kept : ∀ position, instruction.isFlagField tokens position = false →
    others[position]? = tokens[position]?

variable {instruction : Instruction} {tokens others : List Text}

theorem isFlagField_recased (hrecased : List.Forall₂ Text.Recased tokens others) (position : Nat) :
    instruction.isFlagField others position = instruction.isFlagField tokens position := by
  unfold isFlagField
  split
  · rfl
  · rfl
  · rfl
  · rcases hrecased with _ | ⟨_, _ | ⟨_, _ | ⟨hthird, _ | _⟩⟩⟩
    · rfl
    · rfl
    · rfl
    · simp only [hthird.upper_eq]
    · rfl
  · rfl

namespace FlagsRecased

theorem symm (hflags : instruction.FlagsRecased tokens others) :
    instruction.FlagsRecased others tokens where
  recased := (hflags.recased.imp fun _ _ => Text.Recased.symm).flip
  kept position hfield := by
    rw [isFlagField_recased hflags.recased] at hfield
    exact (hflags.kept position hfield).symm

/-- Formats without flags leave nothing to change. -/
theorem eq_of_format (hflags : instruction.FlagsRecased tokens others)
    (hmemory : instruction.format ≠ .memory) (hshift : instruction.format ≠ .shift) :
    others = tokens := by
  apply List.ext_getElem?
  intro position
  apply hflags.kept
  unfold isFlagField
  split <;> simp_all

/-- The first two fields are never flags. -/
theorem eq_of_pair {first second : Text} (hflags : instruction.FlagsRecased [first, second] others) :
    others = [first, second] := by
  obtain ⟨hrecased, hkept⟩ := hflags
  rcases hrecased with _ | ⟨_, _ | ⟨_, _ | _⟩⟩
  have hfirst := hkept 0 (by simp [isFlagField])
  have hsecond := hkept 1 (by simp [isFlagField])
  simp_all

/-- The third of three fields of a memory instruction may change if it is the letter `I`. -/
theorem exists_of_triple {first second third : Text} (hmemory : instruction.format = .memory)
    (hflags : instruction.FlagsRecased [first, second, third] others) :
    ∃ other, others = [first, second, other] ∧ Text.Recased third other ∧
      (¬ (instruction.hasIndexForm = true ∧ Text.upper third = "I".text) → other = third) := by
  obtain ⟨hrecased, hkept⟩ := hflags
  rcases hrecased with _ | ⟨_, _ | ⟨_, _ | ⟨hthird, _ | _⟩⟩⟩
  have hfirst := hkept 0 (by simp [isFlagField])
  have hsecond := hkept 1 (by simp [isFlagField])
  refine ⟨_, by simp_all, hthird, ?_⟩
  intro hform
  have hsame := hkept 2 (by simp only [isFlagField, hmemory]; simpa using hform)
  simpa using hsame

/-- Only the flags of four fields may change. -/
theorem exists_of_quad {first second third fourth : Text}
    (hflags : instruction.FlagsRecased [first, second, third, fourth] others) :
    ∃ other last, others = [first, second, other, last] ∧ Text.Recased third other ∧
      Text.Recased fourth last ∧ (instruction.format = .memory → other = third) := by
  obtain ⟨hrecased, hkept⟩ := hflags
  rcases hrecased with _ | ⟨_, _ | ⟨_, _ | ⟨hthird, _ | ⟨hfourth, _ | _⟩⟩⟩⟩
  have hfirst := hkept 0 (by simp [isFlagField])
  have hsecond := hkept 1 (by simp [isFlagField])
  refine ⟨_, _, by simp_all, hthird, hfourth, ?_⟩
  intro hmemory
  have hsame := hkept 2 (by simp only [isFlagField, hmemory])
  simpa using hsame

theorem memorySlots_eq (hflags : instruction.FlagsRecased tokens others)
    (hmemory : instruction.format = .memory) :
    memorySlots instruction.hasIndexForm others = memorySlots instruction.hasIndexForm tokens := by
  match tokens with
  | [] | [_] =>
      rcases hflags.recased with _ | ⟨_, _ | _⟩
      all_goals rfl
  | [first, second] => rw [hflags.eq_of_pair]
  | [first, second, third] =>
      obtain ⟨other, rfl, hthird, hsame⟩ := hflags.exists_of_triple hmemory
      by_cases hform : instruction.hasIndexForm = true ∧ Text.upper third = "I".text
      · simp only [memorySlots, hthird.upper_eq, if_pos hform]
      · rw [hsame hform]
  | [first, second, third, fourth] =>
      obtain ⟨other, last, rfl, -, -, hsame⟩ := hflags.exists_of_quad
      rw [hsame hmemory]
      rfl
  | first :: second :: third :: fourth :: fifth :: rest =>
      rcases hflags.recased with _ | ⟨_, _ | ⟨_, _ | ⟨_, _ | ⟨_, _ | _⟩⟩⟩⟩
      rfl

theorem shiftSlots_eq (hflags : instruction.FlagsRecased tokens others) :
    shiftSlots others = shiftSlots tokens := by
  match tokens with
  | [] | [_] | [_, _] | [_, _, _] =>
      rcases hflags.recased with _ | ⟨_, _ | ⟨_, _ | ⟨_, _ | _⟩⟩⟩
      all_goals rfl
  | [first, second, third, fourth] =>
      obtain ⟨other, last, rfl, -⟩ := hflags.exists_of_quad
      rfl
  | first :: second :: third :: fourth :: fifth :: rest =>
      rcases hflags.recased with _ | ⟨_, _ | ⟨_, _ | ⟨_, _ | ⟨_, _ | _⟩⟩⟩⟩
      rfl

/-- The case of flags has no effect on the fields that hold numerals. -/
theorem slots_eq (hflags : instruction.FlagsRecased tokens others) :
    instruction.slots others = instruction.slots tokens := by
  by_cases hmemory : instruction.format = .memory
  · simp only [slots, hmemory]
    exact hflags.memorySlots_eq hmemory
  · by_cases hshift : instruction.format = .shift
    · simp only [slots, hshift]
      exact hflags.shiftSlots_eq
    · rw [hflags.eq_of_format hmemory hshift]

theorem ne_nil_of_mem (hflags : instruction.FlagsRecased tokens others)
    (hne : ∀ token ∈ tokens, token ≠ []) : ∀ token ∈ others, token ≠ [] := by
  intro token hmem
  obtain ⟨original, horiginal, hcase⟩ := exists_of_mem_left hflags.symm.recased hmem
  exact fun hnil => hne original horiginal (hcase.eq_nil_iff.mpr hnil)

end FlagsRecased

end Instruction

namespace Operands

variable {strict : Bool} {instruction : Instruction} {text other : Text}

/-- A text with flags of another case spells the same operands. -/
theorem Spelled.recased {operands : Operands} (hspelled : operands.Spelled strict instruction text)
    (hflags : instruction.FlagsRecased (Text.fields text) (Text.fields other)) :
    operands.Spelled strict instruction other := by
  cases hspelled with
  | short hformat hfields hindex hvalue =>
      rw [hfields] at hflags
      exact .short hformat hflags.eq_of_pair hindex hvalue
  | shortIndirect hformat hfields hform hflag hindex hvalue =>
      rw [hfields] at hflags
      obtain ⟨third, hother, hthird, -⟩ := hflags.exists_of_triple hformat
      exact .shortIndirect hformat hother hform (hthird.upper_eq.trans hflag) hindex hvalue
  | direct hformat hfields hform hregister hindex hvalue =>
      rw [hfields] at hflags
      obtain ⟨third, hother, -, hsame⟩ := hflags.exists_of_triple hformat
      obtain rfl := hsame hform
      exact .direct hformat hother hform hregister hindex hvalue
  | full hformat hfields hregister hindex hvalue hflag =>
      rw [hfields] at hflags
      obtain ⟨third, fourth, hother, -, hfourth, hsame⟩ := hflags.exists_of_quad
      obtain rfl := hsame hformat
      exact .full hformat hother hregister hindex hvalue
        ((indirectOfToken?_recased hfourth).trans hflag)
  | immediate hformat hfields hregister hnumber =>
      rw [hfields] at hflags
      exact .immediate hformat hflags.eq_of_pair hregister hnumber
  | registers hformat hfields hfirst hsecond =>
      rw [hfields] at hflags
      exact .registers hformat hflags.eq_of_pair hfirst hsecond
  | shift hformat hfields hregister hcount hleft harithmetic =>
      rw [hfields] at hflags
      obtain ⟨direction, kind, hother, hdirection, hkind, -⟩ := hflags.exists_of_quad
      exact .shift hformat hother hregister hcount (hleft.recased hdirection)
        (harithmetic.recased hkind)
  | device hformat hfields hregister hnumber =>
      rw [hfields] at hflags
      exact .device hformat hflags.eq_of_pair hregister hnumber
  | bare hformat hblank =>
      have hfields := hflags.eq_of_format (by simp [hformat]) (by simp [hformat])
      rw [OperandReader.fields_of_blank hblank] at hfields
      exact .bare hformat (Text.trim_of_fields_eq_singleton hfields)

/-- Unknown flags are as many in either case. -/
theorem flagWarnings_recased (hflags : instruction.FlagsRecased (Text.fields text) (Text.fields other))
    (place : Option Place) :
    (flagWarnings place instruction other).map Warning.inCapitals =
      (flagWarnings place instruction text).map Warning.inCapitals := by
  by_cases hshift : instruction.format = .shift
  · simp only [flagWarnings, hshift]
    generalize Text.fields text = tokens at hflags
    generalize Text.fields other = others at hflags
    rcases hflags.recased with _ | ⟨_, _ | ⟨_, _ | ⟨hdirection, _ | ⟨hkind, _ | _⟩⟩⟩⟩
    case cons.cons.cons.cons.nil =>
      simp only [List.map_append, ShiftFlag.warnings_recased hdirection,
        ShiftFlag.warnings_recased hkind]
    all_goals rfl
  · have hnone : ∀ text, flagWarnings place instruction text = [] := by
      intro text
      unfold flagWarnings
      split
      · contradiction
      · rfl
    rw [hnone, hnone]

/-- A text with flags of another case is the counterpart of the text. -/
theorem counterpart_of_flagsRecased
    (hflags : instruction.FlagsRecased (Text.fields text) (Text.fields other)) :
    Counterpart Warning.inCapitals id instruction text other where
  read strict := by
    have hid : renamed id = id := funext renamed_id
    rw [hid, Option.map_id, id]
    apply Option.ext
    intro operands
    rw [ofText?_eq_some_iff, ofText?_eq_some_iff]
    exact ⟨fun hspelled => hspelled.recased hflags.symm, fun hspelled => hspelled.recased hflags⟩
  flags := flagWarnings_recased hflags
  long := by
    rw [Instruction.LongOperand, Instruction.LongOperand, hflags.slots_eq]
    exact and_congr_left fun _ => ⟨hflags.symm.ne_nil_of_mem, hflags.ne_nil_of_mem⟩

end Operands

end TwoPass
