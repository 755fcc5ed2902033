import Mathlib.Algebra.Ring.Nat
import TwoPass.Proofs.Image.Encoding

/-!
# Words and their fields

The ten bits below an opcode are cut into fields, and the format of the instruction gives their widths.
Cutting a word gives back the fields it was laid out from, so that two words are the same exactly when
their opcodes and all their fields are.
-/

namespace TwoPass

namespace Word

/-- Cuts a number into fields of the given widths in bits, the most significant field first. -/
def cut : List Nat → Nat → List Nat
  | [], _ => []
  | _ :: rest, number => number / 2 ^ rest.sum :: cut rest (number % 2 ^ rest.sum)

/-- The number that holds the given fields at the given widths. -/
def join : List Nat → List Nat → Nat
  | _ :: widths, field :: fields => field * 2 ^ widths.sum + join widths fields
  | _, _ => 0

def Fits (widths fields : List Nat) : Prop :=
  List.Forall₂ (fun width field => field < 2 ^ width) widths fields

theorem join_lt {widths fields : List Nat} (hfits : Fits widths fields) :
    join widths fields < 2 ^ widths.sum := by
  induction hfits with
  | nil => simp [join]
  | @cons width field widths fields hfield _ ih =>
      calc join (width :: widths) (field :: fields)
          < field * 2 ^ widths.sum + 2 ^ widths.sum := Nat.add_lt_add_left ih _
        _ = (field + 1) * 2 ^ widths.sum := (Nat.succ_mul field _).symm
        _ ≤ 2 ^ width * 2 ^ widths.sum := Nat.mul_le_mul_right _ hfield
        _ = 2 ^ (width :: widths).sum := by rw [List.sum_cons, Nat.pow_add]

/-- Cutting gives back the fields that were joined. -/
theorem cut_join {widths fields : List Nat} (hfits : Fits widths fields) :
    cut widths (join widths fields) = fields := by
  induction hfits with
  | nil => rfl
  | @cons width field widths fields hfield hrest ih =>
      have hlt := join_lt hrest
      have hdiv : (field * 2 ^ widths.sum + join widths fields) / 2 ^ widths.sum = field := by
        rw [Nat.mul_comm, Nat.mul_add_div (Nat.two_pow_pos _), Nat.div_eq_of_lt hlt, Nat.add_zero]
      have hmod : (field * 2 ^ widths.sum + join widths fields) % 2 ^ widths.sum =
          join widths fields := by
        rw [Nat.mul_comm, Nat.mul_add_mod, Nat.mod_eq_of_lt hlt]
      rw [cut, join, hdiv, hmod, ih]

/-- A field that lies below a number adds to it. -/
theorem or_eq_add (width : Nat) {high low : Nat} (hhigh : 2 ^ width ∣ high)
    (hlow : low < 2 ^ width) : high ||| low = high + low := by
  obtain ⟨factor, rfl⟩ := hhigh
  exact (Nat.two_pow_add_eq_or_of_lt hlow factor).symm

/-- The place values of a shift. -/
theorem toNat_overlayShift (opcode : BitVec 6) (register : BitVec 2) (count : BitVec 4)
    (left arithmetic : Bool) :
    ((pack opcode register 0 0 0).overlayShift count left arithmetic).toNat =
      opcode.toNat * 1024 + register.toNat * 256 + count.toNat * 16 + left.toNat * 8 +
        arithmetic.toNat * 4 := by
  have hpack : (pack opcode register 0 0 0).toNat = opcode.toNat * 1024 + register.toNat * 256 := by
    simp [toNat_pack]
  have hcount : (count.setWidth 16 <<< 4).toNat = count.toNat * 16 := by
    have hlt := count.isLt
    simp only [BitVec.toNat_shiftLeft, BitVec.toNat_setWidth, Nat.shiftLeft_eq]
    omega
  have hleft : ((BitVec.ofBool left).setWidth 16 <<< 3).toNat = left.toNat * 8 := by
    cases left <;> rfl
  have hkind : ((BitVec.ofBool arithmetic).setWidth 16 <<< 2).toNat = arithmetic.toNat * 4 := by
    cases arithmetic <;> rfl
  have hregister := register.isLt
  have hfour := count.isLt
  have hleftLe := Bool.toNat_le left
  have hkindLe := Bool.toNat_le arithmetic
  -- Each field lies below the ones before it, so it is laid over by adding it.
  have hbelowRegister : opcode.toNat * 1024 + register.toNat * 256 ||| count.toNat * 16 =
      opcode.toNat * 1024 + register.toNat * 256 + count.toNat * 16 :=
    or_eq_add 8 (by omega) (by omega)
  have hbelowCount :
      opcode.toNat * 1024 + register.toNat * 256 + count.toNat * 16 ||| left.toNat * 8 =
        opcode.toNat * 1024 + register.toNat * 256 + count.toNat * 16 + left.toNat * 8 :=
    or_eq_add 4 (by omega) (by omega)
  simp only [overlayShift, BitVec.toNat_or, hpack, hcount, hleft, hkind, hbelowRegister,
    hbelowCount]
  exact or_eq_add 3 (by omega) (by omega)

end Word

/-- The widths of the fields below the opcode, the most significant field first. -/
def Format.widths : Format → List Nat
  | .memory => [2, 2, 1, 5]
  | .immediate => [2, 3, 5]
  | .register => [2, 2, 6]
  | .shift => [2, 4, 1, 1, 2]
  | .device => [2, 3, 5]
  | .bare => [10]

@[simp] theorem Format.sum_widths (format : Format) : format.widths.sum = 10 := by
  cases format <;> rfl

namespace Operands

def format : Operands → Format
  | .memory _ _ _ _ => .memory
  | .immediate _ _ => .immediate
  | .registers _ _ => .register
  | .shift _ _ _ _ => .shift
  | .device _ _ => .device
  | .bare => .bare

theorem Spelled.format_eq {strict : Bool} {instruction : Instruction} {text : Text}
    {operands : Operands} (hspelled : operands.Spelled strict instruction text) :
    operands.format = instruction.format := by
  cases hspelled <;> simp_all [format]

/-- The fields below the opcode, with zero in those that the format leaves unused.  The address field
has five bits, and holds the address modulo 32. -/
def fieldValues (address : Int) : Operands → List Nat
  | .memory register index indirect _ => [register, index, indirect.toNat, (address % 32).toNat]
  | .immediate register number => [register, 0, number]
  | .registers first second => [first, second, 0]
  | .shift register count left arithmetic => [register, count, left.toNat, arithmetic.toNat, 0]
  | .device register number => [register, 0, number]
  | .bare => [0]

/-- The operands have the same fields when their addresses are the given ones. -/
def Alike (first second : Int) : Operands → Operands → Prop
  | .memory register index indirect _, .memory register' index' indirect' _ =>
      register = register' ∧ index = index' ∧ indirect = indirect' ∧ first % 32 = second % 32
  | operands, others => operands = others

theorem alike_iff_of_format_eq {operands others : Operands} (hformat : operands.format = others.format)
    (first second : Int) :
    operands.Alike first second others ↔
      operands.fieldValues first = others.fieldValues second := by
  cases operands <;> cases others <;> simp only [format, reduceCtorEq] at hformat
  case memory.memory register index indirect _ register' index' indirect' _ =>
    have hmod : (first % 32).toNat = (second % 32).toNat ↔ first % 32 = second % 32 := by
      omega
    cases indirect <;> cases indirect' <;> simp [Alike, fieldValues, Fin.ext_iff, hmod]
  case shift.shift register count left arithmetic register' count' left' arithmetic' =>
    cases left <;> cases left' <;> cases arithmetic <;> cases arithmetic' <;>
      simp [Alike, fieldValues, Fin.ext_iff]
  all_goals simp [Alike, fieldValues, Fin.ext_iff]

theorem fits_fieldValues (address : Int) (operands : Operands) :
    Word.Fits operands.format.widths (operands.fieldValues address) := by
  cases operands with
  | memory register index indirect value =>
      have hindirect := Bool.toNat_le indirect
      simp only [Word.Fits, format, Format.widths, fieldValues, List.forall₂_cons,
        List.Forall₂.nil, and_true]
      omega
  | shift register count left arithmetic =>
      have hleft := Bool.toNat_le left
      have harithmetic := Bool.toNat_le arithmetic
      simp only [Word.Fits, format, Format.widths, fieldValues, List.forall₂_cons,
        List.Forall₂.nil, and_true]
      omega
  | immediate _ _ | registers _ _ | device _ _ | bare =>
      simp only [Word.Fits, format, Format.widths, fieldValues, List.forall₂_cons,
        List.Forall₂.nil, and_true]
      omega

/-- A word is its opcode with the fields joined below. -/
theorem toNat_word (opcode : BitVec 6) (address : Int) (operands : Operands) :
    (operands.word opcode address).toNat =
      opcode.toNat * 1024 + Word.join operands.format.widths (operands.fieldValues address) := by
  cases operands with
  | memory register index indirect value =>
      have hindirect : (BitVec.ofBool indirect).toNat = indirect.toNat := by cases indirect <;> rfl
      have hlow : (BitVec.ofInt 5 address).toNat = (address % 32).toNat := by
        simp [BitVec.toNat_ofInt]
      simp only [word, Word.toNat_pack, hindirect, hlow, BitVec.toNat_ofNat, format,
        Format.widths, fieldValues, Word.join, List.sum_cons, List.sum_nil]
      omega
  | shift register count left arithmetic =>
      simp only [word, Word.toNat_overlayShift, BitVec.toNat_ofNat, format, Format.widths,
        fieldValues, Word.join, List.sum_cons, List.sum_nil]
      omega
  | immediate _ _ | registers _ _ | device _ _ | bare =>
      simp only [word, Word.toNat_pack, BitVec.ofNat_eq_ofNat, BitVec.toNat_ofNat, format,
        Format.widths, fieldValues, Word.join, List.sum_cons, List.sum_nil]
      omega

/-- Below the opcode a word holds the fields of its operands. -/
theorem word_fields (opcode : BitVec 6) (address : Int) (operands : Operands) :
    (operands.word opcode address).toNat / 1024 = opcode.toNat ∧
      Word.cut operands.format.widths ((operands.word opcode address).toNat % 1024) =
        operands.fieldValues address := by
  have hfits := operands.fits_fieldValues address
  have hlt := Word.join_lt hfits
  rw [Format.sum_widths] at hlt
  have hword := operands.toNat_word opcode address
  have hdiv : (operands.word opcode address).toNat / 1024 = opcode.toNat := by omega
  have hmod : (operands.word opcode address).toNat % 1024 =
      Word.join operands.format.widths (operands.fieldValues address) := by omega
  rw [hmod, Word.cut_join hfits]
  exact ⟨hdiv, rfl⟩

/-- The low bits of a memory instruction hold its address modulo 32. -/
theorem toNat_word_memory_mod (opcode : BitVec 6) (address : Int) (register index : Fin 4)
    (indirect : Bool) (value : Value) :
    (((memory register index indirect value).word opcode address).toNat : Int) % 32 =
      address % 32 := by
  rw [toNat_word]
  simp only [format, Format.widths, fieldValues, Word.join, List.sum_cons, List.sum_nil]
  omega

/-- Words are the same exactly when their opcodes and fields are. -/
theorem word_eq_iff {operands others : Operands} (opcode code : BitVec 6) (first second : Int)
    (hformat : opcode = code → operands.format = others.format) :
    operands.word opcode first = others.word code second ↔
      opcode = code ∧ operands.Alike first second others := by
  constructor
  · intro hwords
    obtain ⟨hopcode, hfields⟩ := operands.word_fields opcode first
    obtain ⟨hcode, hothers⟩ := others.word_fields code second
    rw [hwords] at hopcode hfields
    have heq : opcode = code := BitVec.eq_of_toNat_eq (hopcode.symm.trans hcode)
    refine ⟨heq, (alike_iff_of_format_eq (hformat heq) first second).mpr ?_⟩
    rw [hformat heq, hothers] at hfields
    exact hfields.symm
  · rintro ⟨rfl, halike⟩
    have hfields := (alike_iff_of_format_eq (hformat rfl) first second).mp halike
    apply BitVec.eq_of_toNat_eq
    rw [toNat_word, toNat_word, hformat rfl, hfields]

end Operands

/-- No two instructions share an opcode. -/
theorem Instruction.opcode_injective {first second : Instruction}
    (hopcode : first.opcode = second.opcode) : first = second := by
  have hall : ∀ one ∈ all, ∀ other ∈ all, one.opcode = other.opcode → one = other := by decide
  exact hall first (mem_all first) second (mem_all second) hopcode

end TwoPass
