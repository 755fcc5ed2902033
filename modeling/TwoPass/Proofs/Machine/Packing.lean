import Mathlib.Algebra.Order.Ring.Int
import Mathlib.Data.Int.Bitwise
import TwoPass.Proofs.Machine.Layout
import TwoPass.Proofs.Machine.Octal

/-!
# Packing integers of any size

The common layout takes integers, negative and oversized ones too, and keeps of each what its field
holds.  Masks, shifts and disjunctions on unbounded integers give the same word: a field is laid over
bits that are still zero, so it is added and nothing is carried.  Division and remainder give every
field back, and a field depends on its own argument alone.
-/

namespace TwoPass

namespace Word

inductive Part where
  | opcode
  | register
  | index
  | indirect
  | low
  deriving DecidableEq, Repr

namespace Part

def width : Part → Nat
  | .opcode => 6
  | .register => 2
  | .index => 2
  | .indirect => 1
  | .low => 5

def shift : Part → Nat
  | .opcode => 10
  | .register => 8
  | .index => 6
  | .indirect => 5
  | .low => 0

/-- The field in a word, by division and remainder. -/
def fieldOf (part : Part) (word : Word) : Int :=
  word.toNat / 2 ^ part.shift % 2 ^ part.width

end Part

/-- The common layout with one integer for each field. -/
def packParts (values : Part → Int) : Word :=
  packInts (values .opcode) (values .register) (values .index) (values .indirect) (values .low)

/-- Lays a field over a number: a mask cuts the value to its width, and a shift moves it to its
place. -/
def layOver (number value : Int) (width shift : Nat) : Int :=
  Int.lor number (Int.land value (2 ^ width - 1) <<< shift)

/-- The common layout by bit operations, the most significant field first. -/
def packBits (opcode register index indirect low : Int) : Int :=
  layOver (layOver (layOver (layOver (layOver 0 opcode 6 10) register 2 8) index 2 6) indirect 1 5)
    low 5 0

/-- A shift count and the two shift flags, laid over a number by bit operations. -/
def overlayBits (number count : Int) (left arithmetic : Bool) : Int :=
  layOver (layOver (layOver number count 4 4) left.toNat 1 3) arithmetic.toNat 1 2

theorem emod_two_mul {modulus : Int} (hpos : 0 < modulus) (value : Int) :
    value % (2 * modulus) = value % 2 + 2 * (value / 2 % modulus) := by
  have hbit := Int.emod_two_eq value
  have hlt := Int.emod_lt_of_pos (value / 2) hpos
  have hnonneg := Int.emod_nonneg (value / 2) hpos.ne'
  have hhalf := Int.mul_ediv_add_emod (value / 2) modulus
  have hvalue := Int.mul_ediv_add_emod value 2
  refine ((Int.ediv_emod_unique (by omega : 0 < 2 * modulus)).mpr
    ⟨(?_ : _ + _ * (value / 2 / modulus) = value), ?_, ?_⟩).2
  · rw [Int.mul_assoc]
    omega
  · omega
  · omega

/-- A mask of low bits keeps the remainder, below zero as well. -/
theorem land_mask (value : Int) (width : Nat) :
    Int.land value (2 ^ width - 1) = value % 2 ^ width := by
  induction width generalizing value with
  | zero => cases value <;> simp [Int.land, Nat.ldiff]
  | succ width ih =>
      -- The lowest bit is kept, and the mask for the other bits is one bit shorter.
      have hmask : (2 ^ (width + 1) - 1 : Int) = Int.bit true (2 ^ width - 1) := by
        rw [Int.bit_val, cond_true]
        omega
      have hpos : (0 : Int) < 2 ^ width := Int.pow_pos (by decide)
      have hbit : value % 2 = cond value.bodd 1 0 := by
        have hsplit := Int.bodd_add_div2 value
        cases hodd : value.bodd <;> simp only [hodd, cond_true, cond_false] at hsplit ⊢ <;> omega
      calc Int.land value (2 ^ (width + 1) - 1)
          = Int.land (Int.bit value.bodd value.div2) (Int.bit true (2 ^ width - 1)) := by
            rw [Int.bit_decomp, hmask]
        _ = Int.bit value.bodd (value / 2 % 2 ^ width) := by
            rw [Int.land_bit, Bool.and_true, ih, Int.div2_val]
        _ = value % 2 + 2 * (value / 2 % 2 ^ width) := by
            rw [Int.bit_val, hbit, Int.add_comm]
        _ = value % 2 ^ (width + 1) := by
            rw [Int.pow_succ', emod_two_mul hpos]

/-- A field is added where the number has zero bits in its place and below. -/
theorem layOver_of_dvd {number : Int} {width shift : Nat} (hnonneg : 0 ≤ number)
    (hdvd : (2 ^ (shift + width) : Int) ∣ number) (value : Int) :
    layOver number value width shift = number + value % 2 ^ width * 2 ^ shift := by
  have hpos : (0 : Int) < 2 ^ width := Int.pow_pos (by decide)
  obtain ⟨high, rfl⟩ := Int.eq_ofNat_of_zero_le hnonneg
  obtain ⟨field, hfield⟩ := Int.eq_ofNat_of_zero_le (Int.emod_nonneg value hpos.ne')
  have hhigh : 2 ^ (shift + width) ∣ high := by exact_mod_cast hdvd
  have hlow : field * 2 ^ shift < 2 ^ (shift + width) := by
    have hlt : field < 2 ^ width := by
      have hmod := Int.emod_lt_of_pos value hpos
      rw [hfield] at hmod
      exact_mod_cast hmod
    rw [Nat.pow_add, Nat.mul_comm]
    exact Nat.mul_lt_mul_of_pos_left hlt (Nat.two_pow_pos shift)
  calc layOver high value width shift
      = Int.lor high (field * 2 ^ shift : Nat) := by
        rw [layOver, land_mask, hfield, Int.shiftLeft_eq, Int.natCast_mul, Int.natCast_pow]
        rfl
    _ = (high ||| field * 2 ^ shift : Nat) := rfl
    _ = high + value % 2 ^ width * 2 ^ shift := by
        rw [or_eq_add (shift + width) hhigh hlow, hfield, Int.natCast_add, Int.natCast_mul,
          Int.natCast_pow]
        rfl

theorem packBits_eq (opcode register index indirect low : Int) :
    packBits opcode register index indirect low =
      opcode % 64 * 1024 + register % 4 * 256 + index % 4 * 64 + indirect % 2 * 32 + low % 32 := by
  have hopcode : layOver 0 opcode 6 10 = opcode % 64 * 1024 := by
    rw [layOver_of_dvd (by omega) (by omega)]
    omega
  have hregister : layOver (opcode % 64 * 1024) register 2 8 =
      opcode % 64 * 1024 + register % 4 * 256 :=
    layOver_of_dvd (by omega) (by omega) register
  have hindex : layOver (opcode % 64 * 1024 + register % 4 * 256) index 2 6 =
      opcode % 64 * 1024 + register % 4 * 256 + index % 4 * 64 :=
    layOver_of_dvd (by omega) (by omega) index
  have hindirect : layOver (opcode % 64 * 1024 + register % 4 * 256 + index % 4 * 64) indirect 1 5 =
      opcode % 64 * 1024 + register % 4 * 256 + index % 4 * 64 + indirect % 2 * 32 :=
    layOver_of_dvd (by omega) (by omega) indirect
  rw [packBits, hopcode, hregister, hindex, hindirect, layOver_of_dvd (by omega) (by omega)]
  omega

/-- Below a register a shift count and two flags find zero bits. -/
theorem overlayBits_of_dvd {number : Int} (hnonneg : 0 ≤ number) (hdvd : (256 : Int) ∣ number)
    (count : Fin 16) (left arithmetic : Bool) :
    overlayBits number count left arithmetic =
      number + count * 16 + left.toNat * 8 + arithmetic.toNat * 4 := by
  have hleft := Bool.toNat_le left
  have harithmetic := Bool.toNat_le arithmetic
  have hcount : layOver number count 4 4 = number + count * 16 := by
    rw [layOver_of_dvd hnonneg (by omega)]
    omega
  have hdirection : layOver (number + count * 16) left.toNat 1 3 =
      number + count * 16 + left.toNat * 8 := by
    rw [layOver_of_dvd (by omega) (by omega)]
    omega
  rw [overlayBits, hcount, hdirection, layOver_of_dvd (by omega) (by omega)]
  omega

/-- Every argument is reduced to the width of its field. -/
theorem toNat_packInts (opcode register index indirect low : Int) :
    ((packInts opcode register index indirect low).toNat : Int) =
      opcode % 64 * 1024 + register % 4 * 256 + index % 4 * 64 + indirect % 2 * 32 + low % 32 := by
  simp only [packInts, toNat_pack, BitVec.toNat_ofInt]
  omega

theorem toNat_packInts_overlayShift (opcode register : Int) (count : Fin 16)
    (left arithmetic : Bool) :
    ((packInts opcode register 0 0 0).overlayShift (BitVec.ofNat 4 count) left arithmetic).toNat =
      (packInts opcode register 0 0 0).toNat + count * 16 + left.toNat * 8 +
        arithmetic.toNat * 4 := by
  have hcount : (BitVec.ofNat 4 count).toNat = count := Nat.mod_eq_of_lt count.isLt
  have hpack : packInts opcode register 0 0 0 =
      pack (BitVec.ofInt 6 opcode) (BitVec.ofInt 2 register) 0 0 0 := rfl
  rw [hpack, toNat_overlayShift, toNat_pack, hcount]
  simp

theorem fieldOf_packParts (values : Part → Int) (part : Part) :
    part.fieldOf (packParts values) = values part % 2 ^ part.width := by
  have hword := toNat_packInts (values .opcode) (values .register) (values .index)
    (values .indirect) (values .low)
  rw [Part.fieldOf, packParts, hword]
  cases part <;> simp only [Part.shift, Part.width] <;> omega

/-- Another value in one field leaves the other fields as they are. -/
theorem fieldOf_packParts_update (values : Part → Int) (part other : Part) (value : Int) :
    other.fieldOf (packParts (Function.update values part value)) =
      if other = part then value % 2 ^ part.width else other.fieldOf (packParts values) := by
  rw [fieldOf_packParts, fieldOf_packParts, Function.update_apply]
  split
  · rename_i hsame
    rw [hsame]
  · rfl

end Word

/-- Packing is exact for integers of any size and sign.  The word has sixteen bits, and is the sum of the
arguments at their places, each modulo the size of its field, whether it is concatenated from fields or
computed by masks, shifts and disjunctions.  Division and remainder give back every field, and a new
value for one field changes no other.  A shift count and shift flags that are laid over a word add their
place values.  The octal form of an integer has six digits, and they write the integer modulo 65536. -/
theorem Word.packInts_exact :
    (∀ opcode register index indirect low : Int,
      (packInts opcode register index indirect low).toNat ≤ 65535 ∧
      ((packInts opcode register index indirect low).toNat : Int) =
        opcode % 64 * 1024 + register % 4 * 256 + index % 4 * 64 + indirect % 2 * 32 + low % 32 ∧
      packBits opcode register index indirect low =
        (packInts opcode register index indirect low).toNat) ∧
    (∀ (values : Part → Int) (part : Part),
      part.fieldOf (packParts values) = values part % 2 ^ part.width) ∧
    (∀ (values : Part → Int) (part other : Part) (value : Int),
      other.fieldOf (packParts (Function.update values part value)) =
        if other = part then value % 2 ^ part.width else other.fieldOf (packParts values)) ∧
    (∀ (opcode register : Int) (count : Fin 16) (left arithmetic : Bool),
      ((packInts opcode register 0 0 0).overlayShift (BitVec.ofNat 4 count) left arithmetic).toNat =
        (packInts opcode register 0 0 0).toNat + count * 16 + left.toNat * 8 +
          arithmetic.toNat * 4 ∧
      overlayBits (packInts opcode register 0 0 0).toNat count left arithmetic =
        ((packInts opcode register 0 0 0).overlayShift (BitVec.ofNat 4 count) left
          arithmetic).toNat) ∧
    ∀ value : Int,
      (octalOfInt value).length = 6 ∧ (octalOfInt value).all isOctalDigit = true ∧
        (Nat.ofDigitChars 8 ((octalOfInt value).map CodePoint.toChar) 0 : Int) = value % 65536 := by
  refine ⟨?_, fieldOf_packParts, fieldOf_packParts_update, ?_, ?_⟩
  · intro opcode register index indirect low
    have hword := toNat_packInts opcode register index indirect low
    exact ⟨by omega, hword, (packBits_eq opcode register index indirect low).trans hword.symm⟩
  · intro opcode register count left arithmetic
    have hpack := toNat_packInts opcode register 0 0 0
    have hshift := toNat_packInts_overlayShift opcode register count left arithmetic
    refine ⟨hshift, ?_⟩
    rw [overlayBits_of_dvd (by omega) (by omega), hshift]
    omega
  · intro value
    refine ⟨length_octal _, ?_, ?_⟩
    · exact List.all_eq_true.mpr fun c hmem => isOctalDigit_of_mem_octal hmem
    · rw [octalOfInt, ofDigitChars_octal, toNat_ofInt]
      omega

end TwoPass
