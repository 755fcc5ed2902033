import TwoPass.Text.Numeral

/-!
# Machine words

A word has sixteen bits.  The common layout puts a six-bit opcode on top, then a register, an index
register, the indirect bit and five low bits; fields are joined by concatenation, so none can reach
into its neighbour.  Words and addresses are shown in octal, always with six digits.
-/

namespace TwoPass

abbrev Word := BitVec 16

namespace Word

/-- The largest address and the largest word. -/
def largest : Int := 65535

/-- An integer reduced to a word, as in two's complement. -/
def ofInt (value : Int) : Word :=
  BitVec.ofInt 16 value

/-- The common layout: opcode, register, index register, indirect bit, low bits. -/
def pack (opcode : BitVec 6) (register index : BitVec 2) (indirect : BitVec 1) (low : BitVec 5) :
    Word :=
  opcode ++ register ++ index ++ indirect ++ low

/-- Each field has a place value of its own. -/
theorem toNat_pack (opcode : BitVec 6) (register index : BitVec 2) (indirect : BitVec 1)
    (low : BitVec 5) :
    (pack opcode register index indirect low).toNat =
      opcode.toNat * 1024 + register.toNat * 256 + index.toNat * 64 + indirect.toNat * 32
        + low.toNat := by
  have hregister := register.isLt
  have hindex := index.isLt
  have hindirect := indirect.isLt
  have hlow := low.isLt
  simp only [pack, BitVec.toNat_append]
  rw [← Nat.shiftLeft_add_eq_or_of_lt hlow, ← Nat.shiftLeft_add_eq_or_of_lt hindirect,
    ← Nat.shiftLeft_add_eq_or_of_lt hindex, ← Nat.shiftLeft_add_eq_or_of_lt hregister]
  simp only [Nat.shiftLeft_eq]
  omega

/-- The common layout with every field reduced to its width. -/
def packInts (opcode register index indirect low : Int) : Word :=
  pack (BitVec.ofInt 6 opcode) (BitVec.ofInt 2 register) (BitVec.ofInt 2 index)
    (BitVec.ofInt 1 indirect) (BitVec.ofInt 5 low)

/-- Lays a shift count and the two shift flags over a word. -/
def overlayShift (word : Word) (count : BitVec 4) (left arithmetic : Bool) : Word :=
  word ||| (count.setWidth 16 <<< 4) ||| ((BitVec.ofBool left).setWidth 16 <<< 3)
    ||| ((BitVec.ofBool arithmetic).setWidth 16 <<< 2)

/-- Six octal digits, by their place values. -/
def octal (word : Word) : Text :=
  [32768, 4096, 512, 64, 8, 1].map (fun place => .char (Nat.digitChar (word.toNat / place % 8)))

@[simp] theorem length_octal (word : Word) : word.octal.length = 6 := by
  simp [octal]

end Word

def octalOfInt (value : Int) : Text :=
  (Word.ofInt value).octal

/-- A word with the address it belongs to and the line it came from.  The address is kept in full; it
is reduced to sixteen bits only where it is written. -/
structure PlacedWord where
  address : Int
  word : Word
  line : Int
  deriving DecidableEq, Repr

/-- Address and word in octal, as in the load file. -/
def PlacedWord.text (placed : PlacedWord) : Text :=
  octalOfInt placed.address ++ .char ' ' :: placed.word.octal

end TwoPass
