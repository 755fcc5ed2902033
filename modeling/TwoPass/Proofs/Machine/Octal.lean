import TwoPass.Machine.Word
import TwoPass.Proofs.Text.Utf8

/-!
# Reading octal

Addresses and words are written with six octal digits each.  The reader for these digits is defined here
on its own, and gives back every word that was written, and every address modulo 65536.
-/

namespace TwoPass

namespace Word

def isOctalDigit (c : CodePoint) : Bool :=
  '0' ≤ c && c ≤ '7'

/-- The number that six octal digits write. -/
def readOctal? (text : Text) : Option Nat :=
  if text.length = 6 && text.all isOctalDigit then
    some (Nat.ofDigitChars 8 (text.map CodePoint.toChar) 0)
  else none

theorem isOctalDigit_digitChar {digit : Nat} (hdigit : digit < 8) :
    isOctalDigit (Nat.digitChar digit) = true := by
  have hall : ∀ n < 8, isOctalDigit (Nat.digitChar n) = true := by decide
  exact hall digit hdigit

/-- Everything in the octal form of a word is an octal digit. -/
theorem isOctalDigit_of_mem_octal {word : Word} {c : CodePoint} (hmem : c ∈ word.octal) :
    isOctalDigit c = true := by
  obtain ⟨place, -, rfl⟩ := List.mem_map.mp hmem
  exact isOctalDigit_digitChar (Nat.mod_lt _ (by decide))

theorem ofDigitChars_octal (word : Word) :
    Nat.ofDigitChars 8 (word.octal.map CodePoint.toChar) 0 = word.toNat := by
  have hlt := word.isLt
  have hdigit : ∀ place, word.toNat / place % 8 < 10 := by
    intro place
    have hmod := Nat.mod_lt (word.toNat / place) (y := 8) (by decide)
    omega
  simp only [octal, List.map_cons, List.map_nil, CodePoint.toChar,
    Nat.ofDigitChars_cons_digitChar_of_lt_ten (hdigit _), Nat.ofDigitChars_nil]
  omega

/-- The octal form of a word is read as the word. -/
@[simp] theorem readOctal?_octal (word : Word) : readOctal? word.octal = some word.toNat := by
  have hall : word.octal.all isOctalDigit = true :=
    List.all_eq_true.mpr fun c hmem => isOctalDigit_of_mem_octal hmem
  simp [readOctal?, hall, ofDigitChars_octal]

theorem space_not_mem_octal (word : Word) : .char ' ' ∉ word.octal := by
  intro hmem
  have hdigit := isOctalDigit_of_mem_octal hmem
  contradiction

theorem encodable_octal (word : Word) : Utf8.Encodable word.octal := by
  simp [Utf8.Encodable, octal]

theorem toNat_ofInt (value : Int) : (ofInt value).toNat = (value % 65536).toNat := by
  simp [ofInt, BitVec.toNat_ofInt]

end Word

namespace PlacedWord

/-- The address and the word on a line of the load file: two octal numbers with a space between them. -/
def read? (line : Text) : Option (Nat × Nat) :=
  match line.splitOn (.char ' ') with
  | [address, word] => do return (← Word.readOctal? address, ← Word.readOctal? word)
  | _ => none

@[simp] theorem length_text (placed : PlacedWord) : placed.text.length = 13 := by
  simp [text, octalOfInt]

/-- A line of the load file is read as the word it was made from, with the address modulo 65536. -/
theorem read?_text (placed : PlacedWord) :
    read? placed.text = some ((placed.address % 65536).toNat, placed.word.toNat) := by
  have hsplit : placed.text.splitOn (.char ' ') = [octalOfInt placed.address, placed.word.octal] := by
    rw [text, octalOfInt, List.splitOn_append_cons_self_of_not_mem (Word.space_not_mem_octal _),
      List.splitOn_eq_singleton (Word.space_not_mem_octal _)]
  simp [read?, hsplit, octalOfInt, Word.toNat_ofInt]

/-- A line of the load file starts with a digit. -/
theorem head?_text (placed : PlacedWord) : ∃ c rest, placed.text = c :: rest ∧ c ≠ ' ' := by
  cases hoctal : octalOfInt placed.address with
  | nil =>
      have hlength := Word.length_octal (Word.ofInt placed.address)
      rw [octalOfInt] at hoctal
      simp [hoctal] at hlength
  | cons c rest =>
      refine ⟨c, rest ++ .char ' ' :: placed.word.octal, by simp [text, hoctal], ?_⟩
      rintro rfl
      apply Word.space_not_mem_octal (Word.ofInt placed.address)
      rw [← octalOfInt, hoctal]
      exact List.mem_cons_self

end PlacedWord

end TwoPass
