import Mathlib.Data.List.Forall2
import TwoPass.Proofs.Source.Line
import TwoPass.Proofs.Text.Capital

/-!
# Letters in either case

Two texts that differ only in the case of ASCII letters have the same capitals.  They are also cut in the
same places: whatever separates the parts of a line is no letter, and a name may have letters of either
case.
-/

namespace TwoPass

namespace Text

/-- The same character, or the same ASCII letter in the other case. -/
def SameLetter (c d : CodePoint) : Prop :=
  d = c ∨ (isLetter c = true ∧ isLetter d = true ∧ d.toUpper = c.toUpper)

instance (c d : CodePoint) : Decidable (SameLetter c d) :=
  inferInstanceAs (Decidable (_ ∨ _))

/-- The second text is the first with letters of another case. -/
def Recased (text other : Text) : Prop :=
  List.Forall₂ SameLetter text other

instance (text other : Text) : Decidable (Recased text other) :=
  inferInstanceAs (Decidable (List.Forall₂ SameLetter text other))

theorem SameLetter.symm {c d : CodePoint} (hsame : SameLetter c d) : SameLetter d c := by
  rcases hsame with rfl | ⟨hc, hd, hupper⟩
  · exact Or.inl rfl
  · exact Or.inr ⟨hd, hc, hupper.symm⟩

/-- What all letters have in common does not depend on their case. -/
theorem SameLetter.apply_eq {p : CodePoint → Bool} {value : Bool}
    (hletter : ∀ c, isLetter c = true → p c = value) {c d : CodePoint} (hsame : SameLetter c d) :
    p d = p c := by
  rcases hsame with rfl | ⟨hc, hd, -⟩
  · rfl
  · rw [hletter c hc, hletter d hd]

theorem isNameStart_of_isLetter {c : CodePoint} (hletter : isLetter c = true) : isNameStart c = true := by
  simp [isNameStart, hletter]

theorem isNameChar_of_isLetter {c : CodePoint} (hletter : isLetter c = true) : isNameChar c = true := by
  simp [isNameChar, isNameStart, hletter]

theorem isBlank_of_isLetter {c : CodePoint} (hletter : isLetter c = true) : isBlank c = false :=
  Line.isBlank_of_isNameStart (isNameStart_of_isLetter hletter)

theorem isAsciiBlank_of_isLetter {c : CodePoint} (hletter : isLetter c = true) : isAsciiBlank c = false := by
  by_contra hascii
  have hblank := Line.isBlank_of_isAsciiBlank (Bool.not_eq_false _ ▸ hascii)
  rw [isBlank_of_isLetter hletter] at hblank
  contradiction

theorem ne_of_isLetter {c mark : CodePoint} (hletter : isLetter c = true) (hmark : isLetter mark = false) :
    c ≠ mark := by
  rintro rfl
  rw [hletter] at hmark
  contradiction

theorem SameLetter.isBlank_eq {c d : CodePoint} (hsame : SameLetter c d) : isBlank d = isBlank c :=
  hsame.apply_eq fun _ => isBlank_of_isLetter

theorem SameLetter.isAsciiBlank_eq {c d : CodePoint} (hsame : SameLetter c d) :
    isAsciiBlank d = isAsciiBlank c :=
  hsame.apply_eq fun _ => isAsciiBlank_of_isLetter

theorem SameLetter.isNameStart_eq {c d : CodePoint} (hsame : SameLetter c d) :
    isNameStart d = isNameStart c :=
  hsame.apply_eq fun _ => isNameStart_of_isLetter

theorem SameLetter.isNameChar_eq {c d : CodePoint} (hsame : SameLetter c d) :
    isNameChar d = isNameChar c :=
  hsame.apply_eq fun _ => isNameChar_of_isLetter

/-- A mark that is no letter stays where it is. -/
theorem SameLetter.eq_mark_iff {c d mark : CodePoint} (hsame : SameLetter c d)
    (hmark : isLetter mark = false) : d = mark ↔ c = mark := by
  rcases hsame with rfl | ⟨hc, hd, -⟩
  · rfl
  · simp [ne_of_isLetter hc hmark, ne_of_isLetter hd hmark]

theorem ascii_of_isLetter {c : CodePoint} (hletter : isLetter c = true) : c.toNat < 128 := by
  have hcode := Line.toNat_of_isNameStart (isNameStart_of_isLetter hletter)
  omega

theorem SameLetter.upperChar_eq {c d : CodePoint} (hsame : SameLetter c d) : upperChar d = upperChar c := by
  rcases hsame with rfl | ⟨hc, hd, hupper⟩
  · rfl
  · rw [upperChar_of_ascii (ascii_of_isLetter hc), upperChar_of_ascii (ascii_of_isLetter hd), hupper]

namespace Recased

variable {text other : Text}

theorem symm (hcase : Recased text other) : Recased other text := by
  apply List.Forall₂.flip
  exact hcase.imp fun _ _ => SameLetter.symm

theorem eq_nil_iff (hcase : Recased text other) : other = [] ↔ text = [] := by
  rw [← List.length_eq_zero_iff, ← List.length_eq_zero_iff, hcase.length_eq]

theorem upper_eq (hcase : Recased text other) : upper other = upper text := by
  induction hcase with
  | nil => rfl
  | cons hletter _ ih =>
      simp only [upper, List.flatMap_cons] at ih ⊢
      rw [hletter.upperChar_eq, ih]

section

variable {p : CodePoint → Bool} (hp : ∀ {c d}, SameLetter c d → p d = p c)

include hp

theorem takeWhile (hcase : Recased text other) : Recased (text.takeWhile p) (other.takeWhile p) := by
  induction hcase with
  | nil => exact .nil
  | @cons c d rest more hletter _ ih =>
      rw [List.takeWhile_cons, List.takeWhile_cons, hp hletter]
      cases p c with
      | false => exact .nil
      | true => exact .cons hletter ih

theorem dropWhile (hcase : Recased text other) : Recased (text.dropWhile p) (other.dropWhile p) := by
  induction hcase with
  | nil => exact .nil
  | @cons c d rest more hletter hrest ih =>
      rw [List.dropWhile_cons, List.dropWhile_cons, hp hletter]
      cases p c with
      | false => exact .cons hletter hrest
      | true => exact ih

end

theorem reverse (hcase : Recased text other) : Recased text.reverse other.reverse :=
  List.forall₂_reverse_iff.mpr hcase

theorem trim (hcase : Recased text other) : Recased (Text.trim text) (Text.trim other) :=
  ((hcase.dropWhile SameLetter.isBlank_eq).reverse.dropWhile SameLetter.isBlank_eq).reverse

theorem firstWord (hcase : Recased text other) : Recased (Text.firstWord text) (Text.firstWord other) :=
  hcase.takeWhile fun hletter => by rw [hletter.isBlank_eq]

theorem afterFirstWord (hcase : Recased text other) :
    Recased (Text.afterFirstWord text) (Text.afterFirstWord other) :=
  (hcase.dropWhile fun hletter => by rw [hletter.isBlank_eq]).trim

theorem isName_eq (hcase : Recased text other) : isName other = isName text := by
  cases hcase with
  | nil => rfl
  | cons hletter hrest =>
      have hall : ∀ {rest more : Text}, Recased rest more →
          more.all isNameChar = rest.all isNameChar := by
        intro rest more hcase
        induction hcase with
        | nil => rfl
        | cons hletter _ ih => rw [List.all_cons, List.all_cons, hletter.isNameChar_eq, ih]
      simp only [isName, hletter.isNameStart_eq, hall hrest]

/-- Commas divide both texts into pieces that correspond. -/
theorem splitOn (hcase : Recased text other) :
    List.Forall₂ Recased (text.splitOn (.char ',')) (other.splitOn (.char ',')) := by
  induction hcase with
  | nil =>
      rw [List.splitOn_nil]
      exact .cons .nil .nil
  | @cons c d rest more hletter _ ih =>
      have hcomma : (d == .char ',') = (c == .char ',') := by
        rw [Bool.eq_iff_iff, beq_iff_eq, beq_iff_eq, hletter.eq_mark_iff (by decide)]
      rw [List.splitOn_cons_eq_if_modifyHead, List.splitOn_cons_eq_if_modifyHead, hcomma]
      generalize rest.splitOn (.char ',') = pieces at ih ⊢
      generalize more.splitOn (.char ',') = others at ih ⊢
      split
      · exact .cons .nil ih
      · cases ih with
        | nil => exact .nil
        | cons hfirst hlater => exact .cons (.cons hletter hfirst) hlater

/-- A label is split off both texts, or off neither. -/
theorem splitLabel (hcase : Recased text other) :
    Recased (Record.splitLabel text).2 (Record.splitLabel other).2 := by
  have hbody := hcase.dropWhile SameLetter.isAsciiBlank_eq
  have hname := (hbody.takeWhile SameLetter.isNameChar_eq).isName_eq
  have htail := hbody.dropWhile SameLetter.isNameChar_eq
  simp only [Record.splitLabel, hname]
  generalize (text.dropWhile isAsciiBlank).dropWhile isNameChar = tail at htail ⊢
  generalize (other.dropWhile isAsciiBlank).dropWhile isNameChar = otherTail at htail ⊢
  split
  · cases htail with
    | nil => exact hcase
    | @cons c d rest more hletter hrest =>
        have hcolon : d = ':' ↔ c = ':' := hletter.eq_mark_iff (by decide)
        by_cases hc : c = ':'
        · obtain rfl := hc
          obtain rfl := hcolon.mpr rfl
          exact hrest
        · have hd : d ≠ ':' := fun hd => hc (hcolon.mp hd)
          simpa [hc, hd] using hcase
  · exact hcase

end Recased

end Text

end TwoPass
