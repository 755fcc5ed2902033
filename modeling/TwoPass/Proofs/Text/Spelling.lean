import TwoPass.Proofs.Text.LetterCase

/-!
# Spelling in capitals

A token is taken for a keyword if its capitals are the keyword.  For keywords in ASCII capitals this is
said here character by character, without the table of capitals: a character stands for itself in either
case, and ten letters outside ASCII stand for one, two or three ASCII capitals.  So a token that spells a
keyword is the keyword in letters of either case exactly if none of the ten occurs in it.
-/

namespace TwoPass.Text

/-- The letters outside ASCII whose capitals are ASCII, with these capitals. -/
def foldedCapitals : List (Nat × Text) :=
  [(0xDF, "SS".text), (0x131, "I".text), (0x17F, "S".text), (0xFB00, "FF".text),
   (0xFB01, "FI".text), (0xFB02, "FL".text), (0xFB03, "FFI".text), (0xFB04, "FFL".text),
   (0xFB05, "ST".text), (0xFB06, "ST".text)]

/-- The token spells the text: a character for itself, in either case, or a folded letter for its
capitals. -/
inductive Spells : Text → Text → Prop
  | nil : Spells [] []
  | letter {c d : CodePoint} {rest spelled : Text} (hletter : SameLetter c d)
      (hrest : Spells rest spelled) : Spells (c :: rest) (d :: spelled)
  | folded {c : CodePoint} {capitals rest spelled : Text} (hfolded : (c.toNat, capitals) ∈ foldedCapitals)
      (hrest : Spells rest spelled) : Spells (c :: rest) (capitals ++ spelled)

/-- Every character is ASCII, and no letter is small. -/
def IsCapital (text : Text) : Prop :=
  ∀ c ∈ text, c.toNat < 128 ∧ c.toUpper = c

theorem isCapital_of_all {text : Text}
    (hall : text.all (fun c => decide (c.toNat < 128) && c.toUpper == c) = true) :
    IsCapital text := by
  intro c hmem
  simpa using List.all_eq_true.mp hall c hmem

theorem upperChar_of_mem_foldedCapitals {c : CodePoint} {capitals : Text}
    (hfolded : (c.toNat, capitals) ∈ foldedCapitals) : upperChar c = capitals := by
  have hall : ∀ entry ∈ foldedCapitals, (entry.1 < 0xD800 ∨ 0xDFFF < entry.1) ∧
      upperChar (Char.ofNat entry.1) = entry.2 := by
    decide +kernel
  obtain ⟨hscalar, hupper⟩ := hall _ hfolded
  rwa [CodePoint.char_ofNat_toNat hscalar] at hupper

theorem mem_foldedCapitals_of_mem_foldedLetters {c : CodePoint} (hfolded : c.toNat ∈ foldedLetters) :
    (c.toNat, upperChar c) ∈ foldedCapitals := by
  have hall : ∀ code ∈ foldedLetters, (code < 0xD800 ∨ 0xDFFF < code) ∧
      (code, upperChar (Char.ofNat code)) ∈ foldedCapitals := by
    decide +kernel
  obtain ⟨hscalar, hmem⟩ := hall _ hfolded
  rwa [CodePoint.char_ofNat_toNat hscalar] at hmem

theorem mem_foldedLetters_of_mem_foldedCapitals {code : Nat} {capitals : Text}
    (hfolded : (code, capitals) ∈ foldedCapitals) : code ∈ foldedLetters := by
  have hall : ∀ entry ∈ foldedCapitals, entry.1 ∈ foldedLetters := by decide
  exact hall _ hfolded

theorem not_ascii_of_mem_foldedLetters {code : Nat} (hfolded : code ∈ foldedLetters) :
    ¬ code < 128 := by
  have hall : ∀ code ∈ foldedLetters, ¬ code < 128 := by decide
  exact hall code hfolded

theorem sameLetter_toUpper {c : CodePoint} (hascii : c.toNat < 128) : SameLetter c c.toUpper := by
  have hall : ∀ n < 128, SameLetter (.char (Char.ofNat n)) (CodePoint.char (Char.ofNat n)).toUpper := by
    decide
  have hsame := hall c.toNat hascii
  rwa [CodePoint.char_ofNat_toNat (by omega)] at hsame

/-- A token spells the capitals that it has, and nothing else. -/
theorem spells_iff {token target : Text} (hcapital : IsCapital target) :
    Spells token target ↔ upper token = target := by
  constructor
  · intro hspells
    induction hspells with
    | nil => rfl
    | @letter c d rest spelled hletter _ ih =>
        obtain ⟨hascii, hstable⟩ := hcapital d List.mem_cons_self
        have hfirst : upperChar c = [d] := by
          rw [← hletter.upperChar_eq, upperChar_of_ascii hascii, hstable]
        have hrest := ih fun e hmem => hcapital e (List.mem_cons_of_mem d hmem)
        rw [upper, List.flatMap_cons, hfirst, ← upper, hrest, List.singleton_append]
    | @folded c capitals rest spelled hfolded _ ih =>
        have hrest := ih fun e hmem => hcapital e (List.mem_append_right capitals hmem)
        rw [upper, List.flatMap_cons, upperChar_of_mem_foldedCapitals hfolded, ← upper, hrest]
  · intro hupper
    induction token generalizing target with
    | nil =>
        obtain rfl : [] = target := hupper
        exact .nil
    | cons c rest ih =>
        rw [upper, List.flatMap_cons, ← upper] at hupper
        subst hupper
        have hrest : Spells rest (upper rest) :=
          ih (fun e hmem => hcapital e (List.mem_append_right _ hmem)) rfl
        by_cases hascii : c.toNat < 128
        · rw [upperChar_of_ascii hascii, List.singleton_append]
          exact .letter (sameLetter_toUpper hascii) hrest
        · have hfolded := mem_foldedLetters_of_upperChar_ascii hascii
            fun e hmem => (hcapital e (List.mem_append_left _ hmem)).1
          exact .folded (mem_foldedCapitals_of_mem_foldedLetters hfolded) hrest

/-- Letters of either case are ASCII. -/
theorem Recased.ascii {token target : Text} (hcase : Recased token target)
    (hascii : ∀ d ∈ target, d.toNat < 128) : ∀ c ∈ token, c.toNat < 128 := by
  induction hcase with
  | nil => simp
  | @cons c d rest spelled hletter _ ih =>
      intro e hmem
      rcases List.mem_cons.mp hmem with rfl | hrest
      · rcases hletter with rfl | ⟨hsmall, -, -⟩
        · exact hascii d List.mem_cons_self
        · exact ascii_of_isLetter hsmall
      · exact ih (fun e hmem => hascii e (List.mem_cons_of_mem d hmem)) e hrest

theorem Recased.not_folded {token target : Text} (hcase : Recased token target)
    (hcapital : IsCapital target) : ∀ c ∈ token, c.toNat ∉ foldedLetters := by
  intro c hmem hfolded
  exact not_ascii_of_mem_foldedLetters hfolded
    (hcase.ascii (fun d hd => (hcapital d hd).1) c hmem)

/-- Only folded letters make a spelling more than a change of case. -/
theorem Spells.recased {token target : Text} (hspells : Spells token target)
    (hplain : ∀ c ∈ token, c.toNat ∉ foldedLetters) : Recased token target := by
  induction hspells with
  | nil => exact .nil
  | @letter c d rest spelled hletter _ ih =>
      exact .cons hletter (ih fun e hmem => hplain e (List.mem_cons_of_mem c hmem))
  | @folded c capitals rest spelled hfolded _ ih =>
      exact absurd (mem_foldedLetters_of_mem_foldedCapitals hfolded) (hplain c List.mem_cons_self)

end TwoPass.Text
