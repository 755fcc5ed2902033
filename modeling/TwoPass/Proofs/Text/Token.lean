import Mathlib.Data.List.DropRight
import TwoPass.Operand.Basic

/-!
# Tokens

A token is a text without white space around it.  On a token the final newline that the readers
tolerate cannot occur, so that a numeral is a sign and digits and a name is a name, and nothing else.
-/

namespace TwoPass

namespace Text

theorem trim_eq_rdropWhile (text : Text) :
    trim text = (text.dropWhile isBlank).rdropWhile isBlank := rfl

/-- Exactly the texts of white space alone are trimmed away. -/
theorem trim_eq_nil_iff (text : Text) :
    trim text = [] ↔ ∀ c ∈ text, isBlank c = true := by
  rw [trim_eq_rdropWhile, List.rdropWhile_eq_nil_iff]
  constructor
  · intro hrest
    have hnil : text.dropWhile isBlank = [] := by
      cases hdrop : text.dropWhile isBlank with
      | nil => rfl
      | cons c rest =>
          have hblank := hrest c (by rw [hdrop]; exact List.mem_cons_self)
          have hne : text.dropWhile isBlank ≠ [] := by
            rw [hdrop]
            exact List.cons_ne_nil c rest
          have hhead := List.head_dropWhile_not isBlank hne
          simp only [hdrop, List.head_cons, hblank] at hhead
          contradiction
    exact List.dropWhile_eq_nil_iff.mp hnil
  · intro hall c hc
    exact hall c ((List.dropWhile_suffix isBlank).subset hc)

theorem trim_subset (text : Text) : trim text ⊆ text := by
  intro c hmem
  rw [trim_eq_rdropWhile] at hmem
  exact (List.dropWhile_suffix isBlank).subset ((List.rdropWhile_prefix isBlank _).subset hmem)

/-- What trimming leaves starts with no white space. -/
theorem isBlank_of_trim_eq_cons {text rest : Text} {c : CodePoint}
    (htrim : trim text = c :: rest) : isBlank c = false := by
  have hprefix : c :: rest <+: text.dropWhile isBlank := by
    rw [← htrim, trim_eq_rdropWhile]
    exact List.rdropWhile_prefix isBlank _
  obtain ⟨more, hmore⟩ := hprefix
  have hne : text.dropWhile isBlank ≠ [] := by
    rw [← hmore]
    exact List.cons_ne_nil c (rest ++ more)
  have hhead := List.head_dropWhile_not isBlank hne
  simp only [← hmore, List.cons_append, List.head_cons] at hhead
  simpa using hhead

@[simp] theorem trim_trim (text : Text) : trim (trim text) = trim text := by
  have hdrop : (trim text).dropWhile isBlank = trim text := by
    cases htrim : trim text with
    | nil => rfl
    | cons c rest =>
        have hblank := isBlank_of_trim_eq_cons htrim
        simp [hblank]
  rw [trim_eq_rdropWhile (trim text), hdrop]
  exact List.rdropWhile_idempotent isBlank _

@[simp] theorem trim_nil : trim [] = [] := rfl

/-- No white space ends a token. -/
theorem isBlank_getLast {token : Text} (htoken : trim token = token) {c : CodePoint}
    (hlast : token.getLast? = some c) : isBlank c = false := by
  have hne : (token.dropWhile isBlank).rdropWhile isBlank ≠ [] := by
    rw [← trim_eq_rdropWhile, htoken]
    rintro rfl
    simp at hlast
  have hnot := List.rdropWhile_last_not isBlank (token.dropWhile isBlank) hne
  rw [List.getLast?_eq_some_getLast (by rwa [← trim_eq_rdropWhile, htoken] at hne)] at hlast
  have hchar := Option.some.inj hlast
  simp only [← trim_eq_rdropWhile, htoken] at hnot
  rw [← hchar]
  simpa using hnot

theorem dropFinalNewline_of_token {token : Text} (htoken : trim token = token) :
    dropFinalNewline token = token := by
  unfold dropFinalNewline
  split
  · rename_i hlast
    have hblank := isBlank_getLast htoken hlast
    contradiction
  · rfl

theorem isDecimalToken_of_token {token : Text} (htoken : trim token = token) :
    isDecimalToken token = isDigits (dropSign token) := by
  rw [isDecimalToken, dropFinalNewline_of_token htoken]

theorem isUnsignedToken_of_token {token : Text} (htoken : trim token = token) :
    isUnsignedToken token = isDigits token := by
  rw [isUnsignedToken, dropFinalNewline_of_token htoken]

theorem isNameToken_of_token {token : Text} (htoken : trim token = token) :
    isNameToken token = isName token := by
  rw [isNameToken, dropFinalNewline_of_token htoken]

/-- If the token is a numeral, it is short enough to be converted. -/
def Convertible (token : Text) : Prop :=
  isDigits (dropSign token) = true → (dropSign token).length ≤ maxDigits

instance (token : Text) : Decidable (Convertible token) :=
  inferInstanceAs (Decidable (_ → _))

/-- Digits alone carry no sign. -/
theorem dropSign_of_isDigits {token : Text} (hdigits : isDigits token = true) :
    dropSign token = token := by
  unfold dropSign
  split
  · simp [isDigits, isDigit] at hdigits
  · simp [isDigits, isDigit] at hdigits
  · rfl

theorem signedValue_of_isDigits {token : Text} (hdigits : isDigits token = true) :
    signedValue token = digitsValue token := by
  unfold signedValue
  split
  · simp [isDigits, isDigit] at hdigits
  · rw [dropSign_of_isDigits hdigits]

theorem readDecimal_of_token {token : Text} (htoken : trim token = token) :
    readDecimal token =
      if (dropSign token).length ≤ maxDigits then .ok (signedValue token)
      else .error ⟨(dropSign token).length⟩ := by
  simp only [readDecimal, dropFinalNewline_of_token htoken]

end Text

namespace Value

/-- The value that a token writes: a numeral its number, a name the label. -/
def ofToken? (token : Text) : Option Value :=
  if Text.isDigits (Text.dropSign token) then some (.literal (Text.signedValue token))
  else if Text.isName token then some (.label token)
  else none

theorem read?_of_convertible {token : Text} (htoken : Text.trim token = token)
    (hconvertible : Text.Convertible token) : read? token = .ok (ofToken? token) := by
  simp only [read?, ofToken?, htoken, Text.isDecimalToken_of_token htoken,
    Text.isNameToken_of_token htoken, Text.readDecimal_of_token htoken]
  by_cases hdigits : Text.isDigits (Text.dropSign token) = true
  · simp [hdigits, hconvertible hdigits, Except.map]
  · by_cases hname : Text.isName token = true <;> simp [hdigits, hname]

/-- A value that was read is the one its token writes, and its numeral was not too long. -/
theorem ofToken?_of_read? {token : Text} {value : Option Value} (htoken : Text.trim token = token)
    (hread : read? token = .ok value) : ofToken? token = value ∧ Text.Convertible token := by
  have hconvertible : Text.Convertible token := by
    intro hdigits
    by_contra hlong
    simp [read?, htoken, Text.isDecimalToken_of_token htoken, Text.readDecimal_of_token htoken,
      hdigits, hlong, Except.map] at hread
  rw [read?_of_convertible htoken hconvertible] at hread
  exact ⟨Except.ok.inj hread, hconvertible⟩

/-- Reading fails only on a numeral that is too long. -/
theorem not_convertible_of_read? {token : Text} {fault : Text.NumeralTooLong}
    (htoken : Text.trim token = token) (hread : read? token = .error fault) :
    ¬ Text.Convertible token := by
  intro hconvertible
  rw [read?_of_convertible htoken hconvertible] at hread
  contradiction

end Value

end TwoPass
