import Mathlib.Algebra.Ring.Nat
import TwoPass.Proofs.Source.Wording

/-!
# Values and their texts

A value is written as a numeral or as a name, and no text is both.  The text of a value is read as the
value, with any white space around it, as long as its numeral can be converted.  Every value that was
read has such a text, so that what is printed of it is read as the same value: signs, leading zeros and
white space are lost, and nothing else.
-/

namespace TwoPass

namespace Text

/-- Digits write a number that they have enough places for. -/
theorem digitsValue_lt {digits : Text} (hdigits : ∀ c ∈ digits, isDigit c = true) :
    digitsValue digits < 10 ^ digits.length := by
  have hfrom : ∀ start, Nat.ofDigitChars 10 (digits.map CodePoint.toChar) start <
      (start + 1) * 10 ^ digits.length := by
    induction digits with
    | nil => simp
    | cons c rest ih =>
        intro start
        obtain ⟨digit, rfl⟩ := exists_char_of_isDigit (hdigits c List.mem_cons_self)
        have hcode := toNat_of_isDigit (hdigits (.char digit) List.mem_cons_self)
        rw [CodePoint.toNat_char] at hcode
        have hzero : '0'.toNat = 48 := rfl
        have hrest := ih (fun d hd => hdigits d (List.mem_cons_of_mem _ hd))
        calc Nat.ofDigitChars 10 (digit :: rest.map CodePoint.toChar) start
            = Nat.ofDigitChars 10 (rest.map CodePoint.toChar)
                (10 * start + (digit.toNat - '0'.toNat)) := Nat.ofDigitChars_cons
          _ < (10 * start + (digit.toNat - '0'.toNat) + 1) * 10 ^ rest.length := hrest _
          _ ≤ (start + 1) * 10 * 10 ^ rest.length := Nat.mul_le_mul_right _ (by omega)
          _ = (start + 1) * 10 ^ (CodePoint.char digit :: rest).length := by
              rw [List.length_cons, Nat.pow_succ', Nat.mul_assoc]
  simpa [digitsValue] using hfrom 0

theorem natAbs_signedValue (token : Text) :
    (signedValue token).natAbs = digitsValue (dropSign token) := by
  unfold signedValue
  split
  · rw [Int.natAbs_neg, Int.natAbs_natCast]
    rfl
  · rw [Int.natAbs_natCast]

theorem dropSign_ofInt (number : Int) : dropSign (ofInt number) = ofNat number.natAbs := by
  cases number with
  | ofNat n => exact dropSign_of_isDigits (isDigits_ofNat n)
  | negSucc n => rfl

theorem signedValue_ofInt (number : Int) : signedValue (ofInt number) = number := by
  cases number with
  | ofNat n => exact signedValue_ofNat n
  | negSucc n =>
      rw [ofInt, signedValue, digitsValue_ofNat]
      rfl

theorem trim_ofInt (number : Int) : trim (ofInt number) = ofInt number := by
  apply trim_of_isPlain
  cases number with
  | ofNat n => exact isPlain_of_mem_ofNat (n := n)
  | negSucc n =>
      intro c hmem
      rcases List.mem_cons.mp hmem with rfl | hdigit
      · decide
      · exact isPlain_of_mem_ofNat (n := n + 1) c hdigit

theorem writable_iff (number : Int) : Writable number ↔ number.natAbs < 10 ^ maxDigits := by
  have hpow : ∀ limit, Nat.pow 10 limit = 10 ^ limit := fun _ => rfl
  rw [Writable, hpow]

/-- The numeral of a number can be converted if the number has few enough digits. -/
theorem convertible_ofInt_iff (number : Int) :
    Convertible (ofInt number) ↔ number.natAbs < 10 ^ maxDigits := by
  have hlength : (ofNat number.natAbs).length = (Nat.toDigits 10 number.natAbs).length :=
    List.length_map _
  rw [Convertible, dropSign_ofInt, ← Nat.length_toDigits_le_iff (by decide) (by decide), ← hlength]
  exact ⟨fun hshort => hshort (isDigits_ofNat _), fun hshort _ => hshort⟩

/-- No text is both a numeral and a name, with or without a final newline. -/
theorem not_isDecimalToken_of_isNameToken {text : Text} (hname : isNameToken text = true) :
    isDecimalToken text = false :=
  not_isDigits_of_isName hname

end Text

namespace Value

/-- The value has a text that is read: its numeral can be converted, or its label is a name. -/
def Printable : Value → Prop
  | .literal number => number.natAbs < 10 ^ Text.maxDigits
  | .label name => Text.isName name = true

theorem read?_of_trim_eq {text token : Text} (htrim : Text.trim text = token) :
    read? text = read? token := by
  rw [read?, read?, ← htrim, Text.trim_trim]

theorem trim_text {value : Value} (hprintable : value.Printable) :
    Text.trim value.text = value.text := by
  cases value with
  | literal number => exact Text.trim_ofInt number
  | label name => exact Text.trim_of_isPlain (Text.isPlain_of_isName hprintable)

theorem convertible_text {value : Value} (hprintable : value.Printable) :
    Text.Convertible value.text := by
  cases value with
  | literal number => exact (Text.convertible_ofInt_iff number).mpr hprintable
  | label name =>
      intro hdigits
      rw [text, Text.not_isDigits_of_isName hprintable] at hdigits
      cases hdigits

theorem ofToken?_text {value : Value} (hprintable : value.Printable) :
    ofToken? value.text = some value := by
  cases value with
  | literal number =>
      rw [text, ofToken?, Text.dropSign_ofInt, if_pos (Text.isDigits_ofNat _),
        Text.signedValue_ofInt]
  | label name =>
      have hname : Text.isName name = true := hprintable
      rw [text, ofToken?, Text.not_isDigits_of_isName hname, hname]
      rfl

/-- The text of a value is read as the value, with any white space around it. -/
theorem read?_padded (value : Value) (hprintable : value.Printable) {lead trail : Text}
    (hlead : ∀ c ∈ lead, Text.isBlank c = true) (htrail : ∀ c ∈ trail, Text.isBlank c = true) :
    read? (lead ++ (value.text ++ trail)) = .ok (some value) := by
  have htrim : Text.trim (lead ++ (value.text ++ trail)) = value.text := by
    rw [Text.trim_append_of_blank_left hlead, Text.trim_append_of_blank htrail,
      trim_text hprintable]
  rw [read?_of_trim_eq htrim,
    read?_of_convertible (trim_text hprintable) (convertible_text hprintable),
    ofToken?_text hprintable]

theorem printable_of_ofToken? {token : Text} {value : Value} (htoken : ofToken? token = some value)
    (hconvertible : Text.Convertible token) : value.Printable := by
  unfold ofToken? at htoken
  split at htoken
  · rename_i hdigits
    obtain rfl := Option.some.inj htoken
    have hlength := hconvertible hdigits
    simp only [Text.isDigits, Bool.and_eq_true, List.all_eq_true] at hdigits
    rw [Printable, Text.natAbs_signedValue]
    exact (Text.digitsValue_lt hdigits.2).trans_le (Nat.pow_le_pow_right (by decide) hlength)
  · split at htoken
    · rename_i hname
      obtain rfl := Option.some.inj htoken
      exact hname
    · cases htoken

/-- A value that was read can be printed. -/
theorem printable_of_read? {text : Text} {value : Value} (hread : read? text = .ok (some value)) :
    value.Printable := by
  rw [read?_of_trim_eq rfl] at hread
  obtain ⟨htoken, hconvertible⟩ := ofToken?_of_read? (Text.trim_trim text) hread
  exact printable_of_ofToken? htoken hconvertible

/-- Values are read from their texts, and only from one kind of text.  No text is a numeral and a name.
Any white space around, the numeral of an integer is read as the integer if it has at most as many
digits as can be converted, and only then; a name is read as the label.  And whatever text a value was
read from, the text that is printed of it is read as the same value. -/
theorem read_of_printed :
    (∀ text : Text, ¬ (Text.isDecimalToken text = true ∧ Text.isNameToken text = true)) ∧
    (∀ (number : Int) (lead trail : Text), (∀ c ∈ lead, Text.isBlank c = true) →
      (∀ c ∈ trail, Text.isBlank c = true) →
        (read? (lead ++ (Text.ofInt number ++ trail)) = .ok (some (.literal number)) ↔
          number.natAbs < 10 ^ Text.maxDigits)) ∧
    (∀ name lead trail : Text, Text.isName name = true → (∀ c ∈ lead, Text.isBlank c = true) →
      (∀ c ∈ trail, Text.isBlank c = true) →
        read? (lead ++ (name ++ trail)) = .ok (some (.label name))) ∧
    ∀ (text : Text) (value : Value), read? text = .ok (some value) →
      read? value.text = .ok (some value) := by
  refine ⟨?_, ?_, ?_, ?_⟩
  · rintro text ⟨hdecimal, hname⟩
    rw [Text.not_isDecimalToken_of_isNameToken hname] at hdecimal
    cases hdecimal
  · intro number lead trail hlead htrail
    exact ⟨printable_of_read?, fun hprintable =>
      read?_padded (.literal number) hprintable hlead htrail⟩
  · intro name lead trail hname hlead htrail
    exact read?_padded (.label name) hname hlead htrail
  · intro text value hread
    have hpadded := read?_padded value (printable_of_read? hread) (List.forall_mem_nil _)
      (List.forall_mem_nil _)
    rwa [List.nil_append, List.append_nil] at hpadded

/-- A negative zero and a numeral with a sign and leading zeros, with white space around them, are read
as the values that `0` and `7` print; a number and a name are read between white space of any kind. -/
theorem read_of_printed_numerals :
    read? "\u3000-0\n".text = .ok (some (.literal 0)) ∧
      read? (literal 0).text = .ok (some (.literal 0)) ∧
      read? " +007\x1f".text = .ok (some (.literal 7)) ∧
      read? (literal 7).text = .ok (some (.literal 7)) ∧
      read? ("\u00a0".text ++ (Text.ofInt (-65536) ++ "\t".text)) =
        .ok (some (.literal (-65536))) ∧
      read? ("\x0b".text ++ ("_x1".text ++ "\u2028".text)) = .ok (some (.label "_x1".text)) := by
  have hzero : read? "\u3000-0\n".text = .ok (some (.literal 0)) := by decide
  have hseven : read? " +007\x1f".text = .ok (some (.literal 7)) := by decide
  refine ⟨hzero, read_of_printed.2.2.2 _ _ hzero, hseven, read_of_printed.2.2.2 _ _ hseven,
    ?_, ?_⟩
  · exact (read_of_printed.2.1 _ _ _ (by decide) (by decide)).mpr (by decide +kernel)
  · exact read_of_printed.2.2.1 _ _ _ (by decide) (by decide) (by decide)

end Value

end TwoPass
