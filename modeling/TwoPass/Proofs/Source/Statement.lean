import TwoPass.Proofs.Source.Line
import TwoPass.Proofs.Text.Lines

/-!
# Statements without label and comment

The plainest lines are an operation, and behind a space its argument.  Whatever the operation and the
argument are, as long as they hold no white space, colon or semicolon, reading the line gives them back.
Numerals are arguments of this kind.
-/

namespace TwoPass

namespace Text

/-- A visible character that neither ends a label nor starts a comment. -/
def isPlain (c : CodePoint) : Bool :=
  33 ≤ c.toNat && c.toNat ≤ 126 && c != ':' && c != ';'

theorem isBlank_of_isPlain {c : CodePoint} (hplain : isPlain c = true) : isBlank c = false := by
  simp only [isPlain, Bool.and_eq_true, decide_eq_true_eq] at hplain
  simp only [isBlank]
  simp
  omega

theorem not_isBlank_of_isPlain {text : Text} (hplain : ∀ c ∈ text, isPlain c = true) :
    ∀ c ∈ text, (!isBlank c) = true := by
  intro c hmem
  rw [isBlank_of_isPlain (hplain c hmem)]
  rfl

theorem isLineEnd_of_isPlain {c : CodePoint} (hplain : isPlain c = true) : isLineEnd c = false := by
  simp only [isPlain, Bool.and_eq_true, decide_eq_true_eq] at hplain
  simp only [isLineEnd]
  simp
  omega

/-- Text is trimmed already if neither end of it is white space. -/
theorem trim_eq_self {text : Text} (hhead : ∀ c, text.head? = some c → isBlank c = false)
    (hlast : ∀ c, text.getLast? = some c → isBlank c = false) : trim text = text := by
  have hdrop : text.dropWhile isBlank = text := by
    cases text with
    | nil => rfl
    | cons c rest => simp [hhead c rfl]
  rw [trim_eq_rdropWhile, hdrop, List.rdropWhile_eq_self_iff]
  intro hne
  rw [hlast _ (List.getLast?_eq_getLast_of_ne_nil hne)]
  decide

theorem trim_of_isPlain {text : Text} (hplain : ∀ c ∈ text, isPlain c = true) :
    trim text = text :=
  trim_eq_self (fun c hhead => isBlank_of_isPlain (hplain c (List.mem_of_mem_head? hhead)))
    (fun c hlast => isBlank_of_isPlain (hplain c (List.mem_of_getLast? hlast)))

theorem isDigit_of_mem_ofNat {n : Nat} {c : CodePoint} (hmem : c ∈ ofNat n) : isDigit c = true := by
  obtain ⟨digit, hdigit, rfl⟩ := List.mem_map.mp hmem
  have hdecimal : digit.isDigit = true :=
    Nat.isDigit_of_mem_toDigits (b := 10) (n := n) (by decide) (by decide) hdigit
  simpa [Char.isDigit, isDigit, Char.le_def] using hdecimal

theorem toNat_of_isDigit {c : CodePoint} (hdigit : isDigit c = true) : 48 ≤ c.toNat ∧ c.toNat ≤ 57 := by
  simp only [isDigit, Bool.and_eq_true, decide_eq_true_eq] at hdigit
  exact hdigit

theorem exists_char_of_isDigit {c : CodePoint} (hdigit : isDigit c = true) :
    ∃ digit, c = .char digit := by
  have hcode := toNat_of_isDigit hdigit
  exact ⟨Char.ofNat c.toNat, (CodePoint.char_ofNat_toNat (by omega)).symm⟩

theorem isPlain_of_isDigit {c : CodePoint} (hdigit : isDigit c = true) : isPlain c = true := by
  have hcode := toNat_of_isDigit hdigit
  have hcolon : c ≠ ':' := by
    rintro rfl
    exact absurd hcode.2 (by decide)
  have hsemicolon : c ≠ ';' := by
    rintro rfl
    exact absurd hcode.2 (by decide)
  simp [isPlain, hcolon, hsemicolon]
  omega

theorem isPlain_of_mem_ofNat {n : Nat} : ∀ c ∈ ofNat n, isPlain c = true :=
  fun _ hmem => isPlain_of_isDigit (isDigit_of_mem_ofNat hmem)

theorem ofNat_ne_nil (n : Nat) : ofNat n ≠ [] := by
  rw [ofNat, ne_eq, List.map_eq_nil_iff]
  exact Nat.toDigits_ne_nil

theorem isDigits_ofNat (n : Nat) : isDigits (ofNat n) = true := by
  have hall : (ofNat n).all isDigit = true :=
    List.all_eq_true.mpr fun c hmem => isDigit_of_mem_ofNat hmem
  simp [isDigits, hall, ofNat_ne_nil]

/-- A numeral writes its number. -/
theorem digitsValue_ofNat (n : Nat) : digitsValue (ofNat n) = n := by
  have hdigits : (ofNat n).map CodePoint.toChar = Nat.toDigits 10 n := by
    rw [ofNat, List.map_map]
    exact List.map_id _
  rw [digitsValue, hdigits]
  exact Nat.ofDigitChars_ten_toDigits

theorem signedValue_ofNat (n : Nat) : signedValue (ofNat n) = n := by
  rw [signedValue_of_isDigits (isDigits_ofNat n), digitsValue_ofNat]

/-- The numerals of addresses and words are short enough to convert. -/
theorem length_ofNat_le {n : Nat} (hlt : n < 65536) : (ofNat n).length ≤ maxDigits := by
  have hfive : (Nat.toDigits 10 n).length ≤ 5 := by
    rw [Nat.length_toDigits_le_iff (by decide) (by decide)]
    omega
  rw [ofNat, List.length_map]
  exact Nat.le_trans hfive (by decide)

end Text

namespace Line

/-- The line of an operation and its argument, or of the operation alone if the argument is empty. -/
def plain (operation argument : Text) : Text :=
  operation ++ (if argument.isEmpty then [] else .char ' ' :: argument)

section Plain

variable {op arg : Text}

theorem mem_plain {c : CodePoint} (hmem : c ∈ plain op arg) : c ∈ op ∨ c = ' ' ∨ c ∈ arg := by
  unfold plain at hmem
  rcases List.mem_append.mp hmem with hop | htail
  · exact Or.inl hop
  · split at htail
    · simp at htail
    · exact Or.inr (List.mem_cons.mp htail)

variable (hne : op ≠ []) (hop : ∀ c ∈ op, Text.isPlain c = true)
  (harg : ∀ c ∈ arg, Text.isPlain c = true)

include hop harg in
theorem isLine_plain : Text.IsLine (plain op arg) := by
  intro c hmem
  rcases mem_plain hmem with hc | rfl | hc
  · exact Text.isLineEnd_of_isPlain (hop c hc)
  · decide
  · exact Text.isLineEnd_of_isPlain (harg c hc)

include hop harg in
theorem code_plain : code (plain op arg) = plain op arg := by
  rw [code_eq_takeWhile, List.takeWhile_eq_self_iff]
  intro c hmem
  rcases mem_plain hmem with hc | rfl | hc
  · have hplain := hop c hc
    simp only [Text.isPlain, Bool.and_eq_true] at hplain
    exact hplain.2
  · decide
  · have hplain := harg c hc
    simp only [Text.isPlain, Bool.and_eq_true] at hplain
    exact hplain.2

include hop harg in
/-- Without a colon there is no label. -/
theorem label?_plain : label? (plain op arg) = none := by
  rw [Option.eq_none_iff_forall_ne_some]
  intro label hlabel
  obtain ⟨indentation, rest, hsplit, -⟩ := (label?_eq_some_iff _ _).mp hlabel
  have hcolon : .char ':' ∈ plain op arg := by
    apply (List.takeWhile_prefix fun c => c != .char ';').subset
    rw [hsplit]
    simp
  rcases mem_plain hcolon with hc | hc | hc
  · exact absurd (hop _ hc) (by decide)
  · exact absurd hc (by decide)
  · exact absurd (harg _ hc) (by decide)

include hne hop harg in
theorem body_plain : body (plain op arg) = plain op arg := by
  have hrest := splitLabel_of_none (label?_plain hop harg)
  rw [code_plain hop harg] at hrest
  rw [body, code_plain hop harg, hrest]
  apply Text.trim_eq_self
  · intro c hhead
    rw [plain, List.head?_append_of_ne_nil _ hne] at hhead
    exact Text.isBlank_of_isPlain (hop c (List.mem_of_mem_head? hhead))
  · -- The line ends with its argument, or with its operation if there is none.
    intro c hlast
    unfold plain at hlast
    split at hlast
    · rw [List.append_nil] at hlast
      exact Text.isBlank_of_isPlain (hop c (List.mem_of_getLast? hlast))
    · rename_i hargument
      have hnotNil : arg ≠ [] := by simpa using hargument
      rw [List.append_cons, List.getLast?_append_of_ne_nil _ hnotNil] at hlast
      exact Text.isBlank_of_isPlain (harg c (List.mem_of_getLast? hlast))

include hne hop harg in
/-- The operation of the line is the one it was made from. -/
theorem operation_plain : operation (plain op arg) = op := by
  have hspace : Text.isBlank ' ' = true := by decide
  rw [operation, body_plain hne hop harg, Text.firstWord, plain,
    List.takeWhile_append_of_pos (Text.not_isBlank_of_isPlain hop)]
  split <;> simp [hspace]

include hne hop harg in
/-- The argument of the line is the one it was made from. -/
theorem argument_plain : argument (plain op arg) = arg := by
  have hspace : Text.isBlank ' ' = true := by decide
  have hskip : Text.trim (' ' :: arg) = Text.trim arg := by
    simp [Text.trim, Text.trimStart, hspace]
  rw [argument, body_plain hne hop harg, Text.afterFirstWord, plain,
    List.dropWhile_append_of_pos (Text.not_isBlank_of_isPlain hop)]
  split
  · rename_i hargument
    rw [List.isEmpty_iff] at hargument
    rw [hargument]
    rfl
  · simp [hspace, hskip, Text.trim_of_isPlain harg]

include hne hop harg in
/-- The operation decides the kind of the line. -/
theorem kind_plain :
    kind (plain op arg) =
      if Text.upper op = Record.originKeyword then .origin
      else if Text.upper op = Record.dataKeyword then .data
      else .instruction := by
  have hbody : body (plain op arg) ≠ [] := by
    rw [body_plain hne hop harg, plain]
    simp [hne]
  simp only [kind, List.isEmpty_iff, hbody, ↓reduceIte, keyword, operation_plain hne hop harg]

end Plain

end Line

end TwoPass
