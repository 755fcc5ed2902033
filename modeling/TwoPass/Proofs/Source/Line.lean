import TwoPass.Proofs.Text.Token
import TwoPass.Source.Record

/-!
# A line by itself

What a line says does not depend on where it stands: its label, its operation, its argument and its
kind are functions of its text.  Only the address is the counter's, and only where the line does not
set the counter itself.  Reading a line fails exactly when it is a directive whose argument is not in
order, or one whose numeral is too long to convert.
-/

namespace TwoPass

namespace Line

def code (raw : Text) : Text :=
  (Record.splitComment raw).1

/-- The name in front of the line's colon, if the line starts with one. -/
def label? (raw : Text) : Option Text :=
  (Record.splitLabel (code raw)).1

/-- What follows the label, or all of the code without one. -/
def body (raw : Text) : Text :=
  Text.trim (Record.splitLabel (code raw)).2

def operation (raw : Text) : Text :=
  Text.firstWord (body raw)

def keyword (raw : Text) : Text :=
  Text.upper (operation raw)

def argument (raw : Text) : Text :=
  Text.afterFirstWord (body raw)

/-- A line without operation is blank unless it has a label; two operations are directives. -/
def kind (raw : Text) : LineKind :=
  if (body raw).isEmpty then
    if (label? raw).isSome then .labelOnly else .blank
  else if keyword raw = Record.originKeyword then .origin
  else if keyword raw = Record.dataKeyword then .data
  else .instruction

/-- Data lines and instructions take a word each. -/
def takesWord (raw : Text) : Bool :=
  kind raw == .data || kind raw == .instruction

def origin (raw : Text) : Int :=
  Text.digitsValue (argument raw)

/-- The argument of a directive is in order: digits up to the last address after `LOC`, a numeral or a
name after `Data`. -/
def Sound (raw : Text) : Prop :=
  match kind raw with
  | .origin => Text.isDigits (argument raw) = true ∧ origin raw ≤ Word.largest
  | .data => Text.isDigits (Text.dropSign (argument raw)) = true ∨ Text.isName (argument raw) = true
  | _ => True

instance (raw : Text) : Decidable (Sound raw) := by
  unfold Sound
  split <;> infer_instance

/-- The operation as a record keeps it. -/
def recordedOperation? (raw : Text) : Option Text :=
  match kind raw with
  | .blank | .labelOnly => none
  | .origin => some Record.originKeyword
  | .data => some "Data".text
  | .instruction => some (keyword raw)

/-- The record of a line with a sound argument. -/
def record (file raw : Text) (number counter : Int) : Record where
  file := file
  line := number
  raw := raw
  kind := kind raw
  address := if kind raw = .origin then origin raw else counter
  label := label? raw
  operation := recordedOperation? raw
  operands := argument raw
  occupiesWord := takesWord raw
  data := if kind raw = .data then Value.ofToken? (argument raw) else none
  comment := (Record.splitComment raw).2

theorem takesWord_iff (raw : Text) :
    takesWord raw = true ↔ kind raw = .data ∨ kind raw = .instruction := by
  simp [takesWord]

theorem keyword_of_origin {raw : Text} (hkind : kind raw = .origin) :
    keyword raw = Record.originKeyword := by
  unfold kind at hkind
  grind

theorem keyword_of_data {raw : Text} (hkind : kind raw = .data) :
    keyword raw = Record.dataKeyword := by
  unfold kind at hkind
  grind

theorem keyword_ne_of_instruction {raw : Text} (hkind : kind raw = .instruction) :
    keyword raw ≠ Record.dataKeyword := by
  unfold kind at hkind
  grind

theorem toNat_of_isNameStart {c : CodePoint} (hstart : Text.isNameStart c = true) :
    (65 ≤ c.toNat ∧ c.toNat ≤ 90) ∨ (97 ≤ c.toNat ∧ c.toNat ≤ 122) ∨ c.toNat = 95 := by
  simp only [Text.isNameStart, Text.isLetter, Bool.or_eq_true, Bool.and_eq_true,
    decide_eq_true_eq, beq_iff_eq] at hstart
  rcases hstart with (hupper | hlower) | rfl
  · exact Or.inl hupper
  · exact Or.inr (Or.inl hlower)
  · exact Or.inr (Or.inr rfl)

theorem isBlank_of_isNameStart {c : CodePoint} (hstart : Text.isNameStart c = true) :
    Text.isBlank c = false := by
  have hcode := toNat_of_isNameStart hstart
  simp only [Text.isBlank]
  simp
  omega

theorem isBlank_of_isAsciiBlank {c : CodePoint} (hascii : Text.isAsciiBlank c = true) :
    Text.isBlank c = true := by
  have hcode : (9 ≤ c.toNat ∧ c.toNat ≤ 13) ∨ c.toNat = 32 := by
    simpa [Text.isAsciiBlank] using hascii
  simp only [Text.isBlank, Bool.or_eq_true, Bool.and_eq_true, decide_eq_true_eq, beq_iff_eq]
  omega

/-- White space alone has no label in it. -/
theorem splitLabel_of_blank {text : Text} (hblank : ∀ c ∈ text, Text.isBlank c = true) :
    Record.splitLabel text = (none, text) := by
  unfold Record.splitLabel
  have hname : Text.isName ((text.dropWhile Text.isAsciiBlank).takeWhile Text.isNameChar) =
      false := by
    cases hwhile : (text.dropWhile Text.isAsciiBlank).takeWhile Text.isNameChar with
    | nil => rfl
    | cons c rest =>
        have hmem : c ∈ text := by
          apply (List.dropWhile_suffix Text.isAsciiBlank).subset
          apply (List.takeWhile_prefix Text.isNameChar).subset
          rw [hwhile]
          exact List.mem_cons_self
        cases hstart : Text.isNameStart c with
        | false => simp [Text.isName, hstart]
        | true =>
            have hfalse := isBlank_of_isNameStart hstart
            rw [hblank c hmem] at hfalse
            contradiction
  simp [hname]

theorem splitLabel_of_none {text : Text} (hnone : (Record.splitLabel text).1 = none) :
    (Record.splitLabel text).2 = text := by
  unfold Record.splitLabel at hnone ⊢
  dsimp only at hnone ⊢
  by_cases hname : Text.isName ((text.dropWhile Text.isAsciiBlank).takeWhile Text.isNameChar)
  · simp only [hname, ↓reduceIte] at hnone ⊢
    split at hnone
    · contradiction
    · rfl
  · simp [hname]

theorem code_eq_takeWhile (raw : Text) : code raw = raw.takeWhile (fun c => c != .char ';') := by
  unfold code Record.splitComment
  split
  · rename_i hdrop
    have hsplit := List.takeWhile_append_dropWhile (p := fun c => c != .char ';') (l := raw)
    rw [hdrop, List.append_nil] at hsplit
    exact hsplit.symm
  · rfl

/-- The line defines the label: in front of any comment, and of anything but indentation, there is the
name with a colon directly behind it. -/
def Defines (raw label : Text) : Prop :=
  ∃ indentation rest,
    raw.takeWhile (fun c => c != .char ';') = indentation ++ (label ++ .char ':' :: rest) ∧
    (∀ c ∈ indentation, Text.isAsciiBlank c = true) ∧ Text.isName label = true

theorem isNameChar_of_isName {label : Text} (hname : Text.isName label = true) :
    ∀ c ∈ label, Text.isNameChar c = true := by
  cases label with
  | nil => simp [Text.isName] at hname
  | cons start rest =>
      simp only [Text.isName, Bool.and_eq_true, List.all_eq_true] at hname
      intro c hmem
      rcases List.mem_cons.mp hmem with rfl | hrest
      · simp [Text.isNameChar, hname.1]
      · exact hname.2 c hrest

/-- A name starts behind the indentation. -/
theorem dropWhile_isAsciiBlank_of_isName {indentation label more : Text}
    (hblank : ∀ c ∈ indentation, Text.isAsciiBlank c = true) (hname : Text.isName label = true) :
    (indentation ++ (label ++ more)).dropWhile Text.isAsciiBlank = label ++ more := by
  rw [List.dropWhile_append_of_pos hblank]
  cases label with
  | nil => simp [Text.isName] at hname
  | cons start rest =>
      have hstart : Text.isNameStart start = true := by
        simp only [Text.isName, Bool.and_eq_true] at hname
        exact hname.1
      have hnot : Text.isAsciiBlank start ≠ true := by
        intro hascii
        have hfalse := isBlank_of_isNameStart hstart
        rw [isBlank_of_isAsciiBlank hascii] at hfalse
        contradiction
      simp [hnot]

/-- A label that is split off stands behind the indentation, with a colon and the rest behind it. -/
theorem splitLabel_eq_some_iff (code label rest : Text) :
    Record.splitLabel code = (some label, rest) ↔
      ∃ indentation, code = indentation ++ (label ++ .char ':' :: rest) ∧
        (∀ c ∈ indentation, Text.isAsciiBlank c = true) ∧ Text.isName label = true := by
  unfold Record.splitLabel
  dsimp only
  constructor
  · intro hsplit
    split at hsplit
    · rename_i hname
      split at hsplit
      · rename_i more hdrop
        obtain ⟨rfl, rfl⟩ : _ = label ∧ more = rest := by simpa using hsplit
        refine ⟨code.takeWhile Text.isAsciiBlank, ?_, ?_, hname⟩
        · rw [← hdrop, List.takeWhile_append_dropWhile, List.takeWhile_append_dropWhile]
        · exact fun c hmem => List.mem_takeWhile_imp hmem
      · simp at hsplit
    · simp at hsplit
  · rintro ⟨indentation, hcode, hblank, hname⟩
    have hcolon : Text.isNameChar ':' = false := by decide
    rw [hcode, dropWhile_isAsciiBlank_of_isName hblank hname,
      List.takeWhile_append_of_pos (isNameChar_of_isName hname),
      List.dropWhile_append_of_pos (isNameChar_of_isName hname)]
    simp [hcolon, hname]

/-- The label that is split off is the one the line defines. -/
theorem label?_eq_some_iff (raw label : Text) : label? raw = some label ↔ Defines raw label := by
  unfold label? Defines
  rw [← code_eq_takeWhile]
  constructor
  · intro hlabel
    obtain ⟨indentation, hcode⟩ := (splitLabel_eq_some_iff (code raw) label _).mp
      (Prod.ext hlabel rfl)
    exact ⟨indentation, _, hcode⟩
  · rintro ⟨indentation, rest, hcode⟩
    rw [(splitLabel_eq_some_iff (code raw) label rest).mpr ⟨indentation, hcode⟩]

instance (raw label : Text) : Decidable (Defines raw label) :=
  decidable_of_iff _ (label?_eq_some_iff raw label)

/-- Exactly the lines whose code is white space are blank. -/
theorem kind_eq_blank_iff (raw : Text) : kind raw = .blank ↔ Text.trim (code raw) = [] := by
  constructor
  · intro hkind
    unfold kind at hkind
    split at hkind
    · rename_i hbody
      split at hkind
      · cases hkind
      · rename_i hlabel
        have hnone : label? raw = none := by simpa using hlabel
        have hrest := splitLabel_of_none hnone
        simpa [body, hrest] using hbody
    · split at hkind
      · cases hkind
      · split at hkind <;> cases hkind
  · intro htrim
    have hsplit := splitLabel_of_blank ((Text.trim_eq_nil_iff (code raw)).mp htrim)
    simp [kind, body, label?, hsplit, htrim]

/-- The record before its directive is looked at. -/
def draft (file raw : Text) (number counter : Int) : Record :=
  { Record.blank file raw number counter (Record.splitComment raw).2 with
    label := label? raw
    operands := argument raw }

theorem operands_draft (file raw : Text) (number counter : Int) :
    (draft file raw number counter).operands = argument raw := rfl

theorem read_eq (file raw : Text) (number counter : Int) :
    Record.read file raw number counter =
      match kind raw with
      | .origin => (draft file raw number counter).readOrigin (operation raw)
      | .data => (draft file raw number counter).readData (operation raw)
      | _ => .ok (record file raw number counter) := by
  have hread : Record.read file raw number counter =
      if (Text.trim (code raw)).isEmpty then
        .ok (Record.blank file raw number counter (Record.splitComment raw).2)
      else
        Record.readCode
          { Record.blank file raw number counter (Record.splitComment raw).2 with
            label := label? raw }
          (Record.splitLabel (code raw)).2 := rfl
  rw [hread]
  by_cases htrim : Text.trim (code raw) = []
  · have hkind := (kind_eq_blank_iff raw).mpr htrim
    have hsplit := splitLabel_of_blank ((Text.trim_eq_nil_iff (code raw)).mp htrim)
    have hbody : body raw = [] := by simp [body, hsplit, htrim]
    simp [htrim, hkind, record, recordedOperation?, takesWord, Record.blank, argument, hbody,
      label?, hsplit, Text.afterFirstWord]
  · have hblank : kind raw ≠ .blank := fun hkind => htrim ((kind_eq_blank_iff raw).mp hkind)
    simp only [List.isEmpty_iff, htrim, ↓reduceIte]
    change (if (body raw).isEmpty then
        .ok { Record.blank file raw number counter (Record.splitComment raw).2 with
          label := label? raw
          kind := .labelOnly }
      else if keyword raw = Record.originKeyword then
        (draft file raw number counter).readOrigin (operation raw)
      else if keyword raw = Record.dataKeyword then
        (draft file raw number counter).readData (operation raw)
      else
        .ok { draft file raw number counter with
          kind := .instruction
          operation := some (keyword raw)
          occupiesWord := true }) = _
    by_cases hbody : body raw = []
    · have hlabel : (label? raw).isSome = true := by
        by_contra hnot
        exact hblank (by simp [kind, hbody, hnot])
      have hkind : kind raw = .labelOnly := by simp [kind, hbody, hlabel]
      simp [hbody, hkind, record, recordedOperation?, takesWord, Record.blank, argument,
        Text.afterFirstWord]
    · by_cases horigin : keyword raw = Record.originKeyword
      · have hkind : kind raw = .origin := by simp [kind, hbody, horigin]
        simp [hbody, horigin, hkind]
      · by_cases hdata : keyword raw = Record.dataKeyword
        · have hne : Record.dataKeyword ≠ Record.originKeyword := by decide
          have hkind : kind raw = .data := by simp [kind, hbody, hdata, hne]
          simp [hbody, hdata, hne, hkind]
        · have hkind : kind raw = .instruction := by simp [kind, hbody, horigin, hdata]
          simp [hbody, horigin, hdata, hkind, draft, record, recordedOperation?, takesWord,
            Record.blank]

theorem trim_argument (raw : Text) : Text.trim (argument raw) = argument raw :=
  Text.trim_trim _

theorem ofToken?_isSome_iff (token : Text) :
    (Value.ofToken? token).isSome = true ↔
      Text.isDigits (Text.dropSign token) = true ∨ Text.isName token = true := by
  unfold Value.ofToken?
  split
  · simp [*]
  · split <;> simp [*]

/-- The numeral of a directive is short enough to convert. -/
def Converts (raw : Text) : Prop :=
  kind raw = .origin ∨ kind raw = .data → Text.Convertible (argument raw)

theorem readDecimal_argument {raw : Text} (hdigits : Text.isDigits (argument raw) = true) :
    Text.readDecimal (argument raw) =
      if (argument raw).length ≤ Text.maxDigits then .ok (origin raw)
      else .error ⟨(argument raw).length⟩ := by
  rw [Text.readDecimal_of_token (trim_argument raw), Text.dropSign_of_isDigits hdigits,
    Text.signedValue_of_isDigits hdigits]
  rfl

theorem readOrigin_of_sound {file raw : Text} {number counter : Int} (hkind : kind raw = .origin)
    (hsound : Sound raw) (hconverts : Converts raw) :
    (draft file raw number counter).readOrigin (operation raw) =
      .ok (record file raw number counter) := by
  simp only [Sound, hkind] at hsound
  obtain ⟨hdigits, hlargest⟩ := hsound
  have hlength := hconverts (Or.inl hkind)
  simp only [Text.Convertible, Text.dropSign_of_isDigits hdigits] at hlength
  have hdecimal := readDecimal_argument hdigits
  rw [if_pos (hlength hdigits)] at hdecimal
  have hne : argument raw ≠ [] := by
    intro hnil
    simp [hnil, Text.isDigits] at hdigits
  have hnot : ¬ Word.largest < origin raw := by omega
  simp [Record.readOrigin, draft, hne, Text.isUnsignedToken_of_token (trim_argument raw), hdigits,
    hdecimal, hnot, record, hkind, recordedOperation?, takesWord, Record.blank]

theorem readData_of_sound {file raw : Text} {number counter : Int} (hkind : kind raw = .data)
    (hsound : Sound raw) (hconverts : Converts raw) :
    (draft file raw number counter).readData (operation raw) =
      .ok (record file raw number counter) := by
  simp only [Sound, hkind] at hsound
  obtain ⟨value, hvalue⟩ := Option.isSome_iff_exists.mp ((ofToken?_isSome_iff _).mpr hsound)
  have hread := Value.read?_of_convertible (trim_argument raw) (hconverts (Or.inr hkind))
  have hne : argument raw ≠ [] := by
    intro hnil
    simp [hnil, Text.isDigits, Text.isName, Text.dropSign] at hsound
  simp [Record.readData, draft, hne, hread, hvalue, record, hkind, recordedOperation?, takesWord,
    Record.blank]

/-- A line with a sound argument is read, whatever its place. -/
theorem read_of_sound {raw : Text} (hsound : Sound raw) (hconverts : Converts raw)
    (file : Text) (number counter : Int) :
    Record.read file raw number counter = .ok (record file raw number counter) := by
  rw [read_eq]
  cases hkind : kind raw with
  | origin => exact readOrigin_of_sound hkind hsound hconverts
  | data => exact readData_of_sound hkind hsound hconverts
  | blank | labelOnly | instruction => rfl

/-- The argument of a directive is a numeral that is too long.  A sign keeps an origin from being a
numeral, whatever its length. -/
def LongArgument (raw : Text) : Prop :=
  match kind raw with
  | .origin => Text.isDigits (argument raw) = true ∧ Text.maxDigits < (argument raw).length
  | .data => ¬ Text.Convertible (argument raw)
  | _ => False

theorem Converts.not_longArgument {raw : Text} (hconverts : Converts raw) : ¬ LongArgument raw := by
  unfold LongArgument
  split
  · rename_i hkind
    rintro ⟨hdigits, hlong⟩
    have hlength := hconverts (Or.inl hkind)
    simp only [Text.Convertible, Text.dropSign_of_isDigits hdigits] at hlength
    exact absurd (hlength hdigits) (by omega)
  · rename_i hkind
    exact not_not_intro (hconverts (Or.inr hkind))
  · exact id

/-- An origin that is not in order is refused, and the error names the line. -/
theorem readOrigin_of_not_sound {raw : Text} (hkind : kind raw = .origin) (hnot : ¬ Sound raw)
    (hshort : ¬ LongArgument raw) (file : Text) (number counter : Int) :
    ∃ cause : Error.Cause, cause.category = .directive ∧
      (draft file raw number counter).readOrigin (operation raw) =
        .error (.error ⟨cause, some ⟨file, number⟩, some raw⟩) := by
  simp only [Sound, hkind] at hnot
  unfold Record.readOrigin
  dsimp only
  split
  · exact ⟨_, rfl, rfl⟩
  · split
    · exact ⟨_, rfl, rfl⟩
    · rename_i hunsigned
      have hdigits : Text.isDigits (argument raw) = true := by
        simpa [draft, Text.isUnsignedToken_of_token (trim_argument raw)] using hunsigned
      simp only [LongArgument, hkind, hdigits, true_and, not_lt] at hshort
      have hdecimal : Text.readDecimal (draft file raw number counter).operands =
          .ok (origin raw) := by
        rw [operands_draft, readDecimal_argument hdigits, if_pos hshort]
      have hlarge : Word.largest < origin raw := by
        by_contra hsmall
        exact hnot ⟨hdigits, by omega⟩
      simp only [hdecimal, hlarge, ↓reduceIte]
      exact ⟨_, rfl, rfl⟩

/-- Data that is neither a numeral nor a name is refused, and the error names the line. -/
theorem readData_of_not_sound {raw : Text} (hkind : kind raw = .data) (hnot : ¬ Sound raw)
    (hshort : ¬ LongArgument raw) (file : Text) (number counter : Int) :
    ∃ cause : Error.Cause, cause.category = .directive ∧
      (draft file raw number counter).readData (operation raw) =
        .error (.error ⟨cause, some ⟨file, number⟩, some raw⟩) := by
  simp only [Sound, hkind, ← ofToken?_isSome_iff] at hnot
  simp only [LongArgument, hkind, not_not] at hshort
  have hnone : Value.ofToken? (argument raw) = none := by simpa using hnot
  have hread : Value.read? (draft file raw number counter).operands = .ok none := by
    rw [operands_draft, Value.read?_of_convertible (trim_argument raw) hshort, hnone]
  unfold Record.readData
  dsimp only
  split
  · exact ⟨_, rfl, rfl⟩
  · simp only [hread]
    exact ⟨_, rfl, rfl⟩

/-- A directive that is not in order ends the reading with an error at its line. -/
theorem read_of_not_sound {raw : Text} (hnot : ¬ Sound raw) (hshort : ¬ LongArgument raw)
    (file : Text) (number counter : Int) :
    ∃ cause : Error.Cause, cause.category = .directive ∧
      Record.read file raw number counter =
        .error (.error ⟨cause, some ⟨file, number⟩, some raw⟩) := by
  rw [read_eq]
  cases hkind : kind raw with
  | origin => exact readOrigin_of_not_sound hkind hnot hshort file number counter
  | data => exact readData_of_not_sound hkind hnot hshort file number counter
  | blank | labelOnly | instruction =>
      simp only [Sound, hkind] at hnot
      exact absurd trivial hnot

/-- A numeral that is too long ends the reading without an error of its own. -/
theorem read_of_longArgument {raw : Text} (hlong : LongArgument raw) (file : Text)
    (number counter : Int) :
    ∃ fault, Record.read file raw number counter = .error (.numeral fault) := by
  rw [read_eq]
  cases hkind : kind raw with
  | origin =>
      simp only [LongArgument, hkind] at hlong
      obtain ⟨hdigits, hlength⟩ := hlong
      have hne : argument raw ≠ [] := by
        intro hnil
        simp [hnil, Text.isDigits] at hdigits
      have hdecimal := readDecimal_argument hdigits
      rw [if_neg (by omega)] at hdecimal
      refine ⟨⟨(argument raw).length⟩, ?_⟩
      simp [Record.readOrigin, draft, hne, hdigits, hdecimal,
        Text.isUnsignedToken_of_token (trim_argument raw)]
  | data =>
      simp only [LongArgument, hkind] at hlong
      have hne : argument raw ≠ [] := by
        intro hnil
        simp [hnil, Text.Convertible, Text.isDigits, Text.dropSign] at hlong
      cases hvalue : Value.read? (argument raw) with
      | error fault => exact ⟨fault, by simp [Record.readData, draft, hne, hvalue]⟩
      | ok value =>
          exact absurd (Value.ofToken?_of_read? (trim_argument raw) hvalue).2 hlong
  | blank | labelOnly | instruction =>
      simp only [LongArgument, hkind] at hlong

/-- A numeral that was converted was not too long. -/
theorem converts_of_read {raw file : Text} {number counter : Int} {result : Record}
    (hread : Record.read file raw number counter = .ok result) : Converts raw := by
  rintro (hkind | hkind)
  · simp only [read_eq, hkind, Record.readOrigin] at hread
    split at hread
    · simp [Record.refuse] at hread
    · split at hread
      · simp [Record.refuse] at hread
      · rename_i hunsigned
        have hdigits : Text.isDigits (argument raw) = true := by
          simpa [draft, Text.isUnsignedToken_of_token (trim_argument raw)] using hunsigned
        intro _
        rw [Text.dropSign_of_isDigits hdigits]
        by_contra hlong
        have hdecimal := readDecimal_argument hdigits
        rw [if_neg hlong] at hdecimal
        simp [draft, hdecimal] at hread
  · simp only [read_eq, hkind, Record.readData] at hread
    split at hread
    · simp [Record.refuse] at hread
    · cases hvalue : Value.read? (argument raw) with
      | error fault => simp [draft, hvalue] at hread
      | ok value => exact (Value.ofToken?_of_read? (trim_argument raw) hvalue).2

/-- A line that was read has a sound argument, and its record is determined by its text. -/
theorem sound_of_read {raw file : Text} {number counter : Int} {result : Record}
    (hread : Record.read file raw number counter = .ok result) :
    Sound raw ∧ Converts raw ∧ result = record file raw number counter := by
  have hconverts := converts_of_read hread
  have hsound : Sound raw := by
    by_contra hnot
    obtain ⟨cause, -, herror⟩ :=
      read_of_not_sound hnot hconverts.not_longArgument file number counter
    rw [hread] at herror
    contradiction
  refine ⟨hsound, hconverts, ?_⟩
  rw [read_of_sound hsound hconverts] at hread
  exact (Except.ok.inj hread).symm

end Line

end TwoPass
