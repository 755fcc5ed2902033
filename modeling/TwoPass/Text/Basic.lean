/-!
# Text

Source text is a list of code points, so every reader below is a plain list function.  A code point is
a character or a surrogate; a surrogate belongs to no character, but a text may hold one all the same.

Two notions of white space occur in the source language.  Trimming and splitting use every character
with the Unicode white-space property and the four information separators.  The indentation in front
of a label is ASCII only.  Keeping the two apart is what makes the reading of a line exact.
-/

namespace TwoPass

/-- A character, or the surrogate at an offset from U+D800. -/
inductive CodePoint where
  | char (c : Char)
  | surrogate (offset : Fin 2048)
  deriving DecidableEq, Repr

namespace CodePoint

instance : Coe Char CodePoint :=
  ⟨.char⟩

def toNat : CodePoint → Nat
  | .char c => c.toNat
  | .surrogate offset => 0xD800 + offset

/-- The character, with a replacement for a surrogate. -/
def toChar : CodePoint → Char
  | .char c => c
  | .surrogate _ => '�'

instance : LT CodePoint :=
  ⟨fun left right => left.toNat < right.toNat⟩

instance : LE CodePoint :=
  ⟨fun left right => left.toNat ≤ right.toNat⟩

instance : DecidableLT CodePoint :=
  fun left right => inferInstanceAs (Decidable (left.toNat < right.toNat))

instance : DecidableLE CodePoint :=
  fun left right => inferInstanceAs (Decidable (left.toNat ≤ right.toNat))

@[simp] theorem toNat_char (c : Char) : (CodePoint.char c).toNat = c.toNat :=
  rfl

/-- A code point that is no surrogate is a character. -/
theorem char_ofNat_toNat {c : CodePoint} (hscalar : c.toNat < 0xD800 ∨ 0xDFFF < c.toNat) :
    CodePoint.char (Char.ofNat c.toNat) = c := by
  cases c with
  | char c => rw [toNat_char, Char.ofNat_toNat]
  | surrogate offset =>
      rw [toNat] at hscalar
      omega

theorem toNat_char_ne (c : Char) (offset : Fin 2048) :
    (CodePoint.char c).toNat ≠ (CodePoint.surrogate offset).toNat := by
  have hscalar : c.toNat < 0xD800 ∨ 0xDFFF < c.toNat ∧ c.toNat < 0x110000 := c.valid
  simp only [toNat]
  omega

theorem toNat_inj {left right : CodePoint} (hsame : left.toNat = right.toNat) : left = right := by
  cases left with
  | char c =>
      cases right with
      | char d => rw [Char.toNat_inj.mp hsame]
      | surrogate offset => exact absurd hsame (toNat_char_ne c offset)
  | surrogate offset =>
      cases right with
      | char d => exact absurd hsame.symm (toNat_char_ne d offset)
      | surrogate other => rw [Fin.ext (Nat.add_left_cancel hsame)]

instance : Std.IsLinearOrder CodePoint where
  le_refl c := Nat.le_refl c.toNat
  le_trans _ _ _ hfirst hsecond := Nat.le_trans hfirst hsecond
  le_antisymm _ _ hle hge := toNat_inj (Nat.le_antisymm hle hge)
  le_total left right := Nat.le_total left.toNat right.toNat

instance : Std.LawfulOrderLT CodePoint where
  lt_iff _ _ := Nat.lt_iff_le_and_not_ge

@[simp] theorem char_le_char (c d : Char) : CodePoint.char c ≤ .char d ↔ c ≤ d :=
  Iff.rfl

@[simp] theorem char_lt_char (c d : Char) : CodePoint.char c < .char d ↔ c < d :=
  Iff.rfl

end CodePoint

/-- Source text, code point by code point. -/
abbrev Text := List CodePoint

end TwoPass

def String.text (string : String) : TwoPass.Text :=
  string.toList.map .char

@[simp] theorem String.text_inj {first second : String} :
    first.text = second.text ↔ first = second := by
  simp only [String.text, List.map_inj_right fun _ _ heq => TwoPass.CodePoint.char.inj heq,
    String.toList_inj]

@[simp] theorem String.text_eq_nil_iff {string : String} : string.text = [] ↔ string = "" := by
  simp [String.text]

namespace TwoPass

instance : Coe String Text :=
  ⟨String.text⟩

namespace Text

/-- White space that separates and surrounds fields. -/
def isBlank (c : CodePoint) : Bool :=
  let n := c.toNat
  (9 ≤ n && n ≤ 13) || (28 ≤ n && n ≤ 32) || n == 0x85 || n == 0xA0 || n == 0x1680 ||
    (0x2000 ≤ n && n ≤ 0x200A) || n == 0x2028 || n == 0x2029 || n == 0x202F || n == 0x205F ||
    n == 0x3000

/-- White space that may stand before a label. -/
def isAsciiBlank (c : CodePoint) : Bool :=
  let n := c.toNat
  (9 ≤ n && n ≤ 13) || n == 32

def isDigit (c : CodePoint) : Bool :=
  '0' ≤ c && c ≤ '9'

def isLetter (c : CodePoint) : Bool :=
  ('A' ≤ c && c ≤ 'Z') || ('a' ≤ c && c ≤ 'z')

def isNameStart (c : CodePoint) : Bool :=
  isLetter c || c == '_'

def isNameChar (c : CodePoint) : Bool :=
  isNameStart c || isDigit c

def isLineEnd (c : CodePoint) : Bool :=
  let n := c.toNat
  (10 ≤ n && n ≤ 13) || (28 ≤ n && n ≤ 30) || n == 0x85 || n == 0x2028 || n == 0x2029

def trimStart (text : Text) : Text :=
  text.dropWhile isBlank

def trimEnd (text : Text) : Text :=
  (text.reverse.dropWhile isBlank).reverse

def trim (text : Text) : Text :=
  trimEnd (trimStart text)

/-- The leading run of characters that are not white space. -/
def firstWord (text : Text) : Text :=
  text.takeWhile (fun c => !isBlank c)

/-- What follows the first word, without the white space around it. -/
def afterFirstWord (text : Text) : Text :=
  trim (text.dropWhile (fun c => !isBlank c))

/-- A single newline at the very end does not belong to a token. -/
def dropFinalNewline (text : Text) : Text :=
  if text.getLast? = some (.char '\n') then text.dropLast else text

/-- An ASCII letter or underscore, then letters, digits and underscores. -/
def isName : Text → Bool
  | [] => false
  | c :: rest => isNameStart c && rest.all isNameChar

/-- A name, with one final newline tolerated. -/
def isNameToken (text : Text) : Bool :=
  isName (dropFinalNewline text)

/-- Texts are ordered by code point. -/
def precedes (left right : Text) : Bool :=
  !decide (right < left)

/-- Text between single quotes, for messages.  Nothing inside is escaped. -/
def quoted (text : Text) : Text :=
  "'" ++ text ++ "'"

/-- The lines of a text without their ends.  A carriage return and a following line feed are one end,
and a final end starts no further line. -/
def lines : Text → List Text
  | [] => []
  | .char '\r' :: .char '\n' :: rest => [] :: lines rest
  | c :: rest =>
      if isLineEnd c then [] :: lines rest
      else
        match lines rest with
        | [] => [[c]]
        | line :: more => (c :: line) :: more

/-- Every carriage return, alone or before a line feed, becomes one line feed.  A text that is read
from a file is unified before it is cut; it has the same lines either way. -/
def unifyLineEnds : Text → Text
  | [] => []
  | .char '\r' :: .char '\n' :: rest => '\n' :: unifyLineEnds rest
  | .char '\r' :: rest => '\n' :: unifyLineEnds rest
  | c :: rest => c :: unifyLineEnds rest

/-- A line handed over with its terminator loses the carriage returns and line feeds at its end. -/
def dropLineEnds (line : Text) : Text :=
  (line.reverse.dropWhile (fun c => c == .char '\r' || c == .char '\n')).reverse

def unlines (texts : List Text) : Text :=
  texts.flatMap (fun line => line ++ [.char '\n'])

/-- A character that may stand between the bracket and the final letter of a control sequence. -/
def isControlParameter (c : CodePoint) : Bool :=
  isDigit c || c == ';' || c == '?'

/-- What follows a control sequence, when the text after the escape character completes one: a
bracket, any number of parameters, and one letter. -/
def afterControl? : Text → Option Text
  | .char '[' :: rest =>
      match rest.dropWhile isControlParameter with
      | c :: after => if isLetter c then some after else none
      | [] => none
  | _ => none

-- Each step drops a character, so the length bounds the work.
def plainWithin : Nat → Text → Text
  | 0, _ => []
  | _ + 1, [] => []
  | fuel + 1, c :: rest =>
      if c = '\x1b' then
        match afterControl? rest with
        | some after => plainWithin fuel after
        | none => c :: plainWithin fuel rest
      else c :: plainWithin fuel rest

/-- Text without terminal control sequences, as the command prints it. -/
def plain (text : Text) : Text :=
  plainWithin text.length text

end Text

end TwoPass
