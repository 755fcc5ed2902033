import TwoPass.Text.Basic

/-!
# Decimal numerals

A numeral is an optional sign and ASCII digits.  There is a limit of `maxDigits` digits both ways.  A
longer numeral is recognised but not converted: leading zeros count, the sign does not.  And a number
that takes more digits is not written in a message.
-/

namespace TwoPass.Text

/-- At least one digit and nothing else. -/
def isDigits (text : Text) : Bool :=
  !text.isEmpty && text.all isDigit

def dropSign : Text → Text
  | .char '+' :: rest => rest
  | .char '-' :: rest => rest
  | text => text

/-- An unsigned numeral, with one final newline tolerated. -/
def isUnsignedToken (text : Text) : Bool :=
  isDigits (dropFinalNewline text)

/-- An optionally signed numeral, with one final newline tolerated. -/
def isDecimalToken (text : Text) : Bool :=
  isDigits (dropSign (dropFinalNewline text))

/-- The longest run of digits that is converted or written. -/
def maxDigits : Nat := 4300

def digitsValue (digits : Text) : Nat :=
  Nat.ofDigitChars 10 (digits.map CodePoint.toChar) 0

def signedValue : Text → Int
  | .char '-' :: rest => -(digitsValue rest : Int)
  | text => digitsValue (dropSign text)

/-- The decimal numeral of a natural number, without leading zeros. -/
def ofNat (n : Nat) : Text :=
  (Nat.toDigits 10 n).map .char

/-- The decimal numeral of an integer, with a minus sign below zero. -/
def ofInt : Int → Text
  | .ofNat n => ofNat n
  | .negSucc n => '-' :: ofNat (n + 1)

/-- The number has a numeral of at most `maxDigits` digits. -/
def Writable (n : Int) : Prop :=
  n.natAbs < Nat.pow 10 maxDigits

instance (n : Int) : Decidable (Writable n) :=
  inferInstanceAs (Decidable (n.natAbs < Nat.pow 10 maxDigits))

theorem Writable.of_le {n limit : Int} (hlimit : Writable limit) (hn : 0 ≤ n) (hle : n ≤ limit) :
    Writable n := by
  have habs : n.natAbs ≤ limit.natAbs := by omega
  exact Nat.lt_of_le_of_lt habs hlimit

/-- The noun for a count: singular for one, plural for every other number. -/
def counted (count : Nat) (one many : Text) : Text :=
  ofNat count ++ " " ++ (if count = 1 then one else many)

structure NumeralTooLong where
  digits : Nat
  deriving DecidableEq, Repr

def NumeralTooLong.message (fault : NumeralTooLong) : Text :=
  "Exceeds the limit (" ++ ofNat maxDigits ++
    " digits) for integer string conversion: value has " ++ ofNat fault.digits ++
    " digits; use sys.set_int_max_str_digits() to increase the limit"

def unwritableMessage : Text :=
  "Exceeds the limit (" ++ ofNat maxDigits ++
    " digits) for integer string conversion; use sys.set_int_max_str_digits() to increase the limit"

/-- Converts a token for which `isDecimalToken` holds. -/
def readDecimal (token : Text) : Except NumeralTooLong Int :=
  let numeral := dropFinalNewline token
  let digits := dropSign numeral
  if digits.length ≤ maxDigits then .ok (signedValue numeral) else .error ⟨digits.length⟩

end TwoPass.Text
