import TwoPass.Text.Numeral
import TwoPass.Text.Upper

/-!
# Operands

What an instruction line names after its operation: numbers that must fit their field, shift flags
with their spellings, and a value that is either a number or a label.
-/

namespace TwoPass

/-- A number, or a label whose address is looked up later. -/
inductive Value where
  | literal (number : Int)
  | label (name : Text)
  deriving DecidableEq, Repr

namespace Value

def text : Value → Text
  | .literal number => Text.ofInt number
  | .label name => name

/-- Reads a numeral or a name; anything else is no value.  White space around it does not count. -/
def read? (text : Text) : Except Text.NumeralTooLong (Option Value) :=
  let token := Text.trim text
  if Text.isDecimalToken token then
    (Text.readDecimal token).map (fun number => some (.literal number))
  else if Text.isNameToken token then .ok (some (.label token))
  else .ok none

end Value

inductive Field where
  | register
  | index
  | immediate
  | shiftCount
  | device
  deriving DecidableEq, Repr

namespace Field

def name : Field → Text
  | .register => "register"
  | .index => "index register"
  | .immediate => "immediate"
  | .shiftCount => "shift count"
  | .device => "device id"

def largest : Field → Nat
  | .register => 3
  | .index => 3
  | .immediate => 31
  | .shiftCount => 15
  | .device => 31

end Field

/-- The two flags of a shift: its direction and its kind. -/
inductive ShiftFlag where
  | direction
  | kind
  deriving DecidableEq, Repr

namespace ShiftFlag

def name : ShiftFlag → Text
  | .direction => "L/R"
  | .kind => "A/L"

/-- Spellings that set the flag: left, or arithmetic. -/
def settingSpellings : ShiftFlag → List Text
  | .direction => ["1".text, "L".text, "LEFT".text]
  | .kind => ["1".text, "A".text, "ARITHMETIC".text]

/-- Spellings that clear the flag: right, or logical. -/
def clearingSpellings : ShiftFlag → List Text
  | .direction => ["0".text, "R".text, "RIGHT".text]
  | .kind => ["0".text, "L".text, "LOGICAL".text]

def spellings (flag : ShiftFlag) : List Text :=
  (flag.settingSpellings ++ flag.clearingSpellings).mergeSort Text.precedes

/-- The flag that a token spells, in any case. -/
def ofToken? (flag : ShiftFlag) (token : Text) : Option Bool :=
  let spelled := Text.upper token
  if flag.settingSpellings.contains spelled then some true
  else if flag.clearingSpellings.contains spelled then some false
  else none

end ShiftFlag

/-- The indirect flag that a token spells, in any case. -/
def indirectOfToken? (token : Text) : Option Bool :=
  let spelled := Text.upper token
  if spelled = "1".text || spelled = "I".text then some true
  else if spelled = "0".text then some false
  else none

inductive Operands where
  | memory (register index : Fin 4) (indirect : Bool) (address : Value)
  | immediate (register : Fin 4) (number : Fin 32)
  | registers (first second : Fin 4)
  | shift (register : Fin 4) (count : Fin 16) (left arithmetic : Bool)
  | device (register : Fin 4) (number : Fin 32)
  | bare
  deriving DecidableEq, Repr

end TwoPass
