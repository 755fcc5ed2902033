import TwoPass.Operand.Basic

/-!
# Warnings

A warning says what is doubtful about a line that can be assembled all the same.  The log keeps
warnings in the order in which they arise.
-/

namespace TwoPass

structure Place where
  file : Text
  line : Int
  deriving DecidableEq, Repr

def Place.text (place : Place) : Text :=
  place.file ++ ":" ++ Text.ofInt place.line

namespace Warning

inductive Cause where
  /-- A word stands beyond the last address. -/
  | counterOverflow (address : Int)
  /-- A label moves to another address; the line that defined it first is named if it is known. -/
  | redefined (label : Text) (previous address : Int) (firstLine : Option Int)
  /-- A shift flag is spelled in no known way and counts as clear. -/
  | unknownFlag (flag : ShiftFlag) (token : Text)
  /-- An operand address is beyond the last address. -/
  | addressOverflow (address : Int)
  /-- An operand address does not fit its field; a label is named along with it. -/
  | addressTruncated (label : Option Text) (address : Int)
  /-- A warning in the words of the caller. -/
  | stated (message : Text)
  deriving DecidableEq, Repr

def Cause.message : Cause → Text
  | .counterOverflow address =>
      "location counter " ++ Text.ofInt address ++ " does not fit in 16 bits; word is placed at " ++
        Text.ofInt (address % 65536)
  | .redefined label previous address firstLine =>
      "label redefined: " ++ Text.quoted label ++ " (was " ++ Text.ofInt previous ++ ", now " ++
        Text.ofInt address ++ ")" ++
        (match firstLine with
          | some line => "; first defined at line " ++ Text.ofInt line
          | none => "")
  | .unknownFlag flag token =>
      "unrecognized " ++ flag.name ++ " flag " ++ Text.quoted token ++ "; treating it as 0"
  | .addressOverflow address => "address " ++ Text.ofInt address ++ " does not fit in 16 bits"
  | .addressTruncated label address =>
      let shown : Text :=
        match label with
        | some name => Text.quoted name ++ " = " ++ Text.ofInt address
        | none => Text.ofInt address
      "address " ++ shown ++ " > 31; encoding lower 5 bits (" ++ Text.ofInt (address % 32) ++
        "). Use index registers to reach the full address"
  | .stated message => message

/-- The numbers that the message writes in full. -/
def Cause.numbers : Cause → List Int
  | .counterOverflow address => [address]
  | .redefined _ previous address firstLine => previous :: address :: firstLine.toList
  | .addressOverflow address => [address]
  | .addressTruncated _ address => [address]
  | .unknownFlag _ _ | .stated _ => []

end Warning

/-- A cause, and the line it concerns if there is one. -/
structure Warning where
  cause : Warning.Cause
  place : Option Place
  deriving DecidableEq, Repr

namespace Warning

def message (warning : Warning) : Text :=
  warning.cause.message

def line (warning : Warning) : Option Int :=
  warning.place.map Place.line

def text (warning : Warning) : Text :=
  match warning.place with
  | some place => place.text ++ ": warning: " ++ warning.message
  | none => "warning: " ++ warning.message

end Warning

/-- The warnings of a run, oldest first. -/
abbrev Log := List Warning

/-- Every warning on a line of its own, and their number on the last. -/
def Log.report (log : Log) : Text :=
  "\n".text.intercalate (log.map Warning.text ++ [Text.counted log.length "warning" "warnings"])

end TwoPass
