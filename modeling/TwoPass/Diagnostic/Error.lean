import TwoPass.Diagnostic.Warning
import TwoPass.Machine.Instruction

/-!
# Errors, and what is recorded before them

An error ends a run at the first line that cannot be assembled.  Its cause is data; the wording of
every error is in `Error.Cause.message` and `Error.Cause.hint`, and its layout in `Error.text`.

In a `Recorder` a warning enters the log at the moment it arises, and whatever can stop a computation
does so in its turn.  A message is put together before it is recorded, and its numbers are written then.
The place of a warning is written only after the warning has been recorded, and the place of an error
before it is raised.  So a number with too many digits stops a computation in the middle of this.
-/

namespace TwoPass

namespace Error

/-- Families of errors.  Every family but the first refines another. -/
inductive Category where
  | general
  | operandSyntax
  | directive
  | undefinedLabel
  | unknownOpcode
  | tableClosed
  | warningsPresent
  deriving DecidableEq, Repr

def Category.wider? : Category → Option Category
  | .general => none
  | .directive => some .operandSyntax
  | _ => some .general

inductive Cause where
  | missingOperands (mnemonic : Text) (format : Format)
  | emptyField (position : Nat) (operands : Text) (format : Format)
  | wrongFieldCount (mnemonic : Text) (count : Nat) (format : Format)
  | notDecimal (field : Field) (token : Text)
  | outOfRange (field : Field) (token : Text)
  | badAddress (token : Text)
  | badIndirectFlag (token : Text)
  | unknownFlag (flag : ShiftFlag) (token : Text)
  | unexpectedOperands (mnemonic operands : Text)
  | negativeAddress (address : Int)
  | missingOrigin (operation : Text)
  | badOrigin (operation argument : Text)
  | originTooLarge (operation : Text) (address : Int)
  | missingData (operation : Text)
  | badData (operation argument : Text)
  | undefinedLabel (label : Text) (similar : List Text)
  | unknownOpcode (mnemonic : Text) (similar : List Text)
  | tableClosed (label : Text)
  | warningsPresent (warnings : Log)
  /-- An error in the words of the caller. -/
  | stated (category : Category) (message : Text) (hint : Option Text)
  deriving DecidableEq, Repr

namespace Cause

def category : Cause → Category
  | .missingOrigin _ | .badOrigin _ _ | .originTooLarge _ _ | .missingData _ | .badData _ _ =>
      .directive
  | .undefinedLabel _ _ => .undefinedLabel
  | .unknownOpcode _ _ => .unknownOpcode
  | .tableClosed _ => .tableClosed
  | .warningsPresent _ => .warningsPresent
  | .stated category _ _ => category
  | _ => .operandSyntax

def message : Cause → Text
  | .missingOperands mnemonic _ => "missing operands for " ++ Text.quoted mnemonic
  | .emptyField position operands _ =>
      "empty operand field " ++ Text.ofNat position ++ " in " ++ Text.quoted operands
  | .wrongFieldCount mnemonic count _ =>
      "wrong number of operands for " ++ Text.quoted mnemonic ++ ": got " ++
        Text.counted count "field" "fields"
  | .notDecimal field token =>
      "invalid " ++ field.name ++ " " ++ Text.quoted token ++ ": expected a decimal number"
  | .outOfRange field token =>
      field.name ++ " out of range 0.." ++ Text.ofNat field.largest ++ ": " ++ token
  | .badAddress token => "invalid address " ++ Text.quoted token
  | .badIndirectFlag token => "invalid indirect flag " ++ Text.quoted token
  | .unknownFlag flag token => "unrecognized " ++ flag.name ++ " flag " ++ Text.quoted token
  | .unexpectedOperands mnemonic operands =>
      Text.quoted mnemonic ++ " takes no operands, got " ++ Text.quoted operands
  | .negativeAddress address => "negative address " ++ Text.ofInt address
  | .missingOrigin operation => operation ++ " requires a decimal address"
  | .badOrigin operation argument =>
      "invalid " ++ operation ++ " address " ++ Text.quoted argument
  | .originTooLarge operation address =>
      operation ++ " address " ++ Text.ofInt address ++ " does not fit in 16 bits"
  | .missingData operation => operation ++ " requires a value or label"
  | .badData operation argument =>
      "invalid " ++ operation ++ " value " ++ Text.quoted argument
  | .undefinedLabel label _ => "undefined label " ++ Text.quoted label
  | .unknownOpcode mnemonic _ => "unknown opcode " ++ Text.quoted mnemonic
  | .tableClosed label =>
      "cannot define label " ++ Text.quoted label ++ " after pass 1 has completed"
  | .warningsPresent warnings =>
      Text.counted warnings.length "warning" "warnings" ++ " treated as errors:\n" ++
        "\n".text.intercalate (warnings.map (fun warning => "  " ++ warning.text))
  | .stated _ message _ => message

/-- The numbers that the message writes in full. -/
def numbers : Cause → List Int
  | .negativeAddress address => [address]
  | .originTooLarge _ address => [address]
  | _ => []

/-- The names to try instead, at most three of them. -/
def suggestion (similar : List Text) : Option Text :=
  if similar.isEmpty then none
  else some ("did you mean " ++ ", ".text.intercalate ((similar.take 3).map Text.quoted) ++ "?")

def hint : Cause → Option Text
  | .missingOperands _ format | .emptyField _ _ format | .wrongFieldCount _ _ format =>
      some ("expected " ++ format.operandForm)
  | .badAddress _ => some "expected a decimal address or a label name"
  | .badIndirectFlag _ => some "use I or 1 for indirect addressing, 0 or nothing for direct"
  | .unknownFlag flag _ =>
      some (flag.name ++ " accepts " ++ ", ".text.intercalate flag.spellings)
  | .badOrigin _ _ => some "the address must be a non-negative decimal integer"
  | .originTooLarge _ _ => some "the address must be at most 65535"
  | .badData _ _ => some "expected a decimal integer or a label name"
  | .undefinedLabel _ similar | .unknownOpcode _ similar => suggestion similar
  | .stated _ _ hint => hint
  | _ => none

end Cause

end Error

/-- A cause, the line it concerns and that line's text, as far as they are known. -/
structure Error where
  cause : Error.Cause
  place : Option Place
  sourceLine : Option Text
  deriving DecidableEq, Repr

namespace Error

def line (error : Error) : Option Int :=
  error.place.map Place.line

def numbers (error : Error) : List Int :=
  error.cause.numbers ++ error.line.toList

/-- The error as it is printed: place and message, the source line if the place is known, and the
hint if there is one. -/
def text (error : Error) : Text :=
  let headline : Text :=
    match error.place with
    | some place => place.text ++ ": error: " ++ error.cause.message
    | none => "error: " ++ error.cause.message
  let context : List Text :=
    match error.place, error.sourceLine with
    | some _, some line => ["    " ++ Text.trimEnd line]
    | _, _ => []
  let advice : List Text :=
    match error.cause.hint with
    | some hint => if hint.isEmpty then [] else ["hint: " ++ hint]
    | none => []
  "\n".text.intercalate (headline :: context ++ advice)

end Error

inductive Abort where
  | error (report : Error)
  /-- A numeral was too long to convert; such a stop names no line. -/
  | numeral (fault : Text.NumeralTooLong)
  /-- A number has too many digits to be written in a message. -/
  | unwritable
  /-- A record that a caller wants encoded as an instruction has no operation. -/
  | noOperation
  /-- A data record that a caller wants encoded has no value. -/
  | noValue
  /-- A caller wants operands read for a mnemonic that belongs to no instruction. -/
  | noInstruction
  deriving DecidableEq, Repr

def Abort.message : Abort → Text
  | .error report => report.text
  | .numeral fault => fault.message
  | .unwritable => Text.unwritableMessage
  | .noOperation => "'NoneType' object has no attribute 'upper'"
  | .noValue => "'NoneType' object has no attribute 'name'"
  | .noInstruction => "'NoneType' object has no attribute 'iclass'"

/-- A computation that adds to a log and may stop.  What it added before it stopped stays. -/
abbrev Recorder := EStateM Abort Log

namespace Recorder

variable {α : Type}

def write (numbers : List Int) : Recorder Unit :=
  if ∀ n ∈ numbers, Text.Writable n then pure () else throw .unwritable

/-- Puts the message together, records the warning, and shows it with its place. -/
def warn (warning : Warning) : Recorder Unit := do
  write warning.cause.numbers
  modify (· ++ [warning])
  write warning.line.toList

def warnIf (due : Prop) [Decidable due] (warning : Warning) : Recorder Unit :=
  if due then warn warning else pure ()

/-- Stops for a reason.  The text of an error is put together first. -/
def stop : Abort → Recorder α
  | .error report => do
      write report.numbers
      throw (.error report)
  | abort => throw abort

/-- A part that gives rise to no warnings. -/
def quietly : Except Abort α → Recorder α
  | .ok value => pure value
  | .error abort => stop abort

end Recorder

end TwoPass
