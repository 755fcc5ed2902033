import TwoPass.Text.Numeral
import TwoPass.Text.Quoted

/-!
# UTF-8

Files hold UTF-8.  A text with a surrogate in it has no encoding, and what stands in the way is
reported with its position.  Decoding is strict: an overlong form, an encoded surrogate, a code point
beyond the last plane or a cut-off sequence is a fault, reported with the bytes it covers.
-/

namespace TwoPass

abbrev Bytes := List UInt8

namespace Utf8

/-- A byte that continues a sequence: six bits below the continuation mark. -/
def continuation (bits : Nat) : UInt8 :=
  UInt8.ofNat (0x80 + bits % 64)

/-- The bytes of one character: a lead byte that tells how many follow, then six bits each. -/
def encodeChar (c : Char) : Bytes :=
  let n := c.toNat
  if n < 0x80 then [UInt8.ofNat n]
  else if n < 0x800 then [UInt8.ofNat (0xC0 + n / 64), continuation n]
  else if n < 0x10000 then
    [UInt8.ofNat (0xE0 + n / 4096), continuation (n / 64), continuation n]
  else
    [UInt8.ofNat (0xF0 + n / 262144), continuation (n / 4096), continuation (n / 64),
      continuation n]

/-- The surrogates that could not be encoded: where they start, the first of them and their number. -/
structure EncodeFault where
  position : Nat
  first : Fin 2048
  size : Nat
  deriving DecidableEq, Repr

def EncodeFault.message (fault : EncodeFault) : Text :=
  let what : Text :=
    if fault.size = 1 then
      "character '" ++ Text.codeEscape (.surrogate fault.first) ++ "' in position " ++
        Text.ofNat fault.position
    else
      "characters in position " ++ Text.ofNat fault.position ++ "-" ++
        Text.ofNat (fault.position + fault.size - 1)
  "'utf-8' codec can't encode " ++ what ++ ": surrogates not allowed"

def leadingSurrogates : Text → Nat
  | .surrogate _ :: rest => leadingSurrogates rest + 1
  | _ => 0

/-- Encodes the part of a text that starts at `position`. -/
def encodeFrom (position : Nat) : Text → Except EncodeFault Bytes
  | [] => .ok []
  | .char c :: rest => (encodeFrom (position + 1) rest).map (encodeChar c ++ ·)
  | .surrogate offset :: rest => .error ⟨position, offset, leadingSurrogates rest + 1⟩

def encode (text : Text) : Except EncodeFault Bytes :=
  encodeFrom 0 text

inductive Reason where
  | invalidStart
  | invalidContinuation
  | unexpectedEnd
  deriving DecidableEq, Repr

def Reason.message : Reason → Text
  | .invalidStart => "invalid start byte"
  | .invalidContinuation => "invalid continuation byte"
  | .unexpectedEnd => "unexpected end of data"

/-- The bytes that could not be decoded: where they start, the first of them and their number. -/
structure Fault where
  position : Nat
  lead : UInt8
  size : Nat
  reason : Reason
  deriving DecidableEq, Repr

def hexByte (byte : UInt8) : Text :=
  [.char (Nat.digitChar (byte.toNat / 16)), .char (Nat.digitChar (byte.toNat % 16))]

def Fault.message (fault : Fault) : Text :=
  let what : Text :=
    if fault.size = 1 then
      "byte 0x" ++ hexByte fault.lead ++ " in position " ++ Text.ofNat fault.position
    else
      "bytes in position " ++ Text.ofNat fault.position ++ "-" ++
        Text.ofNat (fault.position + fault.size - 1)
  "'utf-8' codec can't decode " ++ what ++ ": " ++ fault.reason.message

/-- The shape of a sequence: how many continuation bytes follow the lead byte, the range of the
first of them, and the bits of the lead byte. -/
structure Lead where
  following : Nat
  low : Nat
  high : Nat
  bits : Nat
  deriving DecidableEq, Repr

/-- The shape that a lead byte announces.  The narrowed ranges exclude overlong forms, surrogates and
code points that do not exist. -/
def Lead.ofByte? (byte : UInt8) : Option Lead :=
  let n := byte.toNat
  if n < 0x80 then some ⟨0, 0x80, 0xBF, n⟩
  else if n < 0xC2 then none
  else if n < 0xE0 then some ⟨1, 0x80, 0xBF, n - 0xC0⟩
  else if n < 0xF0 then
    some ⟨2, if n = 0xE0 then 0xA0 else 0x80, if n = 0xED then 0x9F else 0xBF, n - 0xE0⟩
  else if n < 0xF5 then
    some ⟨3, if n = 0xF0 then 0x90 else 0x80, if n = 0xF4 then 0x8F else 0xBF, n - 0xF0⟩
  else none

/-- What stands after a lead byte: a complete character and the bytes behind it, or how many bytes
fitted before the sequence broke off, and why it did. -/
inductive Tail where
  | complete (code : Nat) (rest : Bytes)
  | broken (fitted : Nat) (reason : Reason)

/-- Reads continuation bytes; only the first of them has a range of its own. -/
def readTail : Nat → Nat → Nat → Nat → Nat → Bytes → Tail
  | 0, _, _, code, _, rest => .complete code rest
  | _ + 1, _, _, _, fitted, [] => .broken fitted .unexpectedEnd
  | following + 1, low, high, code, fitted, byte :: rest =>
      if low ≤ byte.toNat && byte.toNat ≤ high then
        readTail following 0x80 0xBF (code * 64 + (byte.toNat - 0x80)) (fitted + 1) rest
      else .broken fitted .invalidContinuation

/-- One character from the front of the bytes at `position`, with the position and the bytes behind
it. -/
def readChar (position : Nat) (byte : UInt8) (rest : Bytes) : Except Fault (Char × Nat × Bytes) :=
  match Lead.ofByte? byte with
  | none => .error ⟨position, byte, 1, .invalidStart⟩
  | some lead =>
      match readTail lead.following lead.low lead.high lead.bits 1 rest with
      | .complete code after => .ok (Char.ofNat code, position + lead.following + 1, after)
      | .broken fitted reason => .error ⟨position, byte, fitted, reason⟩

/-- Decodes bytes that start at `position`; every character takes at least one byte, so the number of
bytes bounds the number of characters. -/
def decodeFrom : Nat → Nat → Bytes → Except Fault Text
  | _, _, [] => .ok []
  | 0, _, _ :: _ => .ok []
  | fuel + 1, position, byte :: rest =>
      match readChar position byte rest with
      | .error fault => .error fault
      | .ok (c, next, after) =>
          match decodeFrom fuel next after with
          | .error fault => .error fault
          | .ok text => .ok (.char c :: text)

def decode (bytes : Bytes) : Except Fault Text :=
  decodeFrom bytes.length 0 bytes

/-- Decodes bytes with a replacement for every fault, which goes on behind the bytes that it covers. -/
def replaceFrom : Nat → Bytes → Text
  | _, [] => []
  | 0, _ :: _ => []
  | fuel + 1, byte :: rest =>
      match readChar 0 byte rest with
      | .error fault => '�' :: replaceFrom fuel ((byte :: rest).drop fault.size)
      | .ok (c, _, after) => .char c :: replaceFrom fuel after

def decodeLeniently (bytes : Bytes) : Text :=
  replaceFrom bytes.length bytes

end Utf8

end TwoPass
