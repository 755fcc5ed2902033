import TwoPass.Text.Utf8

/-!
# Files of the system

A path is text with slashes between names, and the system knows it by its bytes.  A byte that is no
part of a character stands in the text of a path as a surrogate.

The system itself is left open: what it answers and which paths it refuses is its own business.  Two
things are asked of it.  A refused write changes nothing, so that it has no state to give back.  An
accepted write replaces the whole content of one file, and nothing else.
-/

namespace TwoPass

namespace Path

def here : Text := "."

def names (path : Text) : List Text :=
  (path.splitOn (.char '/')).filter (fun name => !name.isEmpty)

/-- The slashes that a normal form starts with: exactly two stay two, any other number is one. -/
def root (path : Text) : Text :=
  match (path.takeWhile (fun c => c == .char '/')).length with
  | 0 => []
  | 2 => "//"
  | _ => "/"

/-- The normal form drops what does not matter for finding the file: empty names, names that stand for
the directory itself, and a slash at the end.  Steps to the parent directory stay, because a name
before them may be missing.  The empty path is the directory itself. -/
def normal (path : Text) : Text :=
  let kept := (names path).filter (fun name => name != here)
  let text := root path ++ "/".text.intercalate kept
  if text.isEmpty then here else text

/-- The byte that a surrogate in a path stands for. -/
def escapedByte? (offset : Fin 2048) : Option UInt8 :=
  if 0x480 ≤ offset.val && offset.val < 0x500 then some (UInt8.ofNat (offset.val - 0x400)) else none

/-- The bytes of the part of a path that starts at `position`. -/
def encodeFrom (position : Nat) : Text → Except Utf8.EncodeFault Bytes
  | [] => .ok []
  | .char c :: rest => (encodeFrom (position + 1) rest).map (Utf8.encodeChar c ++ ·)
  | .surrogate offset :: rest =>
      match escapedByte? offset with
      | some byte => (encodeFrom (position + 1) rest).map (byte :: ·)
      | none => .error ⟨position, offset, Utf8.leadingSurrogates rest + 1⟩

inductive Fault where
  | nullCharacter
  | unencodable (fault : Utf8.EncodeFault)
  deriving DecidableEq, Repr

def Fault.message : Fault → Text
  | .nullCharacter => "embedded null byte"
  | .unencodable fault => fault.message

/-- The bytes by which the system knows a path. -/
def bytes (path : Text) : Except Fault Bytes :=
  match encodeFrom 0 path with
  | .error fault => .error (.unencodable fault)
  | .ok bytes => if bytes.contains 0 then .error .nullCharacter else .ok bytes

/-- A path as a complaint about arguments shows it, with a replacement for bytes that are no part of a
character. -/
def shown (path : Text) : Text :=
  match bytes path with
  | .error _ => path
  | .ok bytes => Utf8.decodeLeniently bytes

end Path

/-- What the system says when it refuses: the number of the error and its description. -/
structure SystemError where
  number : Nat
  description : Text
  deriving DecidableEq, Repr

inductive FileFault where
  | badPath (fault : Path.Fault)
  | system (error : SystemError) (path : Text)
  deriving DecidableEq, Repr

/-- A path that names nothing is not shown. -/
def FileFault.message : FileFault → Text
  | .badPath fault => fault.message
  | .system error path =>
      "[Errno " ++ Text.ofNat error.number ++ "] " ++ error.description ++ ": " ++ Text.inQuotes path

structure Status where
  isDirectory : Bool
  readable : Bool
  deriving DecidableEq, Repr

/-- The files of a system: which one a path leads to, and what it holds.  The frame is everything else
there is, such as directories and permissions. -/
class FileTree (σ : Type) where
  File : Type
  Frame : Type
  file? : σ → Bytes → Option File
  content? : σ → File → Option Bytes
  frame : σ → Frame

namespace FileTree

variable {σ : Type} [FileTree σ]

/-- The only difference between the two states is the content of one file, and the path leads there. -/
structure Updated (before after : σ) (path content : Bytes) : Prop where
  content : ∃ file, file? after path = some file ∧ content? after file = some content ∧
    ∀ other, other ≠ file → content? after other = content? before other
  file : ∀ other found, file? before other = some found → file? after other = some found
  frame : FileTree.frame after = FileTree.frame before

end FileTree

/-- A system of files, with what it answers to the requests of a program. -/
class FileSystem (σ : Type) extends FileTree σ where
  status : σ → Bytes → Except SystemError Status
  read : σ → Bytes → Except SystemError Bytes
  write : σ → Bytes → Bytes → Except SystemError σ
  updated_of_write : ∀ {before after : σ} {path content : Bytes},
    write before path content = .ok after → FileTree.Updated before after path content

namespace FileSystem

variable {σ : Type} [FileSystem σ]

def readFile (system : σ) (path : Text) : Except FileFault Bytes :=
  match Path.bytes path with
  | .error fault => .error (.badPath fault)
  | .ok bytes =>
      match read system bytes with
      | .error error => .error (.system error path)
      | .ok content => .ok content

def writeFile (system : σ) (path : Text) (content : Bytes) : Except FileFault σ :=
  match Path.bytes path with
  | .error fault => .error (.badPath fault)
  | .ok bytes =>
      match write system bytes content with
      | .error error => .error (.system error path)
      | .ok system => .ok system

end FileSystem

end TwoPass
