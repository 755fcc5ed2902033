import TwoPass.Command.Run
import TwoPass.Storage.Store

/-!
# The command on the host's files

The directories and files that the arguments name are gathered into a store, the command runs on it,
and the files it changed are written back.
-/

namespace TwoPass.Host

def string (text : Text) : String :=
  String.ofList (text.map CodePoint.toChar)

/-- The host's name for a place in the store. -/
def hostPath (names : List Bytes) : String :=
  "/" ++ "/".intercalate (names.map (fun name => string (Utf8.decodeLeniently name)))

/-- Adds to the store what the host has at a place. -/
def gatherOne (store : Store) (names : List Bytes) : IO Store := do
  try
    let bytes ← IO.FS.readBinFile (hostPath names)
    return store.addFile names bytes.toList
  catch
    | .inappropriateType _ 21 _ => return store.addDirectory names
    | _ => return store

/-- Adds a path and everything on the way to it. -/
def gatherPath (store : Store) (path : Text) : IO Store :=
  match Path.bytes path with
  | .error _ => return store
  | .ok bytes =>
      let names := Store.absolute store.home bytes
      (List.range names.length).foldlM
        (fun store count => gatherOne store (names.take (count + 1))) store

/-- The part of the host's files that the arguments name. -/
def gather (arguments : List Text) : IO Store := do
  let start : Store :=
    match Path.bytes (← IO.currentDir).toString.text with
    | .error _ => Store.empty
    | .ok home => Store.startingIn (Store.names home)
  match Command.Arguments.initial.read arguments with
  | .error _ => return start
  | .ok arguments => arguments.paths.foldlM gatherPath start

/-- Writes back every file that differs from what it was. -/
def settle (before after : Store) : IO Unit :=
  for (names, content) in after.files do
    if before.content? names != some content then
      IO.FS.writeBinFile (hostPath names) (ByteArray.mk content.toArray)

end TwoPass.Host

def main (args : List String) : IO UInt32 := do
  let arguments := args.map String.text
  let store ← TwoPass.Host.gather arguments
  let outcome := TwoPass.Command.run store arguments
  IO.print (TwoPass.Host.string (TwoPass.Text.unlines outcome.output.out))
  IO.eprint (TwoPass.Host.string (TwoPass.Text.unlines outcome.output.err))
  match outcome.refusal with
  | some (.usage fault) =>
      IO.eprintln (TwoPass.Host.string TwoPass.Command.usage)
      IO.eprintln "Try 'c6461asm --help' for help.\n"
      IO.eprintln (TwoPass.Host.string ("Error: " ++ fault.message))
  | some (.path fault) => IO.eprintln (TwoPass.Host.string ("Error: " ++ fault.message))
  | none => TwoPass.Host.settle store outcome.system
  return UInt32.ofNat outcome.exitCode
