import NodeStore.Host
import NodeStore.Record.Basic

/-!
# Files of records

A record is read with its empty default in place of a file that is missing or does not read. It
is written to a temporary file beside its path, flushed, and moved over the path; if anything
fails the temporary file is discarded. If that fails too, it stays, and this failure is the one that
is told.
-/

namespace NodeStore.RecordFile

/-- The subsystem that reading logs under. -/
def subsystem : String := "codec"

/-- The record of a file, or the empty one of its kind. -/
def readOrDefault (kind : RecordKind) (path : Path) : HostM Record := do
  let h ← get
  match h.files.read h.workDir path with
  | .error fault =>
    if fault.isSystem then return kind.default else throw (.file fault)
  | .ok b =>
    match kind.decode b with
    | .ok r => return r
    | .error e =>
      Host.say LogLevel.debug subsystem
        ("Falling back to empty " ++ kind.name ++ " for " ++ path.toString ++ ": " ++ e.message)
      return kind.default

/-- Characters that a temporary name adds to a name. -/
def temporaryExtra : Nat := 10

/-- The names that are tried for the temporary file. -/
def temporaryName (name : String) (i : Nat) : String :=
  "." ++ name ++ "." ++ Text.decimal i

/-- A place in a folder at which nothing is, for a file that is to become one with a name. -/
def temporaryPlace (files : FileTree) (folder : Place) (name : String) : Place :=
  let free := (List.range (files.entries.length + 1)).find? fun i =>
    (files.entry? (folder ++ [temporaryName name i])).isNone
  folder ++ [temporaryName name (free.getD 0)]

/-- Moves a file over the target that a path names; a folder is in the way. -/
def moveOver (files : FileTree) (source : Place) (path : Path) (target : Place)
    (content : Bytes) : Except FileFault FileTree :=
  if path.name = "" ∨ path.name = ".." then .error .busy
  else
    match files.entry? target with
    | some .folder => .error .isDirectory
    | _ => .ok ((files.put target (.file content)).erase source)

/-- Moves the temporary file over the target, once what a record was encoded as is on disk in it. -/
def flushAndMove (files : FileTree) (flushFails : Bool) (encoded : Except Failure Bytes)
    (source : Place) (path : Path) (target : Place) : Except Failure FileTree := do
  let content ← encoded
  if flushFails then .error (.file .inputOutput)
  else (moveOver files source path target content).mapError .file

/-- Replaces a target through a temporary file in a folder. It holds what the record was encoded as,
or nothing if it was not. -/
def replace (files : FileTree) (flushFails discardFails : Bool) (encoded : Except Failure Bytes)
    (folder : Place) (path : Path) (target : Place) : Except Failure Unit × FileTree :=
  let source := temporaryPlace files folder path.name
  let begun := files.put source (.file (encoded.toOption.getD []))
  match flushAndMove begun flushFails encoded source path target with
  | .ok files => (.ok (), files)
  | .error e =>
    if discardFails then (.error (.file .permissionDenied), begun)
    else (.error e, begun.erase source)

/-- Writes what a record was encoded as, if it was, to a path. -/
def deposit (encoded : Except Failure Bytes) (path : Path) : HostM Unit := do
  Host.makeAll path.parent
  let h ← get
  let folder ← liftM ((h.files.resolve h.workDir path.parent).mapError Failure.file)
  let target ← liftM ((h.files.resolve h.workDir path).mapError Failure.file)
  if FileTree.maxName < (Utf8.encode path.name).length + temporaryExtra then
    throw (.file .nameTooLong)
  else
    let (written, files) := replace h.files h.flushFails h.discardFails encoded folder path target
    set { h with files }
    liftM written

/-- Writes a record to a path. -/
def write (record : Record) (path : Path) : HostM Unit :=
  deposit record.encode path

end NodeStore.RecordFile
