import NodeStore.Cli.Run
import NodeStore.Table.Image
import Std.Time.Format

/-!
# The program

The outer layer of the command line. The files that a command can touch are read into the machine
that it runs on, and what it changed is written back. A database is on disk as its image. Typed
input is read only by a command that asks for a password.
-/

namespace NodeStore.Program

/-- The name of a place on disk. -/
def diskPath (p : Place) : String :=
  "/" ++ "/".intercalate p

/-- What stands at a place on disk, if it is a file that can be read. -/
def readEntry (p : Place) : IO (Option FileEntry) := do
  try
    let b := (← IO.FS.readBinFile (diskPath p)).toList
    match Tables.ofBytes? b with
    | some tables => return some (.database tables)
    | none => return some (.file b)
  catch _ => return none

/-- The folders that a place lies in. -/
def ancestors (p : Place) : List Place :=
  (List.range p.length).map p.take

/-- Reads the file of a path into a machine. -/
def readInto (h : Host) (p : Path) : IO Host := do
  let place := (if p.isAbsolute then [] else h.workDir) ++ p.parts
  match ← readEntry place with
  | none => return h
  | some e =>
    let files := (ancestors place).foldl (fun t q => t.put q .folder) h.files
    return { h with files := files.put place e }

/-- The paths that a command looks at under a configuration. -/
def pathsOf (c : Config) : List Path :=
  [c.storageDir, c.protocolDataDir, c.logDir, c.storePath, c.secretPath,
    c.storageDir / SecretHandle.phraseFile, c.protocolDataDir / Migration.channelFile,
    c.logDir / Logging.fileName] ++ Publication.keys.map fun key => c.storageDir / key

/-- Writes what stands at a place to disk. -/
def writeEntry : Place × FileEntry → IO Unit
  | (p, .folder) => IO.FS.createDirAll (diskPath p)
  | (p, .file b) => IO.FS.writeBinFile (diskPath p) ⟨b.toArray⟩
  | (p, .database tables) => IO.FS.writeFile (diskPath p) tables.image

/-- Writes the changes that a command made. -/
def writeChanges (before after : FileTree) : IO Unit := do
  for (p, e) in after.entries do
    if before.entry? p ≠ some e then writeEntry (p, e)
  for (p, _) in before.entries do
    if (after.entry? p).isNone then IO.FS.removeFile (diskPath p)

/-- The variables of the environment that a command looks at. -/
def environment : IO Environment := do
  let mut env := []
  for name in "HOME" :: Config.fields.map Config.variableOf do
    if let some value ← IO.getEnv name then
      env := env ++ [(name, value)]
  return env

/-- The machine that a command runs on, without files but its own folder. -/
def emptyMachine : IO Host := do
  let now ← Std.Time.Timestamp.now
  let clock := Std.Time.PlainDateTime.ofWallTime
    (Std.Time.WallTime.ofNanoseconds now.toNanosecondsSinceUnixEpoch)
  let workDir := (Path.ofString (← IO.currentDir).toString).parts
  let folders := (workDir :: ancestors workDir).map fun p => (p, FileEntry.folder)
  let random ← IO.getRandomBytes 64
  return {
    files := ⟨folders⟩
    workDir
    entropy := Entropy.ofBytes random.toList
    time := now.toSecondsSinceUnixEpoch.val.toNat
    stamp := clock.format "uuuu-MM-dd HH:mm:ss"
    cipher := TokenCipher.fernet }

/-- The machine with the files that a command line looks at. -/
def loadMachine (call : Cli.Call) : IO Host := do
  let h ← emptyMachine
  match Cli.select Cli.Settings.forms Cli.entries call.words with
  | .ok (.entry options ..) =>
    let settings := Cli.Settings.ofScanned options
    let h ← match settings.envFile with
      | some file => readInto h (Path.ofString file)
      | none => pure h
    match (ExceptT.run (settings.configuration call.environment)).run h with
    | (.ok config, _) => (pathsOf config).foldlM readInto h
    | (.error _, _) => return h
  | _ => return h

/-- What is typed. -/
def typed : IO String := do
  return "\n".intercalate (← (← IO.getStdin).lines).toList

end NodeStore.Program

open NodeStore Program in
/-- Runs a command line. -/
def main (words : List String) : IO UInt32 := do
  let call : Cli.Call := { words, environment := ← environment }
  let before ← loadMachine call
  let first := Cli.run call before
  let (outcome, after) ← match first.1.ending with
    | .aborted => pure (Cli.run { call with input := ← typed } before)
    | _ => pure first
  IO.print outcome.output
  if let .crashed failure := outcome.ending then
    IO.eprintln failure.message
  writeChanges before.files after.files
  return outcome.ending.code.toUInt32
