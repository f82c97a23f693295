import NodeStore.Host
import NodeStore.SecretStore.Basic
import NodeStore.Text.Line

/-!
# Open secret stores

A handle of a secret store: the path of its file, the number of iterations of its keys, and
whether it has been closed. Here a sealed phrase is also moved from the file of a backup into the
store: the file is removed after the phrase has been stored, and a file that cannot be removed is
only logged.
-/

namespace NodeStore

/-- A secret store that was opened. -/
structure SecretHandle where
  path : Path
  iterations : Int
  closed : Bool := false
deriving DecidableEq, Repr

namespace SecretHandle

/-- The store of a handle on a host. -/
def store (s : SecretHandle) (h : Host) : SecretStore :=
  ⟨⟨h.cipher, s.iterations⟩, h.time⟩

/-- The state in which an operation starts. -/
def start (s : SecretHandle) (h : Host) : SecretState :=
  if s.closed then { seeds := none, outage := some .closed, entropy := h.entropy }
  else
    match h.databaseAt s.path with
    | .ok (_, tables) => { seeds := tables.seeds, entropy := h.entropy }
    | .error fault => { seeds := none, outage := some fault, entropy := h.entropy }

/-- Puts the table that an operation left into the file. -/
def writeBack (s : SecretHandle) (seeds : Option (Table Cell)) (h : Host) : Host :=
  if s.closed then h
  else
    match h.databaseAt s.path with
    | .ok (place, tables) =>
      if seeds = tables.seeds then h else h.putTables place { tables with seeds }
    | .error _ => h

/-- Runs an operation: its result and the host afterwards. -/
def run {α : Type} (s : SecretHandle) (op : SecretStore → SecretM α) : HostM α := fun h =>
  let (result, state) := ((op (s.store h)).run).run (s.start h)
  let h := s.writeBack state.seeds { h with entropy := state.entropy }
  (result, h.emitAll state.log)

/-- The name of the file in a folder of its own. -/
def defaultName : String := "rln_db"

/-- Opens the store at a path: its folder is made if nothing is there, then its table. -/
def «open» (path : Path) (iterations : Int) : HostM SecretHandle := do
  Host.makeParent path
  match (← get).databaseAt path with
  | .error .notADatabase =>
    throw (.database (.secret (some "Failed to create mnemonic table") .notADatabase))
  | .error fault => throw (.database (.secret (some "Failed to open database") fault))
  | .ok (place, tables) =>
    modify fun h => h.putTables place tables.createSeeds
    return { path, iterations }

/-- The name of the file with a sealed phrase. -/
def phraseFile : String := "mnemonic"

/-- The text of the file with a sealed phrase. A file that cannot be read counts as none. -/
def readPhraseFile (path : Path) : HostM String := do
  let h ← get
  match h.files.read h.workDir path with
  | .error fault =>
    if fault.isSystem then throw .notInitialized else throw (.file fault)
  | .ok b =>
    match Utf8.decode b with
    | .error fault => throw (.notText fault)
    | .ok s => return Text.withLineFeeds s

/-- Removes a file that is not needed any more. -/
def removeOld (path : Path) (subsystem what : String) (done : Option String) : HostM Unit := do
  match (← get).removeFile path with
  | .ok h =>
    set h
    match done with
    | some message => Host.say LogLevel.info subsystem message
    | none => return
  | .error fault =>
    Host.say LogLevel.warning subsystem
      ("Failed to remove old " ++ what ++ " file: " ++ fault.at path.toString)

/-- Moves the sealed phrase of a folder's file into the store. -/
def restore (s : SecretHandle) (folder : Path) (password : RawText) : HostM String := do
  let path := folder / phraseFile
  let sealedText ← readPhraseFile path
  let store := s.store (← get)
  let phrase ← liftM (store.vault.openPhrase password sealedText)
  s.run fun store => store.save password phrase
  Host.say LogLevel.info SecretStore.subsystem "Migrated mnemonic from file to database"
  removeOld path SecretStore.subsystem "mnemonic" none
  return phrase

end SecretHandle

end NodeStore
