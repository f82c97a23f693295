import NodeStore.Node.Basic
import NodeStore.Record.ChannelMap

/-!
# Migration of legacy files

Before there was a store, seven settings lived in files of the storage directory, and the channel
map in a file of the protocol engine's directory. A migration copies each setting's text, without
blanks around it, into the store, and moves the channel map into it; a missing file is not an
error, and a failure with one file is noted and does not stop the others. The files of settings
are kept. The file of the channel map goes only after every pair has been saved.
-/

namespace NodeStore.Migration

/-- The subsystem that migration logs under. -/
def subsystem : String := "storage.migration"

/-- The settings that have files; file and key have the same name. -/
def settingKeys : List String :=
  ["indexer_url", "proxy_endpoint", "bitcoin_network", "wallet_fingerprint",
    "wallet_account_xpub_colored", "wallet_account_xpub_vanilla", "wallet_master_fingerprint"]

/-- The name of the file of the channel map. -/
def channelFile : String := "channel_ids"

/-- The value of a setting's file: its text with line feeds and without blanks around it. -/
def settingOfBytes (b : Bytes) : Except Utf8.Fault String :=
  (Utf8.decode b).map fun s => Text.strip (Text.withLineFeeds s)

/-- A file is there; it is logged whether one was found. -/
def isFound (path : Path) (name : String) : NodeM Bool := do
  if (← Node.onHost (Host.find? path)).isSome then
    Node.say LogLevel.info subsystem s!"Found existing {name} file, migrating to database"
    return true
  else
    Node.say LogLevel.info subsystem s!"No existing {name} file found, skipping migration"
    return false

/-- The bytes of a legacy file. -/
def readFile (path : Path) : NodeM Bytes := do
  let h := (← get).host
  match h.files.read h.workDir path with
  | .ok b => return b
  | .error fault => throw (.transfer (.unreadable path.toString fault))

/-- Copies a setting's file into the store; answers whether there was one. -/
def migrateSetting (storageDir : Path) (key : String) : NodeM Bool := do
  let path := storageDir / key
  if ← isFound path key then
    match settingOfBytes (← readFile path) with
    | .error fault => throw (.transfer (.notText path.toString fault))
    | .ok value =>
      Node.onStore (Store.saveSetting key (some value))
      Node.say LogLevel.info subsystem s!"Successfully migrated {key} from file to database"
      return true
  else return false

/-- Saves the pairs of a channel map, in order. -/
def savePairs : List (Bytes × Bytes) → NodeM Unit
  | [] => return
  | (temporary, final) :: rest => do
    Node.onStore (Store.saveChannelId temporary final)
    savePairs rest

/-- Moves the channel map into the store; answers with the number of its pairs. -/
def migrateChannels (protocolDir : Path) : NodeM Nat := do
  let path := protocolDir / channelFile
  if ← isFound path channelFile then
    match ChannelMap.decode (← readFile path) with
    | .error fault => throw (.transfer (.notAChannelMap fault))
    | .ok map =>
      savePairs map.entries
      let count := map.entries.length
      Node.say LogLevel.info subsystem
        s!"Successfully migrated {count} channel ID mappings from file to database"
      Node.onHost (SecretHandle.removeOld path subsystem channelFile
        (some s!"Removed old {channelFile} file after migration"))
      return count
  else return 0

/-- Tries a step. A failure within the tree of kinds is logged and handed to the second
continuation; any other failure ends the migration. -/
def attempt {α β : Type} (name : String) (step : NodeM α) (done : α → β) (failed : Failure → β) :
    NodeM β :=
  tryCatch (done <$> step) fun e => do
    if e.isStore then
      Node.say LogLevel.error subsystem (s!"Failed to migrate {name}: " ++ e.message)
      return failed e
    else throw e

/-- Notes the outcome for a setting. -/
def MigrationReport.note (r : MigrationReport) (key : String) (found : Bool) : MigrationReport :=
  if found then { r with migrated := r.migrated ++ [key] }
  else { r with skipped := r.skipped ++ [key] }

/-- Notes a failure. -/
def MigrationReport.fail (r : MigrationReport) (key : String) (e : Failure) : MigrationReport :=
  { r with failed := Assoc.put key e r.failed }

/-- Copies the files of the given settings. -/
def migrateSettings (storageDir : Path) : List String → MigrationReport → NodeM MigrationReport
  | [], r => return r
  | key :: rest, r => do
    let r ← attempt key (migrateSetting storageDir key) (MigrationReport.note r key)
      (MigrationReport.fail r key)
    migrateSettings storageDir rest r

/-- Migrates everything that is left in two directories. -/
def run (storageDir protocolDir : Path) : NodeM MigrationReport := do
  if (← Node.onHost (Host.find? storageDir)) ≠ some .folder then
    throw (.transfer (.noStorage storageDir.toString))
  let r ← migrateSettings storageDir settingKeys {}
  attempt channelFile (migrateChannels protocolDir) (fun n => { r with channelIds := n })
    (MigrationReport.fail r channelFile)

end NodeStore.Migration
