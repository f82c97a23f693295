import NodeStore.Migration
import NodeStore.Publication
import NodeStore.Record.File

/-!
# The life of a node

Opening a node makes its directories and opens both stores. Starting it also migrates legacy files
and publishes the settings, and closes it again if that fails. A node migrates once: asked again,
it answers with the report that it has.
-/

namespace NodeStore.Node

/-- The subsystem that a node logs under. -/
def subsystem : String := "storage.manager"

/-- Opens a node. -/
def «open» (config : Config) : HostM Node := do
  Host.makeAll config.storageDir
  Host.makeAll config.protocolDataDir
  let store ← StoreHandle.open config.storePath
  let secret ← SecretHandle.open config.secretPath config.iterations
  Host.say LogLevel.info subsystem ("StorageManager initialized at " ++ config.storageDir.toString)
  return { config, store, secret }

/-- Logs that migrations did not succeed. -/
def warnIncomplete : List (String × Failure) → NodeM Unit
  | [] => return
  | (key, e) :: rest => do
    say LogLevel.warning subsystem (s!"Migration of {key} incomplete: " ++ e.message)
    warnIncomplete rest

/-- The report of the node's migration, which runs the first time. -/
def migrationReport : NodeM MigrationReport := do
  let node := (← get).node
  match node.migration with
  | some r => return r
  | none =>
    let r ← Migration.run node.config.storageDir node.config.protocolDataDir
    modify fun s => { s with node := { s.node with migration := some r } }
    return r

/-- Migrates legacy files. -/
def migrate : NodeM MigrationReport := do
  let r ← migrationReport
  warnIncomplete r.failed
  modify fun s => { s with node := { s.node with lastMigration := some r } }
  return r

/-- Publishes the settings. -/
def sync : NodeM SyncReport := do
  let r ← Publication.run (← get).node.config.storageDir Publication.keys
  modify fun s => { s with node := { s.node with lastSync := some r } }
  return r

/-- Opens a node, migrates legacy files and publishes the settings. -/
def start (config : Config) : HostM Node := do
  let node ← «open» config
  let h ← get
  match Node.run (do discard migrate; discard sync) node h with
  | (.ok (), node, h) =>
    set h
    return node
  | (.error e, node, h) =>
    let (_, _, h) := Node.run close node h
    set h
    throw e

end NodeStore.Node
