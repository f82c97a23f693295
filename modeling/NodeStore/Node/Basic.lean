import NodeStore.Config
import NodeStore.SecretStore.Handle
import NodeStore.Store.Handle

/-!
# Nodes

A node has its configuration, an open relational store and an open secret store, and remembers
the reports of the last migration and the last publication of its settings.
-/

namespace NodeStore

/-- What a migration of legacy files did. -/
structure MigrationReport where
  migrated : List String := []
  skipped : List String := []
  failed : List (String × Failure) := []
  /-- The number of channel ids that were moved. -/
  channelIds : Nat := 0
deriving DecidableEq, Repr

/-- Nothing failed. -/
def MigrationReport.ok (r : MigrationReport) : Bool :=
  r.failed.isEmpty

/-- The settings that were published as files. -/
structure SyncReport where
  written : List String := []
deriving DecidableEq, Repr

/-- A node whose stores were opened. -/
structure Node where
  config : Config
  store : StoreHandle
  secret : SecretHandle
  /-- The report of this node's one migration, once it has run. -/
  migration : Option MigrationReport := none
  lastMigration : Option MigrationReport := none
  lastSync : Option SyncReport := none
deriving DecidableEq, Repr

/-- A node and its host. -/
structure NodeState where
  node : Node
  host : Host

/-- An operation of a node. What it did stays also when it fails. -/
abbrev NodeM := ExceptT Failure (StateM NodeState)

namespace Node

/-- An operation on the host. -/
def onHost {α : Type} (op : HostM α) : NodeM α := fun s =>
  let (result, host) := (op.run).run s.host
  (result, { s with host })

/-- An operation of the relational store. -/
def onStore {α : Type} (op : StoreM α) : NodeM α := fun s =>
  let (result, store, host) := s.node.store.run op s.host
  (result, { node := { s.node with store }, host })

/-- An operation of the secret store. -/
def onSecret {α : Type} (op : SecretStore → SecretM α) : NodeM α := do
  onHost ((← get).node.secret.run op)

/-- Logs a message. -/
def say (level : Int) (subsystem message : String) : NodeM Unit :=
  onHost (Host.say level subsystem message)

/-- Runs an operation on a node: its result, and the node and the host afterwards. -/
def run {α : Type} (op : NodeM α) (node : Node) (host : Host) :
    Except Failure α × Node × Host :=
  let (result, s) := (ExceptT.run op).run ⟨node, host⟩
  (result, s.node, s.host)

/-- Moves the sealed phrase of a folder's file into the secret store. -/
def restorePhrase (folder : Path) (password : RawText) : NodeM String := do
  onHost ((← get).node.secret.restore folder password)

/-- Closes both stores. The relational one opens again when it is used. -/
def close : NodeM Unit := do
  onStore Store.close
  modify fun s => { s with node := { s.node with secret := { s.node.secret with closed := true } } }

end Node

end NodeStore
