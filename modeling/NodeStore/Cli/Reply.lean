import NodeStore.Cli.Command
import NodeStore.Node.Lifecycle
import NodeStore.Text.Escape

/-!
# Replies

The work of each command on a node, and how its reply is told to the operator.
-/

namespace NodeStore.Cli

/-- What a command answers. -/
inductive Reply where
  /-- The phrase is told if it was not handed over. -/
  | initialized (newPhrase : Option String)
  | unlocked (words : Nat)
  | restored
  | migrated (migration : MigrationReport) (sync : SyncReport)
  | setting (key : String) (value : Option Cell)
  | saved (key : String)
  | published (sync : SyncReport)
  | peers (peers : List (String × String))
  | removed (key : String) (found : Bool)
  | revoked
  | revokedIds (ids : List Bytes)
deriving DecidableEq, Repr

/-! ## Work -/

/-- Draws a new phrase from the host's randomness. -/
def newPhrase : HostM String := fun h =>
  let (result, entropy) := (Vault.newPhrase 128).run h.entropy
  (result, { h with entropy })

/-- The phrase to store: the one that is given unless it is empty, or else a new one. -/
def phraseToStore : Option String → NodeM String
  | none | some "" => Node.onHost newPhrase
  | some phrase => return phrase

namespace Command

/-- Migrates legacy files and publishes the settings as the node is opened. -/
def startsNode : Command → Bool
  | migrate => true
  | _ => false

/-- Why a command is not carried out at all. -/
def usageFault? : Command → Option UsageFault
  | revoke id =>
    match Hex.decodePairs id.toList with
    | .ok _ => none
    | .error _ => some (.notHex "REVOCATION_ID" "revocation id")
  | _ => none

/-- The work of a command on an open node. -/
def work : Command → NodeM Reply
  | init phrase password => do
    Node.onSecret fun _ => SecretStore.checkUninitialized
    let stored ← phraseToStore phrase
    Node.onSecret fun store => store.save password stored
    return .initialized (if (phrase.getD "").isEmpty then some stored else none)
  | unlock password => do
    let phrase ← Node.onSecret fun store => store.get password
    return .unlocked (Text.words phrase).length
  | restore password => do
    discard (Node.restorePhrase (← get).node.config.storageDir password)
    return .restored
  | migrate => do
    let node := (← get).node
    return .migrated (node.lastMigration.getD {}) (node.lastSync.getD {})
  | showSetting key => do return .setting key (← Node.onStore (Store.loadSetting key))
  | saveSetting key value publishes => do
    Node.onStore (Store.saveSetting key (some value))
    if publishes then discard Node.sync
    return .saved key
  | publish => do return .published (← Node.sync)
  | listPeers => do return .peers (← Node.onStore Store.loadPeers)
  | removePeer key => do return .removed key (← Node.onStore (Store.deletePeer (.text key)))
  | revoke id => do
    Node.onStore (Store.revoke (.text id))
    return .revoked
  | listRevoked => do return .revokedIds (← Node.onStore Store.loadRevoked)

end Command

/-! ## Wording -/

namespace Reply

/-- Names in a row, or a hyphen if there are none. -/
def names (xs : List String) : String :=
  let s := ", ".intercalate xs
  if s = "" then "-" else s

/-- A line that the operator is told. -/
def line (s : String) : String :=
  Text.withoutEscapes s ++ "\n"

/-- A stored value as it is shown. -/
def shown : Cell → String
  | .text s => line s
  | .blob b => Utf8.shown b ++ "\n"

/-- What the operator is told, or why the command did not succeed. -/
def text : Reply → Except String String
  | initialized none => .ok (line "✓ Node initialized")
  | initialized (some phrase) =>
    .ok (line "✓ Node initialized" ++ line ("  Mnemonic: " ++ phrase) ++
      line "  ⚠️  Write these words down - they cannot be recovered!")
  | unlocked n => .ok (line s!"✓ Unlocked ({n}-word seed)")
  | restored => .ok (line "✓ Mnemonic migrated to database")
  | migrated r sync =>
    .ok (line ("Migrated: " ++ names r.migrated) ++
      line s!"Channel ID mappings migrated: {r.channelIds}" ++
      String.join (r.failed.map fun (key, e) => line ("❌ " ++ key ++ ": " ++ e.message)) ++
      line ("Synced: " ++ names sync.written))
  | setting key none => .error (key ++ " is not set")
  | setting _ (some value) => .ok (shown value)
  | saved key => .ok (line ("✓ " ++ key ++ " saved"))
  | published sync => .ok (line ("Synced: " ++ names sync.written))
  | peers [] => .ok (line "No peers found.")
  | peers ps =>
    .ok (String.join ((ps.mergeSort fun a b => a.1 ≤ b.1).map fun (key, address) =>
      line ("  " ++ key ++ "@" ++ address)))
  | removed key true => .ok (line ("✓ Removed " ++ key))
  | removed key false => .ok (line ("Peer " ++ key ++ " not found"))
  | revoked => .ok (line "✓ Token revoked")
  | revokedIds ids =>
    .ok (String.join (((ids.map Hex.encode).mergeSort fun a b => a ≤ b).map fun id =>
      line ("  " ++ id)))

end Reply

end NodeStore.Cli
