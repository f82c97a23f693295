import NodeStore.ConfigCache
import NodeStore.Logging
import NodeStore.RowCheck
import NodeStore.Table.Tables

/-!
# The relational store

The node's records in the tables of one file: a sealed seed, the addresses of channel peers,
settings with a cache in front of them, channel ids, and revoked tokens. Every operation runs in
one transaction: it either takes effect as a whole or leaves the tables as they are. Outages of
the engine are part of the state, so that what happens under them can be said.

Settings are written through: a save commits to the table and then enters the cache. A load looks
into the cache first, and enters what it read only if nothing has been entered meanwhile.
-/

namespace NodeStore

/-- What is wrong with the engine. -/
structure Outages where
  /-- No transaction is carried out. -/
  transactions : Option DatabaseFault := none
  /-- Settings cannot be read from the table. -/
  reads : Option DatabaseFault := none
  /-- The save of a channel id that fails, counted from the next one. -/
  channelSave : Option Nat := none
  /-- The save of a setting that fails, counted from the next one. -/
  settingSave : Option Nat := none
deriving DecidableEq, Repr

/-- The state of a store: the tables of its file, its cache, and what it has logged. -/
structure StoreState where
  tables : Tables
  cache : ConfigCache Cell := {}
  outages : Outages := {}
  log : List LogLine := []
deriving DecidableEq, Repr

/-- An operation of a store. The state it leaves counts also when it fails. -/
abbrev StoreM := ExceptT Failure (StateM StoreState)

namespace Store

/-- The subsystem that the store logs under. -/
def subsystem : String := "storage.database"

/-- Logs a message. -/
def log (level : Int) (message : String) : StoreM Unit :=
  modify fun s => { s with log := s.log ++ [⟨level, subsystem, message⟩] }

/-- Runs a body in a transaction. -/
def transaction {α : Type} (body : Tables → Except DatabaseFault (α × Tables)) : StoreM α := do
  let s ← get
  match s.outages.transactions with
  | some fault => throw (.database fault)
  | none =>
    match body s.tables with
    | .error fault => throw (.database fault)
    | .ok (a, tables) =>
      set { s with tables }
      return a

/-- The next of the saves that are counted; the counted one fails. -/
def countDown : Option Nat → Bool × Option Nat
  | some 1 => (true, none)
  | some (n + 2) => (false, some (n + 1))
  | other => (false, other)

/-- The fault of a save that was counted. -/
def locked : DatabaseFault := .refused "database is locked"

/-- A table that may be missing. -/
def present {α : Type} (name : TableName) (statement : Option Statement) (t : Option α) :
    Except DatabaseFault α :=
  match t with
  | some a => .ok a
  | none => .error (name.missing statement)

/-! ## The sealed seed -/

/-- Deletes all seeds. -/
def clearSeeds (t : Tables) : Except DatabaseFault Tables := do
  let seeds ← present .seeds none t.seeds
  return { t with seeds := some (seeds.deleteWhere fun _ => true) }

/-- Adds a seed, which must have a text. -/
def insertSeed (sealedText : Option String) (t : Tables) : Except DatabaseFault Tables := do
  let seeds ← present .seeds none t.seeds
  match sealedText with
  | none => .error TableName.seeds.noValue
  | some text => return { t with seeds := some (seeds.append (.text text)) }

/-- Replaces the stored seed; exactly one row remains. -/
def saveSeed (sealedText : Option String) : StoreM Unit := do
  log LogLevel.info "Saving mnemonic to database"
  transaction fun t => do
    let cleared ← clearSeeds t
    return ((), ← insertSeed sealedText cleared)
  log LogLevel.info "Mnemonic saved successfully"

/-- The stored seed. -/
def loadSeed : StoreM Cell := do
  log LogLevel.info "Loading mnemonic from database"
  let row ← transaction fun t => do
    let seeds ← present .seeds none t.seeds
    return (seeds.rows.head?, t)
  match row with
  | some r => return r.data
  | none => throw .notInitialized

/-- A seed is stored. -/
def hasSeed : StoreM Bool := do
  let initialized ← transaction fun t => do
    let seeds ← present .seeds none t.seeds
    return (!seeds.rows.isEmpty, t)
  log LogLevel.info ("Already initialized: " ++ if initialized then "True" else "False")
  return initialized

/-! ## Channel peers -/

/-- The canonical spelling of a peer's key, which may be given as text or as bytes. -/
def peerKey (key : Value) : Except Failure String :=
  let key := match key with
    | .blob b => .text (Hex.encode b)
    | key => key
  (RowCheck.publicKey key).mapError fun p => .invalidPeer (.given p)

/-- Creates a peer or changes its address. The key is checked before the address. -/
def savePeer (key address : Value) : StoreM Unit := do
  let key ← liftM (peerKey key)
  let address ← liftM ((RowCheck.socketAddress address).mapError fun p =>
    Failure.invalidPeer (.given p))
  log LogLevel.info s!"Saving channel peer to database: {key}@{address}"
  transaction fun t => do
    let peers ← present .peers (some (TableName.peers.lookup key)) t.peers
    return ((), { t with peers := some (peers.upsert (.text key) (.text address)) })

/-- A row of the table of peers. -/
def checkPeer (row : Cell × Cell) : Except PeerFault (String × String) := do
  let key ← (RowCheck.publicKey row.1.toValue).mapError .storedKey
  let address ← (RowCheck.socketAddress row.2.toValue).mapError .given
  return (key, address)

/-- The addresses of all peers. The first malformed row is refused. -/
def loadPeers : StoreM (List (String × String)) := do
  let rows ← transaction fun t => do
    let peers ← present .peers none t.peers
    return (peers.rows, t)
  let peers ← liftM <| (rows.mapM fun r => checkPeer r.data).mapError Failure.invalidPeer
  let peers := Assoc.ofList peers
  log LogLevel.debug s!"Loaded {peers.length} channel peers from database"
  return peers

/-- Removes a peer; answers whether there was one. -/
def deletePeer (key : Value) : StoreM Bool := do
  let key ← liftM (peerKey key)
  log LogLevel.info s!"Deleting channel peer from database: {key}"
  let count ← transaction fun t => do
    let peers ← present .peers none t.peers
    let isIt (d : Cell × Cell) : Bool := d.1 == .text key
    return (peers.countWhere isIt, { t with peers := some (peers.deleteWhere isIt) })
  if count = 0 then
    log LogLevel.warning s!"Channel peer not found for deletion: {key}"
    return false
  else
    log LogLevel.info "Channel peer deleted successfully"
    return true

/-! ## Settings -/

/-- Commits a setting to the table. -/
def commitSetting (key : String) (value : Option String) : StoreM Unit :=
  transaction fun t => do
    let settings ← present .settings (some (TableName.settings.lookup key)) t.settings
    match value with
    | none => .error TableName.settings.noValue
    | some v => return ((), { t with settings := some (settings.upsert (.text key) (.text v)) })

/-- Enters what is known of a setting into the cache. -/
def enterSetting (key : String) (value : Option Cell) : StoreM Unit :=
  modify fun s => { s with cache := s.cache.store key value }

/-- Fails if this is the save that was counted. -/
def countSettingSave : StoreM Unit := do
  let s ← get
  let (fails, rest) := countDown s.outages.settingSave
  set { s with outages := { s.outages with settingSave := rest } }
  if fails then throw (.database locked)

/-- The text of a value that may be missing. -/
def shown (value : Option String) : String :=
  value.getD "None"

/-- Saves a setting and enters it into the cache. -/
def saveSetting (key : String) (value : Option String) : StoreM Unit := do
  countSettingSave
  log LogLevel.info s!"Saving RGB config to database: {key} = {shown value}"
  commitSetting key value
  enterSetting key (value.map .text)

/-- Saves a setting without a name: no row has none, and a new one must have one. -/
def saveUnnamedSetting (value : Option String) : StoreM Unit := do
  countSettingSave
  log LogLevel.info s!"Saving RGB config to database: None = {shown value}"
  transaction fun t => do
    let _ ← present .settings (some TableName.settings.lookupUnnamed) t.settings
    .error TableName.settings.noKey

/-- What the cache knows of a setting. -/
def cachedSetting (key : String) : StoreM (Option (Option Cell)) := do
  return (← get).cache.lookup key

/-- Reads a setting from the table. -/
def readSetting (key : String) : StoreM (Option Cell) := do
  match (← get).outages.reads with
  | some fault => throw (.database fault)
  | none =>
    transaction fun t => do
      let settings ← present .settings none t.settings
      return (settings.valueOf? (.text key), t)

/-- Enters what was read of a setting unless the cache knows it by now; answers with what the
cache knows afterwards. -/
def enterReadSetting (key : String) (value : Option Cell) : StoreM (Option Cell) := do
  let s ← get
  let (known, cache) := s.cache.storeIfAbsent key value
  set { s with cache }
  return known

/-- A load up to the point where the table has been read: what the cache knew, or what was
read. -/
def beginLoad (key : String) : StoreM (Option Cell ⊕ Option Cell) := do
  match ← cachedSetting key with
  | some known => return .inl known
  | none =>
    log LogLevel.debug s!"Loading RGB config from database: {key}"
    return .inr (← readSetting key)

/-- The rest of a load. -/
def finishLoad (key : String) : Option Cell ⊕ Option Cell → StoreM (Option Cell)
  | .inl known => return known
  | .inr value => enterReadSetting key value

/-- Loads a setting. -/
def loadSetting (key : String) : StoreM (Option Cell) := do
  finishLoad key (← beginLoad key)

/-! ## Channel ids -/

/-- The spelling of an id, which must have its size. -/
def channelIdText (id : Bytes) (name : String) : Except Failure String :=
  if id.length = RowCheck.channelIdSize then .ok (Hex.encode id)
  else .error (.argument (.idSize name id.length))

/-- Fails if this is the save that was counted. -/
def countChannelSave : StoreM Unit := do
  let s ← get
  let (fails, rest) := countDown s.outages.channelSave
  set { s with outages := { s.outages with channelSave := rest } }
  if fails then throw (.database locked)

/-- Saves which final id replaced a temporary one. -/
def saveChannelId (temporary final : Bytes) : StoreM Unit := do
  countChannelSave
  let temporary ← liftM (channelIdText temporary "temporary_channel_id")
  let final ← liftM (channelIdText final "channel_id")
  log LogLevel.debug s!"Saving channel ID mapping to database: {temporary} -> {final}"
  transaction fun t => do
    let channels ← present .channels (some (TableName.channels.lookup temporary)) t.channels
    return ((), { t with channels := some (channels.upsert (.text temporary) (.text final)) })

/-- The well-formed pairs of some rows; each malformed row is logged. -/
def keepChannelIds : List (Row (Cell × Cell)) → StoreM (List (Bytes × Bytes))
  | [] => return []
  | r :: rest => do
    match RowCheck.channelIds r.data.1.toValue r.data.2.toValue with
    | .ok pair => return pair :: (← keepChannelIds rest)
    | .error problem =>
      log LogLevel.warning problem.message
      keepChannelIds rest

/-- All well-formed channel ids. -/
def loadChannelIds : StoreM (List (Bytes × Bytes)) := do
  let rows ← transaction fun t => do
    let channels ← present .channels none t.channels
    return (channels.rows, t)
  let ids := Assoc.ofList (← keepChannelIds rows)
  log LogLevel.debug s!"Loaded {ids.length} channel ID mappings from database"
  return ids

/-- Removes every pair with a final id; answers with their number. -/
def deleteChannelIds (final : Bytes) : StoreM Nat := do
  let final ← liftM (channelIdText final "channel_id")
  log LogLevel.debug s!"Deleting channel ID mapping by channel_id: {final}"
  let count ← transaction fun t => do
    let channels ← present .channels none t.channels
    let isIt (d : Cell × Cell) : Bool := d.2 == .text final
    return (channels.countWhere isIt, { t with channels := some (channels.deleteWhere isIt) })
  if count = 0 then log LogLevel.debug "No channel ID mapping found for deletion"
  return count

/-! ## Revoked tokens -/

/-- Revokes a token; revoking it again changes nothing. -/
def revoke (id : Value) : StoreM Unit := do
  let b ← liftM ((RowCheck.revocationId id).mapError fun p => Failure.argument (.revocation p))
  let text := Hex.encode b
  log LogLevel.debug s!"Saving revoked token to database: {text}"
  let added ← transaction fun t => do
    let revoked ← present .revoked none t.revoked
    if (revoked.find? fun c => c == .text text).isSome then return (false, t)
    else return (true, { t with revoked := some (revoked.append (.text text)) })
  if !added then log LogLevel.debug "Revocation ID already exists in database, skipping"

/-- The well-formed ids of some rows; each malformed row is logged. -/
def keepRevoked : List (Row Cell) → StoreM (List Bytes)
  | [] => return []
  | r :: rest => do
    match RowCheck.revocationId r.data.toValue with
    | .ok b => return b :: (← keepRevoked rest)
    | .error problem =>
      log LogLevel.warning problem.message
      keepRevoked rest

/-- The ids of all revoked tokens, each once. -/
def loadRevoked : StoreM (List Bytes) := do
  let rows ← transaction fun t => do
    let revoked ← present .revoked none t.revoked
    return (revoked.rows, t)
  let ids := (← keepRevoked rows).eraseDups
  log LogLevel.info s!"Loaded {ids.length} revoked tokens from database"
  return ids

/-- Forgets what the cache knows. -/
def close : StoreM Unit :=
  modify fun s => { s with cache := {} }

end Store

end NodeStore
