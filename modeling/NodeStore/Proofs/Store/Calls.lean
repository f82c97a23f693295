import NodeStore.Proofs.Store.ChannelIds
import NodeStore.Proofs.Store.Handle
import NodeStore.Proofs.Store.Peers

/-! # Calls that fail change nothing

All calls of the relational store in one type, with their arguments and their answers. A call is
put together from checks, reads, one transaction, and steps that cannot fail. Checks and reads
change neither the tables nor the cache (`ReadsOnly`), a transaction that fails is taken back, and
after it nothing fails any more (`Total`). The rules for `FailsUnchanged` say that whatever is put
together in this way changes nothing if it fails.

* `failsUnchanged_perform`: every call, by the rules;
* `exec_saveSeed_refused`: a seed that is refused after the stored one was deleted;
* `failed_call_changes_nothing`: calls on a state, and on a file. -/

namespace NodeStore

open Op

/-! ## Calls and answers -/

/-- A call of the relational store. A seed or a setting may come without a value, and a setting
without a name. -/
inductive StoreCall where
  | saveSeed (sealedText : Option String)
  | loadSeed
  | hasSeed
  | savePeer (key address : Value)
  | loadPeers
  | deletePeer (key : Value)
  | saveSetting (key value : Option String)
  | loadSetting (key : String)
  | saveChannelId (temporary final : Bytes)
  | loadChannelIds
  | deleteChannelIds (final : Bytes)
  | revoke (id : Value)
  | loadRevoked
deriving DecidableEq, Repr

/-- What a call answers. -/
inductive StoreAnswer where
  | done
  | seed (stored : Cell)
  | truth (b : Bool)
  | peers (found : List (String × String))
  | setting (value : Option Cell)
  | channelIds (pairs : List (Bytes × Bytes))
  | count (n : Nat)
  | revoked (ids : List Bytes)
deriving DecidableEq, Repr

/-- Carries out a call. -/
def StoreCall.perform : StoreCall → StoreM StoreAnswer
  | saveSeed sealedText => (fun _ => .done) <$> Store.saveSeed sealedText
  | loadSeed => .seed <$> Store.loadSeed
  | hasSeed => .truth <$> Store.hasSeed
  | savePeer key address => (fun _ => .done) <$> Store.savePeer key address
  | loadPeers => .peers <$> Store.loadPeers
  | deletePeer key => .truth <$> Store.deletePeer key
  | saveSetting (some key) value => (fun _ => .done) <$> Store.saveSetting key value
  | saveSetting none value => (fun _ => .done) <$> Store.saveUnnamedSetting value
  | loadSetting key => .setting <$> Store.loadSetting key
  | saveChannelId temporary final => (fun _ => .done) <$> Store.saveChannelId temporary final
  | loadChannelIds => .channelIds <$> Store.loadChannelIds
  | deleteChannelIds final => .count <$> Store.deleteChannelIds final
  | revoke id => (fun _ => .done) <$> Store.revoke id
  | loadRevoked => .revoked <$> Store.loadRevoked

/-- The failures of the relational store: a peer or an argument that is refused, a seed that is
not there, and faults of the database. -/
inductive Failure.OfStore : Failure → Prop where
  | invalidPeer (fault : PeerFault) : OfStore (.invalidPeer fault)
  | argument (fault : ArgumentFault) : OfStore (.argument fault)
  | notInitialized : OfStore .notInitialized
  | database (fault : DatabaseFault) : OfStore (.database fault)

namespace Store

variable {α β : Type} {s t : StoreState} {e : Failure}

/-! ## Operations that only read -/

/-- The operation leaves the tables and the cache as they are. -/
def ReadsOnly (op : StoreM α) : Prop :=
  ∀ tables cache, Keeps (fun s => s.tables = tables ∧ s.cache = cache) op

theorem ReadsOnly.same {op : StoreM α} (h : ReadsOnly op) (s : StoreState) :
    (exec op s).2.tables = s.tables ∧ (exec op s).2.cache = s.cache :=
  h s.tables s.cache s ⟨rfl, rfl⟩

theorem readsOnly_log (level : Int) (message : String) : ReadsOnly (log level message) :=
  fun _ _ _ hs => hs

theorem readsOnly_liftExcept (x : Except Failure α) : ReadsOnly (liftM x : StoreM α) :=
  fun _ _ => keeps_liftExcept x

/-- The rule for a transaction that leaves the tables as it found them. -/
theorem readsOnly_transaction {body : Tables → Except DatabaseFault (α × Tables)}
    (hbody : ∀ tables a new, body tables = .ok (a, new) → new = tables) :
    ReadsOnly (transaction body) := by
  intro tables cache
  apply keeps_transaction
  intro u a new hu hok
  exact ⟨(hbody _ a new hok).trans hu.1, hu.2⟩

theorem readsOnly_countSettingSave : ReadsOnly countSettingSave := by
  intro tables cache u hu
  rw [exec_countSettingSave]
  exact hu

theorem readsOnly_countChannelSave : ReadsOnly countChannelSave := by
  intro tables cache u hu
  rw [exec_countChannelSave]
  exact hu

/-! ## Operations that cannot fail -/

/-- The operation has an answer wherever it starts. -/
def Total (op : StoreM α) : Prop :=
  ∀ s, ∃ a t, exec op s = (.ok a, t)

theorem total_pure (a : α) : Total (pure a : StoreM α) := fun s => ⟨a, s, rfl⟩

theorem total_log (level : Int) (message : String) : Total (log level message) :=
  fun _ => ⟨(), _, rfl⟩

theorem total_bind {op : StoreM α} {f : α → StoreM β} (h : Total op) (hf : ∀ a, Total (f a)) :
    Total (op >>= f) := by
  intro s
  rcases h s with ⟨a, t, hop⟩
  rcases hf a t with ⟨b, u, hrest⟩
  exact ⟨b, u, (exec_bind_of_ok hop).trans hrest⟩

/-! ## Operations that change nothing if they fail -/

/-- The operation fails in a way of the store, and then leaves the tables and the cache as they
were. -/
def FailsUnchanged (op : StoreM α) : Prop :=
  ∀ s e t, exec op s = (.error e, t) → e.OfStore ∧ t.tables = s.tables ∧ t.cache = s.cache

theorem Total.failsUnchanged {op : StoreM α} (h : Total op) : FailsUnchanged op := by
  intro s e t hrun
  rcases h s with ⟨a, u, hop⟩
  rw [hop] at hrun
  simp at hrun

theorem failsUnchanged_liftExcept {x : Except Failure α} (h : ∀ e, x = .error e → e.OfStore) :
    FailsUnchanged (liftM x : StoreM α) := by
  intro s e t hrun
  rw [exec_liftExcept, Prod.mk.injEq] at hrun
  rcases hrun with ⟨hx, rfl⟩
  exact ⟨h e hx, rfl, rfl⟩

theorem failsUnchanged_throw (h : e.OfStore) : FailsUnchanged (throw e : StoreM α) := by
  intro s e' t hrun
  simp only [exec_throw, Prod.mk.injEq, Except.error.injEq] at hrun
  rcases hrun with ⟨rfl, rfl⟩
  exact ⟨h, rfl, rfl⟩

/-- A transaction that fails is taken back. -/
theorem failsUnchanged_transaction (body : Tables → Except DatabaseFault (α × Tables)) :
    FailsUnchanged (transaction body) := by
  intro s e t hrun
  obtain rfl := exec_transaction_error hrun
  refine ⟨?_, rfl, rfl⟩
  rw [exec_transaction] at hrun
  split at hrun
  · rw [← Except.error.inj (congrArg Prod.fst hrun)]
    exact .database _
  · split at hrun
    · rw [← Except.error.inj (congrArg Prod.fst hrun)]
      exact .database _
    · simp at hrun

theorem failsUnchanged_countSettingSave : FailsUnchanged countSettingSave := by
  intro s e t hrun
  have hsame := readsOnly_countSettingSave.same s
  rw [hrun] at hsame
  rw [exec_countSettingSave, Prod.mk.injEq] at hrun
  have hfault := hrun.1
  split at hfault
  · rw [← Except.error.inj hfault]
    exact ⟨.database locked, hsame⟩
  · simp at hfault

theorem failsUnchanged_countChannelSave : FailsUnchanged countChannelSave := by
  intro s e t hrun
  have hsame := readsOnly_countChannelSave.same s
  rw [hrun] at hsame
  rw [exec_countChannelSave, Prod.mk.injEq] at hrun
  have hfault := hrun.1
  split at hfault
  · rw [← Except.error.inj hfault]
    exact ⟨.database locked, hsame⟩
  · simp at hfault

/-- The rule for a first part that only reads: the second one starts on what the whole started
on. -/
theorem failsUnchanged_bind {op : StoreM α} {f : α → StoreM β} (hreads : ReadsOnly op)
    (h : FailsUnchanged op) (hf : ∀ a, FailsUnchanged (f a)) : FailsUnchanged (op >>= f) := by
  intro s e t hrun
  have hsame := hreads.same s
  rcases hop : exec op s with ⟨r, u⟩
  rw [hop] at hsame
  cases r with
  | error e' =>
    rw [exec_bind_of_error hop, Prod.mk.injEq, Except.error.injEq] at hrun
    rcases hrun with ⟨rfl, rfl⟩
    exact h s e' u hop
  | ok a =>
    rw [exec_bind_of_ok hop] at hrun
    rcases hf a u e t hrun with ⟨hkind, htables, hcache⟩
    exact ⟨hkind, htables.trans hsame.1, hcache.trans hsame.2⟩

/-- The rule for a second part that cannot fail: the whole fails where the first one does. -/
theorem failsUnchanged_bind_total {op : StoreM α} {f : α → StoreM β} (h : FailsUnchanged op)
    (hf : ∀ a, Total (f a)) : FailsUnchanged (op >>= f) := by
  intro s e t hrun
  rcases hop : exec op s with ⟨r, u⟩
  cases r with
  | error e' =>
    rw [exec_bind_of_error hop, Prod.mk.injEq, Except.error.injEq] at hrun
    rcases hrun with ⟨rfl, rfl⟩
    exact h s e' u hop
  | ok a =>
    rcases hf a u with ⟨b, v, hrest⟩
    rw [exec_bind_of_ok hop, hrest] at hrun
    simp at hrun

theorem failsUnchanged_log_bind {level : Int} {message : String} {f : Unit → StoreM β}
    (hf : ∀ a, FailsUnchanged (f a)) : FailsUnchanged (log level message >>= f) :=
  failsUnchanged_bind (readsOnly_log level message) (total_log level message).failsUnchanged hf

theorem failsUnchanged_map {op : StoreM α} (f : α → β) (h : FailsUnchanged op) :
    FailsUnchanged (f <$> op) := by
  rw [← bind_pure_comp]
  exact failsUnchanged_bind_total h fun a => total_pure (f a)

/-! ## The calls -/

/-- A table that is there is read, and the tables stay as they are. -/
theorem readTable_ok {γ : Type} {name : TableName} {table : Tables → Option γ} {answer : γ → α}
    {tables new : Tables} {a : α}
    (hok : (do
      let found ← present name none (table tables)
      return (answer found, tables) : Except DatabaseFault (α × Tables)) = .ok (a, new)) :
    new = tables := by
  cases hfound : table tables with
  | none => simp [hfound, present, bind, Except.bind] at hok
  | some found =>
    simp only [hfound, present_some, ok_bind, pure, Except.pure, Except.ok.injEq,
      Prod.mk.injEq] at hok
    exact hok.2.symm

theorem readsOnly_readTable {γ : Type} (name : TableName) (table : Tables → Option γ)
    (answer : γ → α) :
    ReadsOnly (transaction fun t => do
      let found ← present name none (table t)
      return (answer found, t)) :=
  readsOnly_transaction fun _ _ _ hok => readTable_ok hok

theorem failsUnchanged_saveSeed (sealedText : Option String) :
    FailsUnchanged (saveSeed sealedText) := by
  unfold saveSeed
  refine failsUnchanged_log_bind fun _ => ?_
  exact failsUnchanged_bind_total (failsUnchanged_transaction _) fun _ => total_log _ _

theorem failsUnchanged_loadSeed : FailsUnchanged loadSeed := by
  unfold loadSeed
  refine failsUnchanged_log_bind fun _ => ?_
  refine failsUnchanged_bind (readsOnly_readTable _ _ _) (failsUnchanged_transaction _)
    fun row => ?_
  cases row with
  | some r => exact (total_pure r.data).failsUnchanged
  | none => exact failsUnchanged_throw .notInitialized

theorem failsUnchanged_hasSeed : FailsUnchanged hasSeed := by
  unfold hasSeed
  refine failsUnchanged_bind_total (failsUnchanged_transaction _) fun _ => ?_
  exact total_bind (total_log _ _) fun _ => total_pure _

theorem failsUnchanged_peerKey (key : Value) :
    FailsUnchanged (liftM (peerKey key) : StoreM String) := by
  apply failsUnchanged_liftExcept
  intro e h
  rcases peerKey_error h with ⟨fault, rfl⟩
  exact .invalidPeer fault

theorem failsUnchanged_savePeer (key address : Value) : FailsUnchanged (savePeer key address) := by
  unfold savePeer
  refine failsUnchanged_bind (readsOnly_liftExcept _) (failsUnchanged_peerKey key) fun _ => ?_
  refine failsUnchanged_bind (readsOnly_liftExcept _) (failsUnchanged_liftExcept ?_) fun _ => ?_
  · intro e h
    rcases mapError_eq_error h with ⟨problem, -, rfl⟩
    exact .invalidPeer (.given problem)
  · exact failsUnchanged_log_bind fun _ => failsUnchanged_transaction _

theorem failsUnchanged_loadPeers : FailsUnchanged loadPeers := by
  unfold loadPeers
  refine failsUnchanged_bind (readsOnly_readTable _ _ _) (failsUnchanged_transaction _) fun _ => ?_
  refine failsUnchanged_bind (readsOnly_liftExcept _) (failsUnchanged_liftExcept ?_) fun _ => ?_
  · intro e h
    rcases mapError_eq_error h with ⟨fault, -, rfl⟩
    exact .invalidPeer fault
  · exact failsUnchanged_log_bind fun _ => (total_pure _).failsUnchanged

theorem failsUnchanged_deletePeer (key : Value) : FailsUnchanged (deletePeer key) := by
  unfold deletePeer
  refine failsUnchanged_bind (readsOnly_liftExcept _) (failsUnchanged_peerKey key) fun _ => ?_
  refine failsUnchanged_log_bind fun _ => ?_
  refine failsUnchanged_bind_total (failsUnchanged_transaction _) fun count => ?_
  split
  · exact total_bind (total_log _ _) fun _ => total_pure false
  · exact total_bind (total_log _ _) fun _ => total_pure true

theorem failsUnchanged_saveSetting (key : String) (value : Option String) :
    FailsUnchanged (saveSetting key value) := by
  unfold saveSetting
  refine failsUnchanged_bind readsOnly_countSettingSave failsUnchanged_countSettingSave fun _ => ?_
  refine failsUnchanged_log_bind fun _ => ?_
  -- the cache is filled after the commit, and filling it cannot fail
  refine failsUnchanged_bind_total (failsUnchanged_transaction _) fun _ => ?_
  exact fun s => ⟨(), _, exec_enterSetting (value.map .text)⟩

theorem failsUnchanged_saveUnnamedSetting (value : Option String) :
    FailsUnchanged (saveUnnamedSetting value) := by
  unfold saveUnnamedSetting
  refine failsUnchanged_bind readsOnly_countSettingSave failsUnchanged_countSettingSave fun _ => ?_
  exact failsUnchanged_log_bind fun _ => failsUnchanged_transaction _

theorem failsUnchanged_readSetting (key : String) : FailsUnchanged (readSetting key) := by
  intro s e t hrun
  unfold readSetting at hrun
  rw [exec_get_bind] at hrun
  cases hreads : s.outages.reads with
  | some fault =>
    simp only [hreads] at hrun
    exact failsUnchanged_throw (.database fault) s e t hrun
  | none =>
    simp only [hreads] at hrun
    exact failsUnchanged_transaction _ s e t hrun

theorem failsUnchanged_loadSetting (key : String) : FailsUnchanged (loadSetting key) := by
  intro s e t hrun
  cases hknown : s.known key with
  | some known =>
    rw [exec_loadSetting_hit hknown] at hrun
    simp at hrun
  | none =>
    rw [exec_loadSetting_miss hknown] at hrun
    have hread : FailsUnchanged (readMissed key) := by
      unfold readMissed
      exact failsUnchanged_log_bind fun _ => failsUnchanged_readSetting key
    refine failsUnchanged_bind_total hread (fun value => ?_) s e t hrun
    exact fun u => ⟨_, _, exec_enterReadSetting value⟩

theorem failsUnchanged_channelIdText (id : Bytes) (name : String) :
    FailsUnchanged (liftM (channelIdText id name) : StoreM String) := by
  apply failsUnchanged_liftExcept
  intro e h
  unfold channelIdText at h
  split at h
  · simp at h
  · rw [← Except.error.inj h]
    exact .argument _

theorem failsUnchanged_saveChannelId (temporary final : Bytes) :
    FailsUnchanged (saveChannelId temporary final) := by
  unfold saveChannelId
  refine failsUnchanged_bind readsOnly_countChannelSave failsUnchanged_countChannelSave fun _ => ?_
  refine failsUnchanged_bind (readsOnly_liftExcept _) (failsUnchanged_channelIdText _ _) fun _ => ?_
  refine failsUnchanged_bind (readsOnly_liftExcept _) (failsUnchanged_channelIdText _ _) fun _ => ?_
  exact failsUnchanged_log_bind fun _ => failsUnchanged_transaction _

theorem total_keepChannelIds (rows : List (Row (Cell × Cell))) : Total (keepChannelIds rows) := by
  induction rows with
  | nil => exact total_pure []
  | cons r rest ih =>
    unfold keepChannelIds
    split
    · exact total_bind ih fun _ => total_pure _
    · exact total_bind (total_log _ _) fun _ => ih

theorem failsUnchanged_loadChannelIds : FailsUnchanged loadChannelIds := by
  unfold loadChannelIds
  refine failsUnchanged_bind_total (failsUnchanged_transaction _) fun rows => ?_
  refine total_bind (total_keepChannelIds rows) fun _ => ?_
  exact total_bind (total_log _ _) fun _ => total_pure _

theorem failsUnchanged_deleteChannelIds (final : Bytes) :
    FailsUnchanged (deleteChannelIds final) := by
  unfold deleteChannelIds
  refine failsUnchanged_bind (readsOnly_liftExcept _) (failsUnchanged_channelIdText _ _) fun _ => ?_
  refine failsUnchanged_log_bind fun _ => ?_
  refine failsUnchanged_bind_total (failsUnchanged_transaction _) fun count => ?_
  split
  · exact total_bind (total_log _ _) fun _ => total_pure count
  · exact total_pure count

theorem failsUnchanged_revoke (id : Value) : FailsUnchanged (revoke id) := by
  unfold revoke
  refine failsUnchanged_bind (readsOnly_liftExcept _) (failsUnchanged_liftExcept ?_) fun _ => ?_
  · intro e h
    rcases mapError_eq_error h with ⟨problem, -, rfl⟩
    exact .argument (.revocation problem)
  · refine failsUnchanged_log_bind fun _ => ?_
    refine failsUnchanged_bind_total (failsUnchanged_transaction _) fun added => ?_
    split
    · exact total_log _ _
    · exact total_pure ()

theorem total_keepRevoked (rows : List (Row Cell)) : Total (keepRevoked rows) := by
  induction rows with
  | nil => exact total_pure []
  | cons r rest ih =>
    unfold keepRevoked
    split
    · exact total_bind ih fun _ => total_pure _
    · exact total_bind (total_log _ _) fun _ => ih

theorem failsUnchanged_loadRevoked : FailsUnchanged loadRevoked := by
  unfold loadRevoked
  refine failsUnchanged_bind_total (failsUnchanged_transaction _) fun rows => ?_
  refine total_bind (total_keepRevoked rows) fun _ => ?_
  exact total_bind (total_log _ _) fun _ => total_pure _

/-- Every call changes nothing if it fails. -/
theorem failsUnchanged_perform (call : StoreCall) : FailsUnchanged call.perform := by
  cases call with
  | saveSeed sealedText => exact failsUnchanged_map _ (failsUnchanged_saveSeed sealedText)
  | loadSeed => exact failsUnchanged_map _ failsUnchanged_loadSeed
  | hasSeed => exact failsUnchanged_map _ failsUnchanged_hasSeed
  | savePeer key address => exact failsUnchanged_map _ (failsUnchanged_savePeer key address)
  | loadPeers => exact failsUnchanged_map _ failsUnchanged_loadPeers
  | deletePeer key => exact failsUnchanged_map _ (failsUnchanged_deletePeer key)
  | saveSetting key value =>
    cases key with
    | some key => exact failsUnchanged_map _ (failsUnchanged_saveSetting key value)
    | none => exact failsUnchanged_map _ (failsUnchanged_saveUnnamedSetting value)
  | loadSetting key => exact failsUnchanged_map _ (failsUnchanged_loadSetting key)
  | saveChannelId temporary final =>
    exact failsUnchanged_map _ (failsUnchanged_saveChannelId temporary final)
  | loadChannelIds => exact failsUnchanged_map _ failsUnchanged_loadChannelIds
  | deleteChannelIds final => exact failsUnchanged_map _ (failsUnchanged_deleteChannelIds final)
  | revoke id => exact failsUnchanged_map _ (failsUnchanged_revoke id)
  | loadRevoked => exact failsUnchanged_map _ failsUnchanged_loadRevoked

/-! ## A seed that is refused -/

/-- A seed that cannot be inserted after the stored ones were deleted leaves them stored. -/
theorem exec_saveSeed_refused {sealedText : Option String} {cleared : Tables}
    {fault : DatabaseFault}
    (hworks : s.outages.transactions = none) (hclear : clearSeeds s.tables = .ok cleared)
    (hinsert : insertSeed sealedText cleared = .error fault) :
    ∃ t, exec (saveSeed sealedText) s = (.error (.database fault), t) ∧ t.tables = s.tables := by
  obtain ⟨u, hlog, htables, houtages⟩ :
      ∃ u, exec (log LogLevel.info "Saving mnemonic to database") s = (.ok (), u) ∧
        u.tables = s.tables ∧ u.outages = s.outages := ⟨_, rfl, rfl, rfl⟩
  unfold saveSeed
  rw [exec_bind_of_ok hlog]
  refine ⟨u, exec_bind_of_error ?_, htables⟩
  rw [exec_transaction]
  simp only [houtages, hworks, htables, hclear, ok_bind, hinsert]
  rfl

end Store

/-- An operation that changes nothing if it fails leaves the cache and all but the log of the host
if it fails. -/
theorem StoreHandle.run_failed {α : Type} {op : StoreM α} (hop : Store.FailsUnchanged op)
    {handle handle' : StoreHandle} {h h' : Host} {e : Failure}
    (hrun : handle.run op h = (.error e, handle', h')) :
    e.OfStore ∧ handle'.path = handle.path ∧ handle'.cache = handle.cache ∧
      ∃ lines, h' = h.emitAll lines := by
  rcases hexec : exec op (handle.start h) with ⟨r, u⟩
  rw [StoreHandle.run_eq, hexec, Prod.mk.injEq, Prod.mk.injEq] at hrun
  rcases hrun with ⟨rfl, rfl, rfl⟩
  rcases hop _ _ _ hexec with ⟨hkind, htables, hcache⟩
  -- the tables are those of the file, so that nothing is written to it
  have hback : handle.writeBack u.tables h = h := by rw [htables, StoreHandle.writeBack_start]
  refine ⟨hkind, rfl, hcache.trans StoreHandle.start_cache, u.log, ?_⟩
  simp only [hback]

namespace StoreCall

/-- A call that fails changes nothing, whatever the tables hold, whatever is wrong with the engine,
and whatever the arguments are. On a state, the tables and the cache are as they were. On a file,
so are the cache of the store and every database of the host, to which only lines of the log are
added. A seed that is refused when the stored ones are already deleted leaves them stored. -/
theorem failed_call_changes_nothing :
    (∀ (call : StoreCall) s e t, exec call.perform s = (.error e, t) →
      e.OfStore ∧ t.tables = s.tables ∧ t.cache = s.cache) ∧
    (∀ (call : StoreCall) (handle handle' : StoreHandle) h e h',
      handle.run call.perform h = (.error e, handle', h') →
        e.OfStore ∧ handle'.path = handle.path ∧ handle'.cache = handle.cache ∧
          (∃ lines, h' = h.emitAll lines) ∧
          ∀ p tables, h.Holds p tables → h'.Holds p tables) ∧
    (∀ s sealedText cleared fault, s.outages.transactions = none →
      Store.clearSeeds s.tables = .ok cleared →
      Store.insertSeed sealedText cleared = .error fault →
        ∃ t, exec (Store.saveSeed sealedText) s = (.error (.database fault), t) ∧
          t.tables.seeds = s.tables.seeds) := by
  refine ⟨?_, ?_, ?_⟩
  · intro call s e t hrun
    exact Store.failsUnchanged_perform call s e t hrun
  · intro call handle handle' h e h' hrun
    rcases StoreHandle.run_failed (Store.failsUnchanged_perform call) hrun with
      ⟨hkind, hpath, hcache, lines, rfl⟩
    exact ⟨hkind, hpath, hcache, ⟨lines, rfl⟩, fun p tables hold => hold.emitAll lines⟩
  · intro s sealedText cleared fault hworks hclear hinsert
    rcases Store.exec_saveSeed_refused hworks hclear hinsert with ⟨t, hrun, htables⟩
    exact ⟨t, hrun, congrArg Tables.seeds htables⟩

/-- Tables with a seed, and none for channel ids. -/
def seededTables : Tables :=
  { (Tables.createMissing {}) with
    seeds := some ⟨[⟨1, .text "salt$token"⟩], none⟩, channels := none }

/-- A machine with a database that holds the tables. -/
def seededHost : Host :=
  { Host.bare with files := ⟨[(["node.db"], .database seededTables)]⟩ }

/-- A store on it, of which a setting is known to be absent. -/
def seededStore : StoreHandle := ⟨Path.ofString "/node.db", ⟨[("indexer_url", none)]⟩, {}⟩

/-- A seed without a text is refused after the stored one was deleted, and a channel id where its
table is missing; both leave the tables and the cache as they were. -/
theorem refused_seed_keeps_stored :
    (∃ handle' h', seededStore.run (saveSeed none).perform seededHost =
        (.error (.database TableName.seeds.noValue), handle', h') ∧
      handle'.cache = seededStore.cache ∧ h'.Holds seededStore.path seededTables) ∧
    (∃ t, exec loadChannelIds.perform { tables := seededTables } =
        (.error (.database (TableName.channels.missing none)), t) ∧ t.tables = seededTables) ∧
    ∃ t, exec (Store.saveSeed none) { tables := seededTables } =
        (.error (.database TableName.seeds.noValue), t) ∧ t.tables.seeds = seededTables.seeds := by
  have hold : seededHost.Holds seededStore.path seededTables := by
    constructor
    · rfl
    · rfl
  refine ⟨?_, ?_, ?_⟩
  · rcases hrun : seededStore.run (saveSeed none).perform seededHost with ⟨r, handle', h'⟩
    have hr : (seededStore.run (saveSeed none).perform seededHost).1 =
        .error (.database TableName.seeds.noValue) := rfl
    rw [hrun] at hr
    subst hr
    obtain ⟨-, -, hcache, -, hdatabases⟩ :=
      failed_call_changes_nothing.2.1 _ _ _ _ _ _ hrun
    exact ⟨handle', h', rfl, hcache, hdatabases _ _ hold⟩
  · have hrun : exec loadChannelIds.perform { tables := seededTables } =
        (.error (.database (TableName.channels.missing none)), { tables := seededTables }) := rfl
    exact ⟨_, hrun, (failed_call_changes_nothing.1 _ _ _ _ hrun).2.1⟩
  · exact failed_call_changes_nothing.2.2 { tables := seededTables } none
      { seededTables with seeds := some ⟨[], none⟩ } TableName.seeds.noValue rfl rfl rfl

end StoreCall

end NodeStore
