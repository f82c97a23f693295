import NodeStore.Proofs.Store.Coherence
import NodeStore.Proofs.Store.Twins

/-! # A store that is used alone

As long as one store is the only writer of its file, what it knows of settings is what the table
holds, and that is text: `Store.Truthful` is kept by every call, whatever is wrong with the engine
and whatever the arguments are (`truthful_perform`). Calls that do not concern settings leave them
(`Apart`). Loads and saves may also overlap (`Store.overlap`); once all have ended, what is known is
what the table holds again (`truthful_overlap`).

* `SoleUse`: what happens to a store and its host while nobody else writes to the file;
* `SoleUse.truthful`: at any time of it the file is a database, and the store is truthful. -/

namespace NodeStore

open Op

/-- Every setting is a text. -/
def Tables.TextSettings (t : Tables) : Prop :=
  ∀ key value, t.setting key = some value → ∃ text, value = .text text

namespace Store

variable {α β : Type} {s t : StoreState} {key : String}

/-- All tables are there, settings are texts, and what is known of them is what the table holds. -/
structure Truthful (tables : Tables) (cache : ConfigCache Cell) : Prop where
  complete : tables.Complete
  texts : tables.TextSettings
  agrees : ∀ key known, cache.lookup key = some known → known = tables.setting key

/-- The operation keeps stores truthful. -/
def KeepsTruthful (op : StoreM α) : Prop :=
  Keeps (fun s => Truthful s.tables s.cache) op

/-! ## Calls that do not concern settings -/

/-- The operation drops no table, and leaves the settings and the cache as they are. -/
def Apart (op : StoreM α) : Prop :=
  ∀ settings cache,
    Keeps (fun s => s.tables.Complete ∧ s.tables.settings = settings ∧ s.cache = cache) op

theorem Apart.keepsTruthful {op : StoreM α} (h : Apart op) : KeepsTruthful op := by
  intro s hs
  rcases h s.tables.settings s.cache s ⟨hs.complete, rfl, rfl⟩ with ⟨hcomplete, hsettings, hcache⟩
  have hsetting : ∀ key, (exec op s).2.tables.setting key = s.tables.setting key := by
    intro key
    rw [Tables.setting, hsettings]
    rfl
  refine ⟨hcomplete, ?_, ?_⟩
  · intro key value hvalue
    rw [hsetting] at hvalue
    exact hs.texts key value hvalue
  · intro key known hknown
    rw [hcache] at hknown
    rw [hsetting]
    exact hs.agrees key known hknown

theorem ReadsOnly.apart {op : StoreM α} (h : ReadsOnly op) : Apart op := by
  rintro settings cache s ⟨hcomplete, hsettings, hcache⟩
  rcases h.same s with ⟨htables', hcache'⟩
  rw [htables', hcache']
  exact ⟨hcomplete, hsettings, hcache⟩

theorem apart_pure (a : α) : Apart (pure a : StoreM α) := fun _ _ => keeps_pure a

theorem apart_log (level : Int) (message : String) : Apart (log level message) :=
  (readsOnly_log level message).apart

theorem apart_liftExcept (x : Except Failure α) : Apart (liftM x : StoreM α) :=
  (readsOnly_liftExcept x).apart

theorem apart_bind {op : StoreM α} {f : α → StoreM β} (h : Apart op) (hf : ∀ a, Apart (f a)) :
    Apart (op >>= f) := fun settings cache =>
  keeps_bind (h settings cache) fun a => hf a settings cache

theorem apart_map {op : StoreM α} (f : α → β) (h : Apart op) : Apart (f <$> op) :=
  fun settings cache => keeps_map (h settings cache)

theorem apart_transaction {body : Tables → Except DatabaseFault (α × Tables)}
    (hbody : LeavesSettings body) : Apart (transaction body) := by
  intro settings cache
  apply keeps_transaction
  rintro s a tables ⟨hcomplete, hsettings, hcache⟩ hok
  rcases hbody _ a tables hcomplete hok with ⟨hcomplete', hsettings'⟩
  exact ⟨hcomplete', hsettings'.trans hsettings, hcache⟩

theorem apart_saveSeed (sealedText : Option String) : Apart (saveSeed sealedText) := by
  unfold saveSeed
  refine apart_bind (apart_log _ _) fun _ => ?_
  refine apart_bind (apart_transaction (leavesSettings_replaceSeed sealedText)) fun _ => ?_
  exact apart_log _ _

theorem apart_loadSeed : Apart loadSeed := by
  unfold loadSeed
  refine apart_bind (apart_log _ _) fun _ => ?_
  refine apart_bind (apart_transaction (leavesSettings_readTable _ _ _)) fun row => ?_
  cases row with
  | some r => exact apart_pure r.data
  | none => exact fun _ _ => keeps_throw _

theorem apart_hasSeed : Apart hasSeed := by
  unfold hasSeed
  refine apart_bind (apart_transaction (leavesSettings_readTable _ _ _)) fun _ => ?_
  exact apart_bind (apart_log _ _) fun _ => apart_pure _

theorem apart_savePeer (key address : Value) : Apart (savePeer key address) := by
  unfold savePeer
  refine apart_bind (apart_liftExcept _) fun _ => ?_
  refine apart_bind (apart_liftExcept _) fun _ => ?_
  refine apart_bind (apart_log _ _) fun _ => ?_
  exact apart_transaction (leavesSettings_changePeers _ fun peers => ((), peers.upsert _ _))

theorem apart_loadPeers : Apart loadPeers := by
  unfold loadPeers
  refine apart_bind (apart_transaction (leavesSettings_readTable _ _ _)) fun _ => ?_
  refine apart_bind (apart_liftExcept _) fun _ => ?_
  exact apart_bind (apart_log _ _) fun _ => apart_pure _

theorem apart_deletePeer (key : Value) : Apart (deletePeer key) := by
  unfold deletePeer
  refine apart_bind (apart_liftExcept _) fun text => ?_
  refine apart_bind (apart_log _ _) fun _ => ?_
  have hdelete := leavesSettings_changePeers none fun peers =>
    (peers.countWhere fun d => d.1 == .text text, peers.deleteWhere fun d => d.1 == .text text)
  refine apart_bind (apart_transaction hdelete) fun count => ?_
  split
  · exact apart_bind (apart_log _ _) fun _ => apart_pure false
  · exact apart_bind (apart_log _ _) fun _ => apart_pure true

theorem apart_saveUnnamedSetting (value : Option String) : Apart (saveUnnamedSetting value) := by
  unfold saveUnnamedSetting
  refine apart_bind readsOnly_countSettingSave.apart fun _ => ?_
  exact apart_bind (apart_log _ _) fun _ => apart_transaction leavesSettings_refuseUnnamed

theorem apart_saveChannelId (temporary final : Bytes) : Apart (saveChannelId temporary final) := by
  unfold saveChannelId
  refine apart_bind readsOnly_countChannelSave.apart fun _ => ?_
  refine apart_bind (apart_liftExcept _) fun _ => ?_
  refine apart_bind (apart_liftExcept _) fun _ => ?_
  refine apart_bind (apart_log _ _) fun _ => ?_
  exact apart_transaction
    (leavesSettings_changeChannels _ fun channels => ((), channels.upsert _ _))

theorem apart_keepChannelIds (rows : List (Row (Cell × Cell))) : Apart (keepChannelIds rows) := by
  induction rows with
  | nil => exact apart_pure []
  | cons r rest ih =>
    unfold keepChannelIds
    split
    · exact apart_bind ih fun _ => apart_pure _
    · exact apart_bind (apart_log _ _) fun _ => ih

theorem apart_loadChannelIds : Apart loadChannelIds := by
  unfold loadChannelIds
  refine apart_bind (apart_transaction (leavesSettings_readTable _ _ _)) fun rows => ?_
  refine apart_bind (apart_keepChannelIds rows) fun _ => ?_
  exact apart_bind (apart_log _ _) fun _ => apart_pure _

theorem apart_deleteChannelIds (final : Bytes) : Apart (deleteChannelIds final) := by
  unfold deleteChannelIds
  refine apart_bind (apart_liftExcept _) fun text => ?_
  refine apart_bind (apart_log _ _) fun _ => ?_
  have hdelete := leavesSettings_changeChannels none fun channels =>
    (channels.countWhere fun d => d.2 == .text text,
      channels.deleteWhere fun d => d.2 == .text text)
  refine apart_bind (apart_transaction hdelete) fun count => ?_
  split
  · exact apart_bind (apart_log _ _) fun _ => apart_pure count
  · exact apart_pure count

theorem apart_revoke (id : Value) : Apart (revoke id) := by
  unfold revoke
  refine apart_bind (apart_liftExcept _) fun _ => ?_
  refine apart_bind (apart_log _ _) fun _ => ?_
  refine apart_bind (apart_transaction (leavesSettings_addRevoked _)) fun added => ?_
  split
  · exact apart_log _ _
  · exact apart_pure ()

theorem apart_keepRevoked (rows : List (Row Cell)) : Apart (keepRevoked rows) := by
  induction rows with
  | nil => exact apart_pure []
  | cons r rest ih =>
    unfold keepRevoked
    split
    · exact apart_bind ih fun _ => apart_pure _
    · exact apart_bind (apart_log _ _) fun _ => ih

theorem apart_loadRevoked : Apart loadRevoked := by
  unfold loadRevoked
  refine apart_bind (apart_transaction (leavesSettings_readTable _ _ _)) fun rows => ?_
  refine apart_bind (apart_keepRevoked rows) fun _ => ?_
  exact apart_bind (apart_log _ _) fun _ => apart_pure _

/-! ## Loads and saves -/

/-- A commit writes a text, and drops no table. -/
theorem keeps_commitSetting (key : String) (value : Option String) :
    Keeps (fun s => s.tables.Complete ∧ s.tables.TextSettings) (commitSetting key value) := by
  rintro s ⟨hcomplete, htexts⟩
  rcases hcommit : exec (commitSetting key value) s with ⟨r, t⟩
  cases r with
  | error e =>
    obtain rfl := commitSetting_error hcommit
    exact ⟨hcomplete, htexts⟩
  | ok done =>
    rcases commitSetting_ok hcommit with ⟨⟨text, rfl⟩, -, hrows⟩
    constructor
    · unfold commitSetting at hcommit
      rcases exec_transaction_ok.1 hcommit with ⟨-, tables, hbody, rfl⟩
      rcases Option.ne_none_iff_exists'.1 hcomplete.settings with ⟨settings, hsettings⟩
      simp only [hsettings, present_some, ok_bind, pure, Except.pure, Except.ok.injEq,
        Prod.mk.injEq, true_and] at hbody
      rw [← hbody]
      exact ⟨hcomplete.seeds, hcomplete.peers, nofun, hcomplete.channels, hcomplete.revoked⟩
    · intro k value hvalue
      have hrow := (hrows k).symm.trans hvalue
      split at hrow
      · exact ⟨text, (Option.some.inj hrow).symm⟩
      · exact htexts k value hrow

theorem keepsTruthful_saveSetting (key : String) (value : Option String) :
    KeepsTruthful (saveSetting key value) := by
  intro s hs
  rcases hsave : exec (saveSetting key value) s with ⟨r, t⟩
  cases r with
  | error e =>
    rcases failsUnchanged_saveSetting key value s e t hsave with ⟨-, htables, hcache⟩
    simp only [htables, hcache]
    exact hs
  | ok done =>
    rw [exec_saveSetting] at hsave
    rcases exec_bind_ok.1 hsave with ⟨_, u, hannounce, hsave⟩
    rcases exec_bind_ok.1 hsave with ⟨_, v, hcommit, henter⟩
    have hsame := exec_announce_snd (s := s) key value
    rw [hannounce] at hsame
    rcases hsame with ⟨htables, hcache⟩
    have hu : u.tables.Complete ∧ u.tables.TextSettings := by
      rw [htables]
      exact ⟨hs.complete, hs.texts⟩
    rcases (keeps_commitSetting key value).after hu hcommit with ⟨hcomplete, htexts⟩
    rcases commitSetting_ok hcommit with ⟨-, hcache', hrows⟩
    rw [exec_enterSetting, Prod.mk.injEq] at henter
    rw [← henter.2]
    refine ⟨hcomplete, htexts, ?_⟩
    -- the key that was saved is known as it was committed, and the others as before
    intro k known hknown
    rw [ConfigCache.lookup_store, hcache', hcache] at hknown
    have hrow : v.tables.setting k = if k = key then value.map .text else u.setting k := hrows k
    rw [hrow]
    by_cases hk : k = key
    · rw [if_pos hk, Option.some.injEq] at hknown
      rw [if_pos hk, hknown]
    · rw [if_neg hk] at hknown
      rw [if_neg hk, StoreState.setting, htables]
      exact hs.agrees k known hknown

theorem keepsTruthful_loadSetting (key : String) : KeepsTruthful (loadSetting key) := by
  intro s hs
  rcases hload : exec (loadSetting key) s with ⟨r, t⟩
  cases r with
  | error e =>
    rcases failsUnchanged_loadSetting key s e t hload with ⟨-, htables, hcache⟩
    simp only [htables, hcache]
    exact hs
  | ok value =>
    rcases loadSetting_ok_of_agrees hs.agrees hload with ⟨-, htables, hagrees⟩
    simp only [htables]
    exact ⟨hs.complete, hs.texts, hagrees⟩

/-- While settings can be read, a load answers with the row, wherever it finds it. -/
theorem exec_loadSetting_truthful (hs : Truthful s.tables s.cache)
    (hreads : s.outages.reads = none) (htransactions : s.outages.transactions = none)
    (key : String) :
    ∃ t, exec (loadSetting key) s = (.ok (s.setting key), t) ∧ t.tables = s.tables ∧
      t.outages = s.outages ∧ Truthful t.tables t.cache := by
  cases hknown : s.known key with
  | some known =>
    rw [exec_loadSetting_hit hknown, hs.agrees key known hknown]
    exact ⟨s, rfl, rfl, rfl, hs⟩
  | none =>
    rcases exec_loadSetting_row hknown ⟨hreads, htransactions, hs.complete.settings⟩ with
      ⟨log, hload⟩
    have htruth := keepsTruthful_loadSetting key s hs
    rw [hload] at htruth
    exact ⟨_, hload, rfl, rfl, htruth⟩

/-- Every call keeps the store truthful. -/
theorem keepsTruthful_perform (call : StoreCall) : KeepsTruthful call.perform := by
  cases call with
  | saveSeed sealedText => exact (apart_map _ (apart_saveSeed sealedText)).keepsTruthful
  | loadSeed => exact (apart_map _ apart_loadSeed).keepsTruthful
  | hasSeed => exact (apart_map _ apart_hasSeed).keepsTruthful
  | savePeer key address => exact (apart_map _ (apart_savePeer key address)).keepsTruthful
  | loadPeers => exact (apart_map _ apart_loadPeers).keepsTruthful
  | deletePeer key => exact (apart_map _ (apart_deletePeer key)).keepsTruthful
  | saveSetting key value =>
    cases key with
    | some key => exact keeps_map (keepsTruthful_saveSetting key value)
    | none => exact (apart_map _ (apart_saveUnnamedSetting value)).keepsTruthful
  | loadSetting key => exact keeps_map (keepsTruthful_loadSetting key)
  | saveChannelId temporary final =>
    exact (apart_map _ (apart_saveChannelId temporary final)).keepsTruthful
  | loadChannelIds => exact (apart_map _ apart_loadChannelIds).keepsTruthful
  | deleteChannelIds final => exact (apart_map _ (apart_deleteChannelIds final)).keepsTruthful
  | revoke id => exact (apart_map _ (apart_revoke id)).keepsTruthful
  | loadRevoked => exact (apart_map _ apart_loadRevoked).keepsTruthful

/-- A store that is closed knows nothing. -/
theorem keepsTruthful_close : KeepsTruthful close := fun _ hs => ⟨hs.complete, hs.texts, nofun⟩

end Store

/-! ## Calls that overlap -/

namespace Interleaving.Pool

variable {p : Pool} {s : StoreState} {i : Nat}

/-- A store on which no call is under way. -/
def idle (s : StoreState) : Pool where
  store := s

/-- No call is under way. -/
def Idle (p : Pool) : Prop :=
  ∀ i, ¬ (p.stage i).InFlight

theorem coherent_idle (hagrees : ∀ key known, s.known key = some known → known = s.setting key) :
    Coherent (idle s) where
  turn := by
    intro i h
    simp [idle, Stage.HasTurn] at h
  entered := fun k _ e he => hagrees k e he
  committed := by
    intro i k v h
    simp [idle] at h
  fetched := by
    intro i k v h
    simp [idle] at h

theorem perform_keeps {α : Type} {I : StoreState → Prop} {op : StoreM α} (hop : Keeps I op)
    (hp : I p.store) (next : α → Stage) : I (p.perform i op next).store := by
  have hkept := hop p.store hp
  unfold perform
  rcases hexec : exec op p.store with ⟨r, t⟩
  rw [hexec] at hkept
  cases r <;> exact hkept

/-- The tables of settings that commits write to. -/
def Intact (s : StoreState) : Prop :=
  s.tables.Complete ∧ s.tables.TextSettings

theorem advance_intact (hp : Intact p.store) (i : Nat) : Intact (p.advance i).store := by
  cases hi : p.stage i with
  | asking key =>
    rw [advance_asking hi]
    exact hp
  | missed key =>
    rw [advance_missed hi]
    refine perform_keeps (I := Intact) ?_ hp _
    intro s hs
    rcases hread : exec (Store.readMissed key) s with ⟨r, t⟩
    have htables : t.tables = s.tables := by
      cases r with
      | ok value => exact (Store.readMissed_ok hread).2.1
      | error e => exact (Store.readMissed_error hread).1
    rw [Intact, htables]
    exact hs
  | fetched key value =>
    rw [advance_fetched hi]
    exact hp
  | waiting key value =>
    rw [advance_waiting hi]
    split <;> exact hp
  | writing key value =>
    rw [advance_writing hi]
    have hkept := Store.keeps_commitSetting key value p.store hp
    rcases hcommit : exec (Store.commitSetting key value) p.store with ⟨r, t⟩
    rw [hcommit] at hkept
    cases r <;> exact hkept
  | committed key value =>
    rw [advance_committed hi]
    exact hp
  | unborn | loaded key value | saved key value | failed e =>
    rw [advance_of_not_inFlight (by rw [hi]; exact id)]
    exact hp

theorem step_intact (hp : Intact p.store) (m : Move) : Intact (p.step m).store := by
  cases m with
  | load i key =>
    simp only [step]
    split <;> exact hp
  | save i key value =>
    simp only [step]
    split
    · refine perform_keeps (I := Intact) ?_ hp _
      intro s hs
      rw [Intact, (Store.exec_announce_snd key value).1]
      exact hs
    · exact hp
  | advance i => exact advance_intact hp i
  | outage outages => exact hp

theorem run_intact (hp : Intact p.store) (moves : List Move) : Intact (p.run moves).store := by
  induction moves generalizing p with
  | nil => exact hp
  | cons m ms ih => exact ih (step_intact hp m)

end Interleaving.Pool

/-- Loads and saves that overlap on a store. -/
def Store.overlap (moves : List Interleaving.Move) : StoreM Unit :=
  modify fun s => ((Interleaving.Pool.idle s).run moves).store

/-- Once all calls have ended that overlapped, the store is truthful again. -/
theorem Store.truthful_overlap {s : StoreState} (hs : Truthful s.tables s.cache)
    {moves : List Interleaving.Move} (hended : ((Interleaving.Pool.idle s).run moves).Idle) :
    Truthful (exec (overlap moves) s).2.tables (exec (overlap moves) s).2.cache := by
  have hintact := Interleaving.Pool.run_intact (p := .idle s) ⟨hs.complete, hs.texts⟩ moves
  have hcoherent := (Interleaving.Pool.coherent_idle hs.agrees).run moves
  exact ⟨hintact.1, hintact.2, fun _ _ hknown => hcoherent.agrees hended hknown⟩

/-! ## A store and its host -/

namespace StoreHandle

variable {path : Path} {handle : StoreHandle} {h : Host}

/-- A store on a host, while nobody else writes to its file: it is opened on a file whose settings
are texts, if there are any; calls are made on it, one after the other or overlapping; the engine
breaks and recovers; the store is closed, and opens again when it is used; and everything but the
database may change. -/
inductive SoleUse (path : Path) : StoreHandle → Host → Prop where
  | opened {handle : StoreHandle} {h h' : Host} {tables : Tables} :
      exec (StoreHandle.open path) h = (.ok handle, h') → h'.Holds handle.path tables →
      tables.TextSettings → SoleUse path handle h'
  | call {handle : StoreHandle} {h : Host} (call : StoreCall) : SoleUse path handle h →
      SoleUse path (handle.run call.perform h).2.1 (handle.run call.perform h).2.2
  | overlap {handle : StoreHandle} {h : Host} (moves : List Interleaving.Move) :
      SoleUse path handle h → ((Interleaving.Pool.idle (handle.start h)).run moves).Idle →
      SoleUse path (handle.run (Store.overlap moves) h).2.1
        (handle.run (Store.overlap moves) h).2.2
  | close {handle : StoreHandle} {h : Host} : SoleUse path handle h →
      SoleUse path (handle.run Store.close h).2.1 (handle.run Store.close h).2.2
  | outage {handle : StoreHandle} {h : Host} (outages : Outages) : SoleUse path handle h →
      SoleUse path { handle with outages } h
  | meanwhile {handle : StoreHandle} {h h' : Host} : SoleUse path handle h →
      h'.databaseAt handle.path = h.databaseAt handle.path → SoleUse path handle h'

/-- The file of the store is a database, and what is known of its settings is what it holds. -/
def TellsTruth (handle : StoreHandle) (h : Host) : Prop :=
  ∃ tables, h.Holds handle.path tables ∧ Store.Truthful tables handle.cache

theorem TellsTruth.run {α : Type} (hh : handle.TellsTruth h) {op : StoreM α}
    (hop : Store.Truthful (exec op (handle.start h)).2.tables (exec op (handle.start h)).2.cache) :
    (handle.run op h).2.1.TellsTruth (handle.run op h).2.2 := by
  rcases hh with ⟨tables, hold, -⟩
  rw [start_eq hold] at hop
  rcases exec_run hold op with ⟨h', hrun, -, hold'⟩
  rw [hrun]
  exact ⟨_, hold', hop⟩

/-- A store starts on what its file holds. -/
theorem TellsTruth.start (hh : handle.TellsTruth h) :
    Store.Truthful (handle.start h).tables (handle.start h).cache := by
  rcases hh with ⟨tables, hold, htruth⟩
  rw [start_eq hold]
  exact htruth

/-- A store that is used alone tells the truth. -/
theorem SoleUse.tellsTruth (hs : SoleUse path handle h) : handle.TellsTruth h := by
  induction hs with
  | opened hopen hold htexts =>
    rcases open_ok hopen with ⟨rfl, old, hold'⟩
    -- the tables of the file are those that the opening made
    obtain rfl : _ = old.createMissing := by
      have hboth := hold.2.symm.trans hold'.2
      simpa using hboth
    exact ⟨_, hold, Tables.complete_createMissing old, htexts, nofun⟩
  | call call _ ih => exact ih.run (Store.keepsTruthful_perform call _ ih.start)
  | overlap moves _ hended ih => exact ih.run (Store.truthful_overlap ih.start hended)
  | close _ ih => exact ih.run (Store.keepsTruthful_close _ ih.start)
  | outage outages _ ih => exact ih
  | meanwhile _ hsame ih =>
    rcases ih with ⟨tables, hold, htruth⟩
    rw [hold.databaseAt] at hsame
    refine ⟨tables, Host.holds_of_databaseAt hsame ?_, htruth⟩
    rintro rfl
    exact htruth.complete.settings rfl

end StoreHandle

end NodeStore
