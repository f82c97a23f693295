import NodeStore.Proofs.Store.Calls

/-! # Calls on two states with the same tables

A store that was just opened knows nothing, and one that has been in use may know settings. As long
as what is known is what the table holds, no call can tell them apart: `StoreState.Twins` relates
two such states over the same tables, and every call answers alike from both and leaves twins
(`agree_perform`). Both work: all tables are there, and nothing is out.

* `LeavesSettings`: the bodies of transactions that leave the settings;
* `exec_loadSetting_sound`: a load answers with the row, wherever it finds it;
* `agree_perform`: every call. -/

namespace NodeStore

open Op

/-! ## States that work -/

/-- No table is missing. -/
structure Tables.Complete (t : Tables) : Prop where
  seeds : t.seeds ≠ none
  peers : t.peers ≠ none
  settings : t.settings ≠ none
  channels : t.channels ≠ none
  revoked : t.revoked ≠ none

namespace Tables

variable {t : Tables}

theorem complete_createMissing (t : Tables) : t.createMissing.Complete := by
  constructor <;> simp [createMissing]

/-- Tables that are there are left as they are. -/
theorem Complete.createMissing (h : t.Complete) : t.createMissing = t := by
  rcases t with ⟨_ | seeds, _ | peers, _ | settings, _ | channels, _ | revoked⟩
  all_goals first | rfl | exact absurd rfl h.1 | exact absurd rfl h.2 | exact absurd rfl h.3 |
    exact absurd rfl h.4 | exact absurd rfl h.5

end Tables

/-- All tables are there, nothing is out, and what is known of settings is what the table holds. -/
structure StoreState.Sound (s : StoreState) : Prop where
  complete : s.tables.Complete
  works : s.outages = {}
  agrees : ∀ key known, s.known key = some known → known = s.setting key

/-- The states work, on the same tables. -/
structure StoreState.Twins (s s' : StoreState) : Prop where
  sound : s.Sound
  sound' : s'.Sound
  tables : s'.tables = s.tables

namespace Store

variable {α β : Type} {s s' t : StoreState} {key : String}

/-! ## Steps of calls -/

theorem agree_log (level : Int) (message : String) : Agree StoreState.Twins (log level message) :=
  fun _ _ h => ⟨rfl, ⟨h.sound.1, h.sound.2, h.sound.3⟩, ⟨h.sound'.1, h.sound'.2, h.sound'.3⟩,
    h.tables⟩

/-- No save is counted while nothing is out. -/
theorem exec_countSettingSave_sound (h : s.Sound) : exec countSettingSave s = (.ok (), s) := by
  rw [exec_countSettingSave, h.works]
  exact congrArg (fun outages => (Except.ok (), { s with outages })) h.works.symm

theorem exec_countChannelSave_sound (h : s.Sound) : exec countChannelSave s = (.ok (), s) := by
  rw [exec_countChannelSave, h.works]
  exact congrArg (fun outages => (Except.ok (), { s with outages })) h.works.symm

theorem agree_countSettingSave : Agree StoreState.Twins countSettingSave := by
  intro s s' h
  rw [exec_countSettingSave_sound h.sound, exec_countSettingSave_sound h.sound']
  exact ⟨rfl, h⟩

theorem agree_countChannelSave : Agree StoreState.Twins countChannelSave := by
  intro s s' h
  rw [exec_countChannelSave_sound h.sound, exec_countChannelSave_sound h.sound']
  exact ⟨rfl, h⟩

/-! ## Transactions that leave the settings -/

/-- The body of a transaction leaves the settings, and drops no table. -/
def LeavesSettings (body : Tables → Except DatabaseFault (α × Tables)) : Prop :=
  ∀ tables a new, tables.Complete → body tables = .ok (a, new) →
    new.Complete ∧ new.settings = tables.settings

/-- The rule for one table that is changed, and is not that of the settings. -/
theorem leavesSettings_changeTable {γ : Type} (name : TableName) (statement : Option Statement)
    (table : Tables → Option γ) (change : Tables → γ → α × Tables)
    (hchange : ∀ t found, t.Complete →
      (change t found).2.Complete ∧ (change t found).2.settings = t.settings) :
    LeavesSettings fun t => do
      let found ← present name statement (table t)
      return change t found := by
  intro t a new ht hok
  cases hfound : table t with
  | none => simp [hfound, present, bind, Except.bind] at hok
  | some found =>
    simp only [hfound, present_some, ok_bind, pure, Except.pure, Except.ok.injEq] at hok
    have hnew : (change t found).2 = new := congrArg Prod.snd hok
    rw [← hnew]
    exact hchange t found ht

/-- The rule for a table that is read. -/
theorem leavesSettings_readTable {γ : Type} (name : TableName) (table : Tables → Option γ)
    (answer : γ → α) :
    LeavesSettings fun t => do
      let found ← present name none (table t)
      return (answer found, t) :=
  leavesSettings_changeTable name none table (fun t found => (answer found, t)) fun _ _ ht =>
    ⟨ht, rfl⟩

/-- The rule for the table of peers that is changed. -/
theorem leavesSettings_changePeers (statement : Option Statement)
    (change : Table (Cell × Cell) → α × Table (Cell × Cell)) :
    LeavesSettings fun t => do
      let peers ← present .peers statement t.peers
      return ((change peers).1, { t with peers := some (change peers).2 }) :=
  leavesSettings_changeTable .peers statement Tables.peers _ fun _ _ ht =>
    ⟨⟨ht.seeds, nofun, ht.settings, ht.channels, ht.revoked⟩, rfl⟩

/-- The rule for the table of channel ids that is changed. -/
theorem leavesSettings_changeChannels (statement : Option Statement)
    (change : Table (Cell × Cell) → α × Table (Cell × Cell)) :
    LeavesSettings fun t => do
      let channels ← present .channels statement t.channels
      return ((change channels).1, { t with channels := some (change channels).2 }) :=
  leavesSettings_changeTable .channels statement Tables.channels _ fun _ _ ht =>
    ⟨⟨ht.seeds, ht.peers, ht.settings, nofun, ht.revoked⟩, rfl⟩

theorem leavesSettings_replaceSeed (sealedText : Option String) :
    LeavesSettings fun t => do
      let cleared ← clearSeeds t
      return ((), ← insertSeed sealedText cleared) := by
  intro t a new ht hok
  rcases Option.ne_none_iff_exists'.1 ht.seeds with ⟨seeds, hseeds⟩
  cases sealedText with
  | none => simp [clearSeeds, insertSeed, hseeds, pure, Except.pure, bind, Except.bind] at hok
  | some text =>
    simp only [clearSeeds, insertSeed, hseeds, present_some, ok_bind, pure, Except.pure,
      Except.ok.injEq, Prod.mk.injEq] at hok
    rw [← hok.2]
    exact ⟨⟨nofun, ht.peers, ht.settings, ht.channels, ht.revoked⟩, rfl⟩

theorem leavesSettings_addRevoked (text : String) :
    LeavesSettings fun t => do
      let revoked ← present .revoked none t.revoked
      if (revoked.find? fun c => c == .text text).isSome then return (false, t)
      else return (true, { t with revoked := some (revoked.append (.text text)) }) := by
  intro t a new ht hok
  rcases Option.ne_none_iff_exists'.1 ht.revoked with ⟨revoked, hrevoked⟩
  simp only [hrevoked, present_some, ok_bind, pure, Except.pure] at hok
  split at hok
  · obtain rfl : t = new := congrArg Prod.snd (Except.ok.inj hok)
    exact ⟨ht, rfl⟩
  · obtain rfl : _ = new := congrArg Prod.snd (Except.ok.inj hok)
    exact ⟨⟨ht.seeds, ht.peers, ht.settings, ht.channels, nofun⟩, rfl⟩

/-- A setting without a name is refused. -/
theorem leavesSettings_refuseUnnamed :
    LeavesSettings (fun t => do
      let _ ← present .settings (some TableName.settings.lookupUnnamed) t.settings
      .error TableName.settings.noKey : Tables → Except DatabaseFault (Unit × Tables)) := by
  intro t a new ht hok
  rcases Option.ne_none_iff_exists'.1 ht.settings with ⟨settings, hsettings⟩
  simp [hsettings] at hok

theorem agree_transaction {body : Tables → Except DatabaseFault (α × Tables)}
    (hbody : LeavesSettings body) : Agree StoreState.Twins (transaction body) := by
  intro s s' h
  have hworks : s.outages.transactions = none := by rw [h.sound.works]
  have hworks' : s'.outages.transactions = none := by rw [h.sound'.works]
  rw [exec_transaction, exec_transaction, hworks, hworks', h.tables]
  cases hrun : body s.tables with
  | error fault => exact ⟨rfl, h⟩
  | ok result =>
    rcases result with ⟨a, new⟩
    rcases hbody _ a new h.sound.complete hrun with ⟨hcomplete, hsettings⟩
    -- what either of them knows of settings is still in the table
    have hsetting : ∀ key, new.setting key = s.tables.setting key := by
      intro key
      rw [Tables.setting, hsettings]
      rfl
    refine ⟨rfl, ⟨hcomplete, h.sound.works, ?_⟩, ⟨hcomplete, h.sound'.works, ?_⟩, rfl⟩
    · intro key known hknown
      exact (h.sound.agrees key known hknown).trans (hsetting key).symm
    · intro key known hknown
      have hrow := h.sound'.agrees key known hknown
      rw [StoreState.setting, h.tables] at hrow
      exact hrow.trans (hsetting key).symm

/-! ## The calls -/

theorem agree_saveSeed (sealedText : Option String) :
    Agree StoreState.Twins (saveSeed sealedText) := by
  unfold saveSeed
  refine agree_bind (agree_log _ _) fun _ => ?_
  refine agree_bind (agree_transaction (leavesSettings_replaceSeed sealedText)) fun _ => ?_
  exact agree_log _ _

theorem agree_loadSeed : Agree StoreState.Twins loadSeed := by
  unfold loadSeed
  refine agree_bind (agree_log _ _) fun _ => ?_
  refine agree_bind (agree_transaction (leavesSettings_readTable _ _ _)) fun row => ?_
  cases row with
  | some r => exact agree_pure r.data
  | none => exact agree_throw _

theorem agree_hasSeed : Agree StoreState.Twins hasSeed := by
  unfold hasSeed
  refine agree_bind (agree_transaction (leavesSettings_readTable _ _ _)) fun _ => ?_
  exact agree_bind (agree_log _ _) fun _ => agree_pure _

theorem agree_savePeer (key address : Value) : Agree StoreState.Twins (savePeer key address) := by
  unfold savePeer
  refine agree_bind (agree_liftExcept _) fun _ => ?_
  refine agree_bind (agree_liftExcept _) fun _ => ?_
  refine agree_bind (agree_log _ _) fun _ => ?_
  exact agree_transaction (leavesSettings_changePeers _ fun peers => ((), peers.upsert _ _))

theorem agree_loadPeers : Agree StoreState.Twins loadPeers := by
  unfold loadPeers
  refine agree_bind (agree_transaction (leavesSettings_readTable _ _ _)) fun _ => ?_
  refine agree_bind (agree_liftExcept _) fun _ => ?_
  exact agree_bind (agree_log _ _) fun _ => agree_pure _

theorem agree_deletePeer (key : Value) : Agree StoreState.Twins (deletePeer key) := by
  unfold deletePeer
  refine agree_bind (agree_liftExcept _) fun text => ?_
  refine agree_bind (agree_log _ _) fun _ => ?_
  have hdelete := leavesSettings_changePeers none fun peers =>
    (peers.countWhere fun d => d.1 == .text text, peers.deleteWhere fun d => d.1 == .text text)
  refine agree_bind (agree_transaction hdelete) fun count => ?_
  split
  · exact agree_bind (agree_log _ _) fun _ => agree_pure false
  · exact agree_bind (agree_log _ _) fun _ => agree_pure true

/-- A setting that is saved is known and is the row. -/
theorem sound_of_saved {text : String} (h : s.Sound) {settings : Table (Cell × Cell)}
    (hsettings : s.tables.settings = some settings) (hworks : t.outages = {})
    (htables : t.tables =
      { s.tables with settings := some (settings.upsert (.text key) (.text text)) })
    (hcache : t.cache = s.cache.store key (some (.text text))) : t.Sound where
  complete := by
    rw [htables]
    exact ⟨h.complete.seeds, h.complete.peers, nofun, h.complete.channels, h.complete.revoked⟩
  works := hworks
  agrees := by
    intro k known hknown
    rw [StoreState.known, hcache, ConfigCache.lookup_store] at hknown
    rw [StoreState.setting, Tables.setting, htables, Option.bind_some, Table.valueOf_upsert]
    by_cases hk : k = key
    · rw [if_pos hk, Option.some.injEq] at hknown
      rw [← hknown, hk, if_pos rfl]
    · rw [if_neg hk] at hknown
      rw [if_neg (by simpa using hk), h.agrees k known hknown, StoreState.setting, Tables.setting,
        hsettings, Option.bind_some]

theorem agree_saveSetting (key : String) (value : Option String) :
    Agree StoreState.Twins (saveSetting key value) := by
  cases value with
  | none =>
    unfold saveSetting
    refine agree_bind agree_countSettingSave fun _ => ?_
    refine agree_bind (agree_log _ _) fun _ => ?_
    -- a setting must have a value, and so nothing is entered
    have hrefused : ∀ t : Tables, ∃ fault, (do
        let _ ← present .settings (some (TableName.settings.lookup key)) t.settings
        .error TableName.settings.noValue : Except DatabaseFault (Unit × Tables)) =
          .error fault := by
      intro t
      cases t.settings with
      | none => exact ⟨_, rfl⟩
      | some settings => exact ⟨_, rfl⟩
    intro s s' h
    rcases hrefused s.tables with ⟨fault, hfault⟩
    have hcommit : exec (commitSetting key none) s = (.error (.database fault), s) := by
      unfold commitSetting
      rw [exec_transaction, h.sound.works]
      simp only [hfault]
    have hcommit' : exec (commitSetting key none) s' = (.error (.database fault), s') := by
      unfold commitSetting
      rw [exec_transaction, h.sound'.works, h.tables]
      simp only [hfault]
    rw [exec_bind_of_error hcommit, exec_bind_of_error hcommit']
    exact ⟨rfl, h⟩
  | some text =>
    intro s s' h
    rcases Option.ne_none_iff_exists'.1 h.sound.complete.settings with ⟨settings, hsettings⟩
    have hsettings' : s'.tables.settings = some settings := by rw [h.tables, hsettings]
    obtain ⟨t, hrun, hworks, htables, hcache⟩ :=
      exec_saveSetting_text key text h.sound.works hsettings
    obtain ⟨t', hrun', hworks', htables', hcache'⟩ :=
      exec_saveSetting_text key text h.sound'.works hsettings'
    rw [hrun, hrun']
    refine ⟨rfl, sound_of_saved h.sound hsettings hworks htables hcache,
      sound_of_saved h.sound' hsettings' hworks' htables' hcache', ?_⟩
    rw [htables, htables', h.tables]

theorem agree_saveUnnamedSetting (value : Option String) :
    Agree StoreState.Twins (saveUnnamedSetting value) := by
  unfold saveUnnamedSetting
  refine agree_bind agree_countSettingSave fun _ => ?_
  exact agree_bind (agree_log _ _) fun _ => agree_transaction leavesSettings_refuseUnnamed

/-- A load answers with the row, wherever it finds it. -/
theorem exec_loadSetting_sound (h : s.Sound) (key : String) :
    ∃ t, exec (loadSetting key) s = (.ok (s.setting key), t) ∧ t.Sound ∧
      t.tables = s.tables := by
  cases hknown : s.known key with
  | some known =>
    rw [exec_loadSetting_hit hknown, h.agrees key known hknown]
    exact ⟨s, rfl, h, rfl⟩
  | none =>
    -- nothing is known, so that the row is read and known then
    have hreadable : Readable s := by
      refine ⟨?_, ?_, h.complete.settings⟩
      · rw [h.works]
      · rw [h.works]
    rcases exec_loadSetting_row hknown hreadable with ⟨log, hload⟩
    rcases loadSetting_ok_of_agrees h.agrees hload with ⟨-, -, hagrees⟩
    exact ⟨_, hload, ⟨h.complete, h.works, hagrees⟩, rfl⟩

theorem agree_loadSetting (key : String) : Agree StoreState.Twins (loadSetting key) := by
  intro s s' h
  rcases exec_loadSetting_sound h.sound key with ⟨t, hload, hsound, htables⟩
  rcases exec_loadSetting_sound h.sound' key with ⟨t', hload', hsound', htables'⟩
  rw [hload, hload']
  refine ⟨?_, hsound, hsound', ?_⟩
  · rw [StoreState.setting, h.tables]
    rfl
  · rw [htables, htables', h.tables]

theorem agree_saveChannelId (temporary final : Bytes) :
    Agree StoreState.Twins (saveChannelId temporary final) := by
  unfold saveChannelId
  refine agree_bind agree_countChannelSave fun _ => ?_
  refine agree_bind (agree_liftExcept _) fun _ => ?_
  refine agree_bind (agree_liftExcept _) fun _ => ?_
  refine agree_bind (agree_log _ _) fun _ => ?_
  exact agree_transaction
    (leavesSettings_changeChannels _ fun channels => ((), channels.upsert _ _))

theorem agree_keepChannelIds (rows : List (Row (Cell × Cell))) :
    Agree StoreState.Twins (keepChannelIds rows) := by
  induction rows with
  | nil => exact agree_pure []
  | cons r rest ih =>
    unfold keepChannelIds
    split
    · exact agree_bind ih fun _ => agree_pure _
    · exact agree_bind (agree_log _ _) fun _ => ih

theorem agree_loadChannelIds : Agree StoreState.Twins loadChannelIds := by
  unfold loadChannelIds
  refine agree_bind (agree_transaction (leavesSettings_readTable _ _ _)) fun rows => ?_
  refine agree_bind (agree_keepChannelIds rows) fun _ => ?_
  exact agree_bind (agree_log _ _) fun _ => agree_pure _

theorem agree_deleteChannelIds (final : Bytes) :
    Agree StoreState.Twins (deleteChannelIds final) := by
  unfold deleteChannelIds
  refine agree_bind (agree_liftExcept _) fun text => ?_
  refine agree_bind (agree_log _ _) fun _ => ?_
  have hdelete := leavesSettings_changeChannels none fun channels =>
    (channels.countWhere fun d => d.2 == .text text,
      channels.deleteWhere fun d => d.2 == .text text)
  refine agree_bind (agree_transaction hdelete) fun count => ?_
  split
  · exact agree_bind (agree_log _ _) fun _ => agree_pure count
  · exact agree_pure count

theorem agree_revoke (id : Value) : Agree StoreState.Twins (revoke id) := by
  unfold revoke
  refine agree_bind (agree_liftExcept _) fun _ => ?_
  refine agree_bind (agree_log _ _) fun _ => ?_
  refine agree_bind (agree_transaction (leavesSettings_addRevoked _)) fun added => ?_
  split
  · exact agree_log _ _
  · exact agree_pure ()

theorem agree_keepRevoked (rows : List (Row Cell)) :
    Agree StoreState.Twins (keepRevoked rows) := by
  induction rows with
  | nil => exact agree_pure []
  | cons r rest ih =>
    unfold keepRevoked
    split
    · exact agree_bind ih fun _ => agree_pure _
    · exact agree_bind (agree_log _ _) fun _ => ih

theorem agree_loadRevoked : Agree StoreState.Twins loadRevoked := by
  unfold loadRevoked
  refine agree_bind (agree_transaction (leavesSettings_readTable _ _ _)) fun rows => ?_
  refine agree_bind (agree_keepRevoked rows) fun _ => ?_
  exact agree_bind (agree_log _ _) fun _ => agree_pure _

/-- Every call answers alike from twins, and leaves twins. -/
theorem agree_perform (call : StoreCall) : Agree StoreState.Twins call.perform := by
  cases call with
  | saveSeed sealedText => exact agree_map _ (agree_saveSeed sealedText)
  | loadSeed => exact agree_map _ agree_loadSeed
  | hasSeed => exact agree_map _ agree_hasSeed
  | savePeer key address => exact agree_map _ (agree_savePeer key address)
  | loadPeers => exact agree_map _ agree_loadPeers
  | deletePeer key => exact agree_map _ (agree_deletePeer key)
  | saveSetting key value =>
    cases key with
    | some key => exact agree_map _ (agree_saveSetting key value)
    | none => exact agree_map _ (agree_saveUnnamedSetting value)
  | loadSetting key => exact agree_map _ (agree_loadSetting key)
  | saveChannelId temporary final => exact agree_map _ (agree_saveChannelId temporary final)
  | loadChannelIds => exact agree_map _ agree_loadChannelIds
  | deleteChannelIds final => exact agree_map _ (agree_deleteChannelIds final)
  | revoke id => exact agree_map _ (agree_revoke id)
  | loadRevoked => exact agree_map _ agree_loadRevoked

end Store

end NodeStore
