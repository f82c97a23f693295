import NodeStore.Proofs.Store.Calls

/-! # What a call writes

Every call writes to one table at most, the one that `StoreCall.table?` names, and leaves the others
as they are, also when it fails. Like the calls the proof is put together by rules: checks and reads
write nothing, and a transaction writes to the table that its body edits.

* `writesOnly_perform`: every call, by the rules. -/

namespace NodeStore

open Op

/-- The table that a call writes to, if it writes to one. -/
def StoreCall.table? : StoreCall → Option TableName
  | saveSeed _ => some .seeds
  | savePeer _ _ => some .peers
  | deletePeer _ => some .peers
  | saveSetting _ _ => some .settings
  | saveChannelId _ _ => some .channels
  | deleteChannelIds _ => some .channels
  | revoke _ => some .revoked
  | loadSeed => none
  | hasSeed => none
  | loadPeers => none
  | loadSetting _ => none
  | loadChannelIds => none
  | loadRevoked => none

/-- The tables are the same, apart from the one of that name. -/
structure Tables.SameBut (name : Option TableName) (t t' : Tables) : Prop where
  seeds : name ≠ some .seeds → t'.seeds = t.seeds
  peers : name ≠ some .peers → t'.peers = t.peers
  settings : name ≠ some .settings → t'.settings = t.settings
  channels : name ≠ some .channels → t'.channels = t.channels
  revoked : name ≠ some .revoked → t'.revoked = t.revoked

namespace Tables.SameBut

variable {name : Option TableName} {t u v : Tables}

theorem refl (name : Option TableName) (t : Tables) : SameBut name t t := by
  constructor <;> simp

theorem trans (h : SameBut name t u) (h' : SameBut name u v) : SameBut name t v where
  seeds hname := (h'.seeds hname).trans (h.seeds hname)
  peers hname := (h'.peers hname).trans (h.peers hname)
  settings hname := (h'.settings hname).trans (h.settings hname)
  channels hname := (h'.channels hname).trans (h.channels hname)
  revoked hname := (h'.revoked hname).trans (h.revoked hname)

end Tables.SameBut

namespace Store

variable {α β : Type} {name : Option TableName}

/-- The operation leaves the tables as they are, apart from the one of that name. -/
def WritesOnly (name : Option TableName) (op : StoreM α) : Prop :=
  ∀ tables, Keeps (fun s => Tables.SameBut name tables s.tables) op

theorem WritesOnly.sameBut {op : StoreM α} (h : WritesOnly name op) (s : StoreState) :
    Tables.SameBut name s.tables (exec op s).2.tables :=
  h s.tables s (.refl name s.tables)

theorem ReadsOnly.writesOnly {op : StoreM α} (h : ReadsOnly op) : WritesOnly name op := by
  intro tables s hs
  rw [(h.same s).1]
  exact hs

/-! ## Rules -/

theorem writesOnly_pure (a : α) : WritesOnly name (pure a : StoreM α) := fun _ => keeps_pure a

theorem writesOnly_log (level : Int) (message : String) : WritesOnly name (log level message) :=
  (readsOnly_log level message).writesOnly

theorem writesOnly_liftExcept (x : Except Failure α) : WritesOnly name (liftM x : StoreM α) :=
  (readsOnly_liftExcept x).writesOnly

theorem writesOnly_bind {op : StoreM α} {f : α → StoreM β} (h : WritesOnly name op)
    (hf : ∀ a, WritesOnly name (f a)) : WritesOnly name (op >>= f) := fun tables =>
  keeps_bind (h tables) fun a => hf a tables

theorem writesOnly_map {op : StoreM α} (f : α → β) (h : WritesOnly name op) :
    WritesOnly name (f <$> op) := fun tables => keeps_map (h tables)

/-- The rule for a transaction, whose body writes to no other table. -/
theorem writesOnly_transaction {body : Tables → Except DatabaseFault (α × Tables)}
    (hbody : ∀ tables a new, body tables = .ok (a, new) → Tables.SameBut name tables new) :
    WritesOnly name (transaction body) := by
  intro tables
  apply keeps_transaction
  intro s a new hs hok
  exact hs.trans (hbody s.tables a new hok)

/-- The rule for a transaction that finds its table and then edits it. -/
theorem writesOnly_edit {γ : Type} {found : TableName} {statement : Option Statement}
    {table : Tables → Option γ} {edit : Tables → γ → α × Tables}
    (hedit : ∀ t x, Tables.SameBut name t (edit t x).2) :
    WritesOnly name (transaction fun t => do
      let x ← present found statement (table t)
      return edit t x) := by
  apply writesOnly_transaction
  intro t a new hok
  cases hfound : table t with
  | none => simp [hfound, present, bind, Except.bind] at hok
  | some x =>
    simp only [hfound, present_some, ok_bind, pure, Except.pure, Except.ok.injEq] at hok
    have hnew : (edit t x).2 = new := congrArg Prod.snd hok
    rw [← hnew]
    exact hedit t x

/-! ## Seeds -/

theorem writesOnly_saveSeed (sealedText : Option String) :
    WritesOnly (some .seeds) (saveSeed sealedText) := by
  unfold saveSeed
  refine writesOnly_bind (writesOnly_log _ _) fun _ => ?_
  refine writesOnly_bind (writesOnly_transaction ?_) fun _ => writesOnly_log _ _
  intro t a new hok
  cases hseeds : t.seeds with
  | none => simp [clearSeeds, hseeds, present, bind, Except.bind] at hok
  | some seeds =>
    cases sealedText with
    | none => simp [clearSeeds, insertSeed, hseeds, pure, Except.pure, bind, Except.bind] at hok
    | some text =>
      simp only [clearSeeds, insertSeed, hseeds, present_some, ok_bind, pure, Except.pure,
        Except.ok.injEq, Prod.mk.injEq] at hok
      rw [← hok.2]
      constructor <;> simp

theorem writesOnly_loadSeed : WritesOnly none loadSeed := by
  unfold loadSeed
  refine writesOnly_bind (writesOnly_log _ _) fun _ => ?_
  refine writesOnly_bind (readsOnly_readTable _ _ _).writesOnly fun row => ?_
  cases row with
  | some r => exact writesOnly_pure r.data
  | none => exact fun _ => keeps_throw _

theorem writesOnly_hasSeed : WritesOnly none hasSeed := by
  unfold hasSeed
  refine writesOnly_bind (readsOnly_readTable _ _ _).writesOnly fun _ => ?_
  exact writesOnly_bind (writesOnly_log _ _) fun _ => writesOnly_pure _

/-! ## Peers -/

theorem writesOnly_savePeer (key address : Value) :
    WritesOnly (some .peers) (savePeer key address) := by
  unfold savePeer
  refine writesOnly_bind (writesOnly_liftExcept _) fun _ => ?_
  refine writesOnly_bind (writesOnly_liftExcept _) fun _ => ?_
  refine writesOnly_bind (writesOnly_log _ _) fun _ => ?_
  exact writesOnly_edit fun _ _ => by constructor <;> simp

theorem writesOnly_loadPeers : WritesOnly none loadPeers := by
  unfold loadPeers
  refine writesOnly_bind (readsOnly_readTable _ _ _).writesOnly fun _ => ?_
  refine writesOnly_bind (writesOnly_liftExcept _) fun _ => ?_
  exact writesOnly_bind (writesOnly_log _ _) fun _ => writesOnly_pure _

theorem writesOnly_deletePeer (key : Value) : WritesOnly (some .peers) (deletePeer key) := by
  unfold deletePeer
  refine writesOnly_bind (writesOnly_liftExcept _) fun text => ?_
  refine writesOnly_bind (writesOnly_log _ _) fun _ => ?_
  refine writesOnly_bind (writesOnly_edit fun _ _ => by constructor <;> simp) fun count => ?_
  split
  · exact writesOnly_bind (writesOnly_log _ _) fun _ => writesOnly_pure false
  · exact writesOnly_bind (writesOnly_log _ _) fun _ => writesOnly_pure true

/-! ## Settings -/

theorem writesOnly_saveSetting (key : String) (value : Option String) :
    WritesOnly (some .settings) (saveSetting key value) := by
  unfold saveSetting commitSetting enterSetting
  refine writesOnly_bind readsOnly_countSettingSave.writesOnly fun _ => ?_
  refine writesOnly_bind (writesOnly_log _ _) fun _ => ?_
  refine writesOnly_bind (writesOnly_transaction ?_) fun _ => fun _ => keeps_modify fun _ hs => hs
  intro t a new hok
  cases hsettings : t.settings with
  | none => simp [hsettings, present, bind, Except.bind] at hok
  | some settings =>
    cases value with
    | none => simp [hsettings] at hok
    | some text =>
      simp only [hsettings, present_some, ok_bind, pure, Except.pure, Except.ok.injEq,
        Prod.mk.injEq] at hok
      rw [← hok.2]
      constructor <;> simp

theorem writesOnly_saveUnnamedSetting (value : Option String) :
    WritesOnly (some .settings) (saveUnnamedSetting value) := by
  unfold saveUnnamedSetting
  refine writesOnly_bind readsOnly_countSettingSave.writesOnly fun _ => ?_
  refine writesOnly_bind (writesOnly_log _ _) fun _ => writesOnly_transaction ?_
  intro t a new hok
  cases hsettings : t.settings with
  | none => simp [hsettings, present, bind, Except.bind] at hok
  | some settings => simp [hsettings] at hok

theorem writesOnly_loadSetting (key : String) : WritesOnly none (loadSetting key) := by
  intro tables s hs
  rw [loadSetting_tables]
  exact hs

/-! ## Channel ids -/

theorem writesOnly_saveChannelId (temporary final : Bytes) :
    WritesOnly (some .channels) (saveChannelId temporary final) := by
  unfold saveChannelId
  refine writesOnly_bind readsOnly_countChannelSave.writesOnly fun _ => ?_
  refine writesOnly_bind (writesOnly_liftExcept _) fun _ => ?_
  refine writesOnly_bind (writesOnly_liftExcept _) fun _ => ?_
  refine writesOnly_bind (writesOnly_log _ _) fun _ => ?_
  exact writesOnly_edit fun _ _ => by constructor <;> simp

theorem writesOnly_loadChannelIds : WritesOnly none loadChannelIds := by
  unfold loadChannelIds
  refine writesOnly_bind (readsOnly_readTable _ _ _).writesOnly fun rows => ?_
  refine writesOnly_bind (fun _ => keeps_keepChannelIds (fun _ _ hs => hs) rows) fun _ => ?_
  exact writesOnly_bind (writesOnly_log _ _) fun _ => writesOnly_pure _

theorem writesOnly_deleteChannelIds (final : Bytes) :
    WritesOnly (some .channels) (deleteChannelIds final) := by
  unfold deleteChannelIds
  refine writesOnly_bind (writesOnly_liftExcept _) fun text => ?_
  refine writesOnly_bind (writesOnly_log _ _) fun _ => ?_
  refine writesOnly_bind (writesOnly_edit fun _ _ => by constructor <;> simp) fun count => ?_
  split
  · exact writesOnly_bind (writesOnly_log _ _) fun _ => writesOnly_pure count
  · exact writesOnly_pure count

/-! ## Tokens -/

theorem writesOnly_revoke (id : Value) : WritesOnly (some .revoked) (revoke id) := by
  unfold revoke
  refine writesOnly_bind (writesOnly_liftExcept _) fun _ => ?_
  refine writesOnly_bind (writesOnly_log _ _) fun _ => ?_
  refine writesOnly_bind (writesOnly_transaction ?_) fun added => ?_
  · intro t a new hok
    cases hrevoked : t.revoked with
    | none => simp [hrevoked, present, bind, Except.bind] at hok
    | some revoked =>
      simp only [hrevoked, present_some, ok_bind, pure, Except.pure] at hok
      -- a token that was revoked before is not added
      split at hok
      · obtain rfl : t = new := congrArg Prod.snd (Except.ok.inj hok)
        exact .refl _ _
      · obtain rfl : _ = new := congrArg Prod.snd (Except.ok.inj hok)
        constructor <;> simp
  · split
    · exact writesOnly_log _ _
    · exact writesOnly_pure ()

theorem writesOnly_keepRevoked (rows : List (Row Cell)) : WritesOnly name (keepRevoked rows) := by
  induction rows with
  | nil => exact writesOnly_pure []
  | cons r rest ih =>
    unfold keepRevoked
    split
    · exact writesOnly_bind ih fun _ => writesOnly_pure _
    · exact writesOnly_bind (writesOnly_log _ _) fun _ => ih

theorem writesOnly_loadRevoked : WritesOnly none loadRevoked := by
  unfold loadRevoked
  refine writesOnly_bind (readsOnly_readTable _ _ _).writesOnly fun rows => ?_
  refine writesOnly_bind (writesOnly_keepRevoked rows) fun _ => ?_
  exact writesOnly_bind (writesOnly_log _ _) fun _ => writesOnly_pure _

/-! ## All calls -/

/-- Every call writes to its own table at most. -/
theorem writesOnly_perform (call : StoreCall) : WritesOnly call.table? call.perform := by
  cases call with
  | saveSeed sealedText => exact writesOnly_map _ (writesOnly_saveSeed sealedText)
  | loadSeed => exact writesOnly_map _ writesOnly_loadSeed
  | hasSeed => exact writesOnly_map _ writesOnly_hasSeed
  | savePeer key address => exact writesOnly_map _ (writesOnly_savePeer key address)
  | loadPeers => exact writesOnly_map _ writesOnly_loadPeers
  | deletePeer key => exact writesOnly_map _ (writesOnly_deletePeer key)
  | saveSetting key value =>
    cases key with
    | some key => exact writesOnly_map _ (writesOnly_saveSetting key value)
    | none => exact writesOnly_map _ (writesOnly_saveUnnamedSetting value)
  | loadSetting key => exact writesOnly_map _ (writesOnly_loadSetting key)
  | saveChannelId temporary final =>
    exact writesOnly_map _ (writesOnly_saveChannelId temporary final)
  | loadChannelIds => exact writesOnly_map _ writesOnly_loadChannelIds
  | deleteChannelIds final => exact writesOnly_map _ (writesOnly_deleteChannelIds final)
  | revoke id => exact writesOnly_map _ (writesOnly_revoke id)
  | loadRevoked => exact writesOnly_map _ writesOnly_loadRevoked

end Store

end NodeStore
