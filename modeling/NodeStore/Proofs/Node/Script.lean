import NodeStore.Proofs.Node.Migration
import NodeStore.Proofs.Store.Calls

/-! # Operations as scripts of loads and saves

A publication loads settings and a migration saves them, one after the other, with work on files in
between. A `Script` is an operation of a node cut where it loads a setting, saves one or forgets its
cache: each of these is a step, and other nodes may come in between two steps. What lies between
touches neither the cache nor the path of the store (`KeepsStore`).

* `scripted_bind`, `scripted_tryCatch`: the rules for operations that have a script;
* `scripted_publication`, `scripted_migration`: publications and migrations have one. -/

namespace NodeStore

open Op Node

/-- The operation leaves what is cached, and the path of the store. -/
def KeepsStore {α : Type} (op : NodeM α) : Prop :=
  ∀ cache path, Keeps (fun s => s.node.store.cache = cache ∧ s.node.store.path = path) op

/-- What is left of an operation: its answer, or its next step and what is left after that. -/
inductive Script (α : Type) where
  | ended (answer : Except Failure α)
  | save (key : String) (value : Option String) (rest : Except Failure Unit → Script α)
  | load (key : String) (rest : Except Failure (Option Cell) → Script α)
  | close (rest : Script α)
  /-- Work that does not touch what is cached. -/
  | aside (move : NodeState → NodeState)
      (keeps : ∀ s, (move s).node.store.cache = s.node.store.cache ∧
        (move s).node.store.path = s.node.store.path) (rest : NodeState → Script α)

namespace Script

variable {α β : Type}

/-- Performs what is left. -/
def perform : Script α → NodeM α
  | ended answer => liftM answer
  | save key value rest => fun s =>
    let (r, t) := exec (onStore (Store.saveSetting key value)) s
    exec (rest r).perform t
  | load key rest => fun s =>
    let (r, t) := exec (onStore (Store.loadSetting key)) s
    exec (rest r).perform t
  | close rest => fun s => exec rest.perform (exec (onStore Store.close) s).2
  | aside move _ rest => fun s => exec (rest s).perform (move s)

/-- Takes the next step: what is left then, and the state. -/
def step : Script α → NodeState → Script α × NodeState
  | ended answer, s => (ended answer, s)
  | save key value rest, s =>
    let (r, t) := exec (onStore (Store.saveSetting key value)) s
    (rest r, t)
  | load key rest, s =>
    let (r, t) := exec (onStore (Store.loadSetting key)) s
    (rest r, t)
  | close rest, s => (rest, (exec (onStore Store.close) s).2)
  | aside move _ rest, s => (rest s, move s)

/-! ## Building scripts -/

/-- An operation that is one piece of work aside. -/
def work (op : NodeM α) (h : KeepsStore op) : Script α :=
  aside (fun s => (exec op s).2) (fun s => h _ _ s ⟨rfl, rfl⟩) fun s => ended (exec op s).1

/-- A script, and then another one that depends on its answer. -/
def bind : Script α → (α → Script β) → Script β
  | ended (.ok a), f => f a
  | ended (.error e), _ => ended (.error e)
  | save key value rest, f => save key value fun r => (rest r).bind f
  | load key rest, f => load key fun r => (rest r).bind f
  | close rest, f => close (rest.bind f)
  | aside move keeps rest, f => aside move keeps fun s => (rest s).bind f

/-- A script, and if it fails another one that depends on the failure. -/
def recover : Script α → (Failure → Script α) → Script α
  | ended (.ok a), _ => ended (.ok a)
  | ended (.error e), handle => handle e
  | save key value rest, handle => save key value fun r => (rest r).recover handle
  | load key rest, handle => load key fun r => (rest r).recover handle
  | close rest, handle => close (rest.recover handle)
  | aside move keeps rest, handle => aside move keeps fun s => (rest s).recover handle

theorem perform_work (op : NodeM α) (h : KeepsStore op) : (work op h).perform = op := by
  funext s
  show exec (liftM (exec op s).1 : NodeM α) (exec op s).2 = _
  rw [exec_liftExcept]
  rfl

theorem exec_perform_bind (p : Script α) (f : α → Script β) (s : NodeState) :
    exec (p.bind f).perform s = exec (p.perform >>= fun a => (f a).perform) s := by
  rw [exec_bind]
  induction p generalizing s with
  | ended r =>
    cases r with
    | ok a => rfl
    | error e => rfl
  | save key value rest ih => exact ih _ _
  | load key rest ih => exact ih _ _
  | close rest ih => exact ih _
  | aside move keeps rest ih => exact ih _ _

theorem perform_bind (p : Script α) (f : α → Script β) :
    (p.bind f).perform = p.perform >>= fun a => (f a).perform :=
  funext (exec_perform_bind p f)

/-- A script whose answer is changed. -/
def map (f : α → β) (p : Script α) : Script β :=
  p.bind fun a => ended (.ok (f a))

theorem perform_map (f : α → β) (p : Script α) : (p.map f).perform = f <$> p.perform := by
  unfold map
  rw [perform_bind, ← bind_pure_comp]
  rfl

/-- One save. -/
theorem perform_save (key : String) (value : Option String) :
    (save key value ended).perform = onStore (Store.saveSetting key value) := by
  funext s
  exact exec_liftExcept _ _

/-- One load. -/
theorem perform_load (key : String) :
    (load key ended).perform = onStore (Store.loadSetting key) := by
  funext s
  exact exec_liftExcept _ _

theorem exec_perform_recover (p : Script α) (handle : Failure → Script α) (s : NodeState) :
    exec (p.recover handle).perform s =
      exec (tryCatch p.perform fun e => (handle e).perform) s := by
  rw [exec_tryCatch]
  induction p generalizing s with
  | ended r =>
    cases r with
    | ok a => rfl
    | error e => rfl
  | save key value rest ih => exact ih _ _
  | load key rest ih => exact ih _ _
  | close rest ih => exact ih _
  | aside move keeps rest ih => exact ih _ _

theorem perform_recover (p : Script α) (handle : Failure → Script α) :
    (p.recover handle).perform = tryCatch p.perform fun e => (handle e).perform :=
  funext (exec_perform_recover p handle)

end Script

/-! ## Operations that have a script -/

/-- The operation is that of some script. -/
def Scripted {α : Type} (op : NodeM α) : Prop :=
  ∃ p : Script α, p.perform = op

section

variable {α β : Type}

theorem KeepsStore.scripted {op : NodeM α} (h : KeepsStore op) : Scripted op :=
  ⟨.work op h, Script.perform_work op h⟩

theorem scripted_saveSetting (key : String) (value : Option String) :
    Scripted (onStore (Store.saveSetting key value)) :=
  ⟨.save key value .ended, Script.perform_save key value⟩

theorem scripted_loadSetting (key : String) : Scripted (onStore (Store.loadSetting key)) :=
  ⟨.load key .ended, Script.perform_load key⟩

theorem scripted_close : Scripted (onStore Store.close) :=
  ⟨.close (.ended (.ok ())), rfl⟩

theorem scripted_bind {op : NodeM α} {f : α → NodeM β} (h : Scripted op)
    (hf : ∀ a, Scripted (f a)) : Scripted (op >>= f) := by
  rcases h with ⟨p, rfl⟩
  rcases Classical.axiomOfChoice hf with ⟨q, hq⟩
  refine ⟨p.bind q, ?_⟩
  rw [Script.perform_bind]
  exact congrArg (p.perform >>= ·) (funext hq)

theorem scripted_map {op : NodeM α} (f : α → β) (h : Scripted op) : Scripted (f <$> op) := by
  rcases h with ⟨p, rfl⟩
  exact ⟨p.map f, Script.perform_map f p⟩

theorem scripted_tryCatch {op : NodeM α} {handle : Failure → NodeM α} (h : Scripted op)
    (hhandle : ∀ e, Scripted (handle e)) : Scripted (tryCatch op handle) := by
  rcases h with ⟨p, rfl⟩
  rcases Classical.axiomOfChoice hhandle with ⟨q, hq⟩
  refine ⟨p.recover q, ?_⟩
  rw [Script.perform_recover]
  exact congrArg (tryCatch p.perform) (funext hq)

/-! ## Work aside -/

theorem keepsStore_pure (a : α) : KeepsStore (pure a) := fun _ _ => keeps_pure a

theorem keepsStore_throw (e : Failure) : KeepsStore (throw e : NodeM α) :=
  fun _ _ => keeps_throw e

theorem keepsStore_bind {op : NodeM α} {f : α → NodeM β} (h : KeepsStore op)
    (hf : ∀ a, KeepsStore (f a)) : KeepsStore (op >>= f) :=
  fun cache path => keeps_bind (h cache path) fun a => hf a cache path

theorem keepsStore_onHost (op : HostM α) : KeepsStore (onHost op) := by
  intro cache path s hs
  rw [exec_onHost]
  exact hs

theorem keepsStore_say (level : Int) (subsystem message : String) :
    KeepsStore (say level subsystem message) := keepsStore_onHost _

theorem keepsStore_isFound (path : Path) (name : String) :
    KeepsStore (Migration.isFound path name) := by
  intro cache place
  exact keeps_isFound (fun level subsystem message =>
    keepsStore_say level subsystem message cache place) path name

theorem keepsStore_readFile (path : Path) : KeepsStore (Migration.readFile path) :=
  fun _ _ => keeps_readFile path

/-- Saving a channel id does not touch what is cached of settings. -/
theorem keepsStore_saveChannelId (temporary final : Bytes) :
    KeepsStore (onStore (Store.saveChannelId temporary final)) := by
  intro cache path s hs
  exact ⟨Store.keeps_saveChannelId_cache cache temporary final (s.node.store.start s.host)
    (StoreHandle.start_cache.trans hs.1), hs.2⟩

/-! ## Publications and migrations -/

/-- What comes after the load of a publication is work aside. -/
theorem scripted_publish (dir : Path) (key : String) (o : Publication.Outcome) :
    Scripted (Publication.publish dir key o) := by
  unfold Publication.publish
  refine scripted_bind (scripted_loadSetting key) fun loaded => ?_
  cases loaded with
  | none => exact (keepsStore_pure o).scripted
  | some value =>
    refine KeepsStore.scripted fun cache path => ?_
    refine keeps_bind (keeps_liftExcept _) fun content => ?_
    apply keeps_get_bind
    intro s hs
    simp only
    cases hwrite : s.host.files.write s.host.workDir (dir / key) content with
    | ok files =>
      simp only [exec_set_bind]
      refine keeps_bind (keepsStore_say _ _ _ cache path) (fun _ => keeps_pure _) _ ?_
      exact hs
    | error fault =>
      simp only
      split
      · exact keeps_bind (keepsStore_say _ _ _ cache path) (fun _ => keeps_pure _) s hs
      · exact hs

theorem scripted_publishAll (dir : Path) (keys : List String) (o : Publication.Outcome) :
    Scripted (Publication.publishAll dir keys o) := by
  induction keys generalizing o with
  | nil => exact (keepsStore_pure o).scripted
  | cons key rest ih => exact scripted_bind (scripted_publish dir key o) ih

/-- A publication loads its keys one after the other. -/
theorem scripted_publication (dir : Path) (keys : List String) :
    Scripted (Publication.run dir keys) := by
  unfold Publication.run
  refine scripted_bind (scripted_publishAll dir keys {}) fun o => ?_
  split
  · exact (keepsStore_pure _).scripted
  · exact (keepsStore_throw _).scripted

theorem scripted_migrateSetting (dir : Path) (key : String) :
    Scripted (Migration.migrateSetting dir key) := by
  unfold Migration.migrateSetting
  refine scripted_bind (keepsStore_isFound _ _).scripted fun found => ?_
  split
  · refine scripted_bind (keepsStore_readFile _).scripted fun b => ?_
    split
    · exact (keepsStore_throw _).scripted
    · refine scripted_bind (scripted_saveSetting key _) fun _ => ?_
      exact (keepsStore_bind (keepsStore_say _ _ _) fun _ => keepsStore_pure true).scripted
  · exact (keepsStore_pure false).scripted

theorem scripted_savePairs (pairs : List (Bytes × Bytes)) :
    Scripted (Migration.savePairs pairs) := by
  induction pairs with
  | nil => exact (keepsStore_pure ()).scripted
  | cons p rest ih => exact scripted_bind (keepsStore_saveChannelId p.1 p.2).scripted fun _ => ih

theorem scripted_migrateChannels (dir : Path) : Scripted (Migration.migrateChannels dir) := by
  unfold Migration.migrateChannels
  refine scripted_bind (keepsStore_isFound _ _).scripted fun found => ?_
  split
  · refine scripted_bind (keepsStore_readFile _).scripted fun b => ?_
    split
    · exact (keepsStore_throw _).scripted
    · refine scripted_bind (scripted_savePairs _) fun _ => ?_
      refine scripted_bind (keepsStore_say _ _ _).scripted fun _ => ?_
      exact (keepsStore_bind (keepsStore_onHost _) fun _ => keepsStore_pure _).scripted
  · exact (keepsStore_pure 0).scripted

theorem scripted_attempt {name : String} {op : NodeM α} (h : Scripted op) (done : α → β)
    (failed : Failure → β) : Scripted (Migration.attempt name op done failed) := by
  unfold Migration.attempt
  refine scripted_tryCatch (scripted_map done h) fun e => ?_
  split
  · exact (keepsStore_bind (keepsStore_say _ _ _) fun _ => keepsStore_pure _).scripted
  · exact (keepsStore_throw e).scripted

theorem scripted_migrateSettings (dir : Path) (keys : List String) (r : MigrationReport) :
    Scripted (Migration.migrateSettings dir keys r) := by
  induction keys generalizing r with
  | nil => exact (keepsStore_pure r).scripted
  | cons key rest ih =>
    exact scripted_bind (scripted_attempt (scripted_migrateSetting dir key) _ _) ih

/-- A migration saves the settings that it finds one after the other. -/
theorem scripted_migration (storageDir protocolDir : Path) :
    Scripted (Migration.run storageDir protocolDir) := by
  unfold Migration.run
  refine scripted_bind (keepsStore_onHost _).scripted fun found => ?_
  have hrest : Scripted (do
      let r ← Migration.migrateSettings storageDir Migration.settingKeys {}
      Migration.attempt Migration.channelFile (Migration.migrateChannels protocolDir)
        (fun n => { r with channelIds := n })
        (Migration.MigrationReport.fail r Migration.channelFile)) := by
    refine scripted_bind (scripted_migrateSettings _ _ _) fun r => ?_
    exact scripted_attempt (scripted_migrateChannels protocolDir) _ _
  split
  · exact scripted_bind (keepsStore_throw _).scripted fun _ => hrest
  · exact hrest

end

end NodeStore
