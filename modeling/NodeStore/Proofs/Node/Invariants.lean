import NodeStore.Node.Lifecycle
import NodeStore.Proofs.SecretStore.Handle
import NodeStore.Proofs.Store.Handle
import NodeStore.Proofs.Store.Settings

/-! # Invariants of nodes

What a node does to its host comes down to a few changes: lines are logged, folders are made, the
tables of its two databases are put in place, settings are published, and the file of the channel
map is removed. A property of hosts that stands all of them (`Kept`) is kept by everything that
the node does:

* `keeps_onStore`: operations of the relational store;
* `keeps_open`: opening a node, which gives one with the files of its configuration (`Node.Of`);
* `keeps_sync`: publishing its settings;
* `keeps_close`: closing it.
-/

namespace NodeStore

open Op

/-- The file of the relational store. -/
def Config.storeFile (c : Config) : Path := StoreHandle.fileOf c.storePath

/-- The file that a setting is published to. -/
def Config.settingFile (c : Config) (key : String) : Path := c.storageDir / key

/-- The file of the channel map. -/
def Config.channelFile (c : Config) : Path := c.protocolDataDir / Migration.channelFile

/-- The property stands logging, and changes of the tables that are related by `R`. -/
structure KeptByStore (c : Config) (R : Tables → Tables → Prop) (I : Host → Prop) : Prop where
  emit : ∀ h l, I h → I (h.emit l)
  tables : ∀ h p place old new, p = c.storeFile ∨ p = c.secretPath →
    h.databaseAt p = .ok (place, old) → R old new → I h → I (h.putTables place new)

theorem KeptByStore.and {c : Config} {R : Tables → Tables → Prop} {I J : Host → Prop}
    (hI : KeptByStore c R I) (hJ : KeptByStore c R J) : KeptByStore c R fun h => I h ∧ J h where
  emit h l hh := ⟨hI.emit h l hh.1, hJ.emit h l hh.2⟩
  tables h p place old new hp hdb hR hh :=
    ⟨hI.tables h p place old new hp hdb hR hh.1, hJ.tables h p place old new hp hdb hR hh.2⟩

/-- The relation has the changes of tables that the opening of a node makes. -/
structure AllowsOpening (R : Tables → Tables → Prop) : Prop where
  same : ∀ t, R t t
  createMissing : ∀ t, R t t.createMissing
  createSeeds : ∀ t, R t t.createSeeds

/-- The relation has all changes of tables that a node makes, saves of settings apart. -/
structure Allows (R : Tables → Tables → Prop) : Prop extends AllowsOpening R where
  channels : ∀ t channels, R t { t with channels := some channels }

/-- The relation has all saves of settings. -/
structure AllowsSaves (R : Tables → Tables → Prop) : Prop where
  same : ∀ t, R t t
  settings : ∀ t settings, R t { t with settings := some settings }

theorem allowsSaves_all : AllowsSaves fun _ _ => True := ⟨fun _ => trivial, fun _ _ => trivial⟩

/-- The property stands the opening of a node. -/
structure KeptByOpening (c : Config) (R : Tables → Tables → Prop) (I : Host → Prop) : Prop
    extends KeptByStore c R I where
  allows : Allows R
  folders : ∀ h files, h.files.MadeFolders files → I h → I { h with files }

theorem KeptByOpening.and {c : Config} {R : Tables → Tables → Prop} {I J : Host → Prop}
    (hI : KeptByOpening c R I) (hJ : KeptByOpening c R J) :
    KeptByOpening c R fun h => I h ∧ J h where
  toKeptByStore := hI.toKeptByStore.and hJ.toKeptByStore
  allows := hI.allows
  folders h files hmade hh := ⟨hI.folders h files hmade hh.1, hJ.folders h files hmade hh.2⟩

/-- The property stands the moving of the channel map. -/
structure KeptByMoving (c : Config) (R : Tables → Tables → Prop) (I : Host → Prop) : Prop
    extends KeptByStore c R I where
  allows : Allows R
  remove : ∀ h place b, h.files.resolve h.workDir c.channelFile = .ok place →
    h.files.entry? place = some (.file b) → I h → I { h with files := h.files.erase place }

/-- The property stands all that a node does. -/
structure Kept (c : Config) (R : Tables → Tables → Prop) (I : Host → Prop) : Prop
    extends KeptByOpening c R I where
  publish : ∀ h key text place, key ∈ Publication.keys →
    h.files.resolve h.workDir (c.settingFile key) = .ok place →
    h.files.entry? place ≠ some .folder → I h →
    I { h with files := h.files.put place (.file (Utf8.encode text)) }
  remove : ∀ h place b, h.files.resolve h.workDir c.channelFile = .ok place →
    h.files.entry? place = some (.file b) → I h → I { h with files := h.files.erase place }

theorem Kept.moving {c : Config} {R : Tables → Tables → Prop} {I : Host → Prop}
    (hI : Kept c R I) : KeptByMoving c R I := ⟨hI.toKeptByStore, hI.allows, hI.remove⟩

/-- The node has the files of the configuration, and its host has the property. -/
structure Node.Of (c : Config) (I : Host → Prop) (s : NodeState) : Prop where
  config : s.node.config = c
  storePath : s.node.store.path = c.storeFile
  secretPath : s.node.secret.path = c.secretPath
  host : I s.host

variable {c : Config} {R : Tables → Tables → Prop} {I : Host → Prop}

namespace Host

/-! ## The host -/

theorem keeps_say (hemit : ∀ h l, I h → I (h.emit l)) (level : Int) (subsystem message : String) :
    Keeps I (say level subsystem message) := fun h hI => hemit h _ hI

theorem keeps_makeAll (hI : KeptByOpening c R I) (p : Path) : Keeps I (makeAll p) := by
  intro h hh
  rcases exec_makeAll p h with ⟨files, hmade, heq⟩
  rw [heq]
  exact hI.folders h files hmade hh

theorem keeps_makeParent (hI : KeptByOpening c R I) (p : Path) : Keeps I (makeParent p) := by
  intro h hh
  rcases exec_makeParent p h with ⟨files, hmade, heq⟩
  rw [heq]
  exact hI.folders h files hmade hh

theorem keeps_find? (p : Path) : Keeps I (find? p) := by
  intro h hh
  rw [exec_find?]
  exact hh

theorem emitAll_keeps (hemit : ∀ h l, I h → I (h.emit l)) {h : Host} (ls : List LogLine)
    (hh : I h) : I (h.emitAll ls) := by
  induction ls generalizing h with
  | nil => exact hh
  | cons l ls ih => exact ih (hemit h l hh)

/-- The file of a path is a database whose tables have a property. -/
def FileHas (p : Path) (P : Tables → Prop) (h : Host) : Prop :=
  ∃ tables, h.Holds p tables ∧ P tables

theorem keptByStore_fileHas {p : Path} {P : Tables → Prop}
    (hR : ∀ old new, R old new → P old → P new) : KeptByStore c R (FileHas p P) where
  emit := by
    rintro h l ⟨tables, hold, hP⟩
    exact ⟨tables, hold.emit l, hP⟩
  tables := by
    rintro h q place old new - hdb hRt ⟨tables, hold, hP⟩
    by_cases hplace : p.placeFrom h.workDir = q.placeFrom h.workDir
    · -- the tables that are replaced are those of the file
      rcases databaseAt_ok hdb with ⟨rfl, hres, he⟩
      rw [← hplace, hold.2] at he
      obtain rfl : tables = old := by simpa using he
      refine ⟨new, ?_, hR _ _ hRt hP⟩
      have hput := holds_putTables hold.databaseAt new
      rwa [hplace] at hput
    · exact ⟨tables, hold.putTables_ne hdb hplace new, hP⟩

end Host

/-! ## Stores -/

/-- An operation of the store whose change of the tables that it finds is allowed. -/
theorem StoreHandle.run_keeps_of_start {α : Type} (hI : KeptByStore c R I) {s : StoreHandle}
    {h : Host} (op : StoreM α) (hpath : s.path = c.storeFile)
    (hop : R (s.start h).tables (exec op (s.start h)).2.tables) (hh : I h) :
    I (s.run op h).2.2 := by
  show I ((s.writeBack (exec op (s.start h)).2.tables h).emitAll (exec op (s.start h)).2.log)
  apply Host.emitAll_keeps hI.emit
  -- the operation starts on the tables of the file, and what it left of them is put there
  revert hop
  unfold StoreHandle.writeBack StoreHandle.start
  cases hdb : h.databaseAt s.path with
  | error fault => exact fun _ => hh
  | ok found =>
    rcases found with ⟨place, old⟩
    simp only
    intro hR
    split
    · exact hh
    · exact hI.tables h s.path place old _ (Or.inl hpath) hdb hR hh

/-- An operation of the store whose change of the tables is allowed. -/
theorem StoreHandle.run_keeps {α : Type} (hI : KeptByStore c R I) {s : StoreHandle} {h : Host}
    (op : StoreM α) (hpath : s.path = c.storeFile)
    (hop : ∀ u, R u.tables (exec op u).2.tables) (hh : I h) : I (s.run op h).2.2 :=
  run_keeps_of_start hI op hpath (hop _) hh

theorem StoreHandle.keeps_open (hI : KeptByStore c R I) (hR : AllowsOpening R)
    (hparent : Keeps I (Host.makeParent c.storePath)) :
    Keeps I (StoreHandle.open c.storePath) := by
  unfold StoreHandle.open
  refine keeps_bind (Host.keeps_say hI.emit _ _ _) fun _ => ?_
  refine keeps_bind hparent fun _ => ?_
  apply keeps_get_bind
  intro h hh
  cases hdb : h.databaseAt (StoreHandle.fileOf c.storePath) with
  | error fault => exact hh
  | ok found =>
    rcases found with ⟨place, tables⟩
    exact hI.emit _ _
      (hI.tables h c.storeFile place tables _ (Or.inl rfl) hdb (hR.createMissing tables) hh)

theorem SecretHandle.keeps_open (hI : KeptByStore c R I) (hR : AllowsOpening R)
    (hparent : Keeps I (Host.makeParent c.secretPath)) (iterations : Int) :
    Keeps I (SecretHandle.open c.secretPath iterations) := by
  unfold SecretHandle.open
  refine keeps_bind hparent fun _ => ?_
  apply keeps_get_bind
  intro h hh
  cases hdb : h.databaseAt c.secretPath with
  | error fault => cases fault <;> exact hh
  | ok found =>
    rcases found with ⟨place, tables⟩
    exact hI.tables h c.secretPath place tables _ (Or.inr rfl) hdb (hR.createSeeds tables) hh

namespace Node

/-! ## Operations of a node -/

theorem exec_onHost {α : Type} (op : HostM α) (s : NodeState) :
    exec (onHost op) s = ((exec op s.host).1, { s with host := (exec op s.host).2 }) := rfl

theorem exec_onSecret {α : Type} (op : SecretStore → SecretM α) (s : NodeState) :
    exec (onSecret op) s = ((exec (s.node.secret.run op) s.host).1,
      { s with host := (exec (s.node.secret.run op) s.host).2 }) := rfl

theorem exec_onStore_eq {α : Type} (op : StoreM α) (s : NodeState) :
    exec (onStore op) s =
      ((s.node.store.run op s.host).1,
        { node := { s.node with store := (s.node.store.run op s.host).2.1 },
          host := (s.node.store.run op s.host).2.2 }) := rfl

theorem keeps_onHost {α : Type} {op : HostM α} (h : Keeps I op) :
    Keeps (Of c I) (onHost op) := fun s hs => ⟨hs.1, hs.2, hs.3, h s.host hs.host⟩

theorem keeps_say (hemit : ∀ h l, I h → I (h.emit l)) (level : Int) (subsystem message : String) :
    Keeps (Of c I) (say level subsystem message) :=
  keeps_onHost (Host.keeps_say hemit _ _ _)

theorem keeps_onStore {α : Type} (hI : KeptByStore c R I) {op : StoreM α}
    (hop : ∀ u, R u.tables (exec op u).2.tables) : Keeps (Of c I) (onStore op) := by
  intro s hs
  exact ⟨hs.1, hs.2, hs.3, StoreHandle.run_keeps hI op hs.storePath hop hs.host⟩

/-- While the store's file is a database, an operation of the store runs on its tables and leaves a
database with the tables that it left. -/
theorem exec_onStore {α : Type} (hI : KeptByStore c R I) {s : NodeState} {tables : Tables}
    (hs : Of c I s) (hold : s.host.Holds c.storeFile tables) {op : StoreM α}
    (hop : ∀ u, R u.tables (exec op u).2.tables) {r : Except Failure α} {u : StoreState}
    (hrun : exec op ⟨tables, s.node.store.cache, s.node.store.outages, []⟩ = (r, u)) :
    ∃ s', exec (onStore op) s = (r, s') ∧ Of c I s' ∧ s'.host.workDir = s.host.workDir ∧
      s'.host.Holds c.storeFile u.tables ∧ s'.node.store.cache = u.cache ∧
      s'.node.store.outages =
        { u.outages with transactions := s.node.store.outages.transactions } := by
  have hkept := StoreHandle.run_keeps hI op hs.storePath hop hs.host
  rw [← hs.storePath] at hold
  rcases StoreHandle.exec_run hold op with ⟨h', hexec, hdir, hold'⟩
  rw [hrun] at hexec hold'
  rw [hexec] at hkept
  rw [hs.storePath] at hold'
  have hstep := exec_onStore_eq op s
  rw [hexec] at hstep
  exact ⟨_, hstep, ⟨hs.config, hs.storePath, hs.secretPath, hkept⟩, hdir, hold', rfl, rfl⟩

/-- Closing changes no tables. -/
theorem keeps_close_of_store (hI : KeptByStore c R I) (hR : ∀ t, R t t) :
    Keeps (Of c I) close := by
  refine keeps_bind (keeps_onStore hI ?_) fun _ => ?_
  · exact fun u => hR u.tables
  · exact fun s hs => ⟨hs.1, hs.2, hs.3, hs.4⟩

theorem keeps_close (hI : KeptByOpening c R I) : Keeps (Of c I) close :=
  keeps_close_of_store hI.toKeptByStore hI.allows.same

/-- Opening a node keeps what the making of its folders keeps. -/
theorem keeps_open_of_folders (hI : KeptByStore c R I) (hR : AllowsOpening R)
    (hstorage : Keeps I (Host.makeAll c.storageDir))
    (hprotocol : Keeps I (Host.makeAll c.protocolDataDir))
    (hstore : Keeps I (Host.makeParent c.storePath))
    (hsecret : Keeps I (Host.makeParent c.secretPath)) : Keeps I (Node.open c) := by
  unfold Node.open
  refine keeps_bind hstorage fun _ => ?_
  refine keeps_bind hprotocol fun _ => ?_
  refine keeps_bind (StoreHandle.keeps_open hI hR hstore) fun _ => ?_
  refine keeps_bind (SecretHandle.keeps_open hI hR hsecret _) fun _ => ?_
  exact keeps_bind (Host.keeps_say hI.emit _ _ _) fun _ => keeps_pure _

/-- Opening a node keeps the property, and the node has the files of the configuration. -/
theorem keeps_open (hI : KeptByOpening c R I) : Keeps I (Node.open c) :=
  keeps_open_of_folders hI.toKeptByStore hI.allows.toAllowsOpening (Host.keeps_makeAll hI _)
    (Host.keeps_makeAll hI _) (Host.keeps_makeParent hI _) (Host.keeps_makeParent hI _)

/-- The line that an opened node logs. -/
def openingLine (c : Config) : LogLine :=
  ⟨LogLevel.info, subsystem, "StorageManager initialized at " ++ c.storageDir.toString⟩

/-- What a node was opened by, step for step. -/
theorem open_steps {h h' : Host} {node : Node} (hopen : exec (Node.open c) h = (.ok node, h')) :
    (∃ store secret, node = { config := c, store, secret } ∧
      store = { path := c.storeFile } ∧
      secret = { path := c.secretPath, iterations := c.iterations }) ∧
    ∃ h₁ h₂ h₃ h₄, exec (Host.makeAll c.storageDir) h = (.ok (), h₁) ∧
      exec (Host.makeAll c.protocolDataDir) h₁ = (.ok (), h₂) ∧
      exec (StoreHandle.open c.storePath) h₂ = (.ok node.store, h₃) ∧
      exec (SecretHandle.open c.secretPath c.iterations) h₃ = (.ok node.secret, h₄) ∧
      h' = h₄.emit (openingLine c) := by
  unfold Node.open at hopen
  rcases exec_bind_ok.1 hopen with ⟨_, h₁, hstorage, hopen⟩
  rcases exec_bind_ok.1 hopen with ⟨_, h₂, hprotocol, hopen⟩
  rcases exec_bind_ok.1 hopen with ⟨store, h₃, hstore, hopen⟩
  rcases exec_bind_ok.1 hopen with ⟨secret, h₄, hsecret, hopen⟩
  rcases exec_bind_ok.1 hopen with ⟨_, h₅, hsay, hopen⟩
  rw [Host.exec_say, Prod.mk.injEq] at hsay
  obtain ⟨-, rfl⟩ := hsay
  simp only [exec_pure, Prod.mk.injEq, Except.ok.injEq] at hopen
  rcases hopen with ⟨rfl, rfl⟩
  have hstoreIs := (StoreHandle.open_ok hstore).1
  have hsecretIs := (SecretHandle.open_ok hsecret).1
  exact ⟨⟨store, secret, rfl, hstoreIs, hsecretIs⟩, h₁, h₂, h₃, h₄, hstorage, hprotocol, hstore,
    hsecret, rfl⟩

theorem open_ok {h h' : Host} {node : Node} (hopen : exec (Node.open c) h = (.ok node, h')) :
    node.config = c ∧ node.store = { path := c.storeFile } ∧ node.secret.path = c.secretPath ∧
      node.migration = none := by
  rcases open_steps hopen with ⟨⟨store, secret, rfl, hstore, hsecret⟩, -⟩
  exact ⟨rfl, hstore, by rw [hsecret], rfl⟩

/-! ## Publication -/

/-- Saving a setting changes the table of settings at most. -/
theorem saveSetting_tables (hR : AllowsSaves R) (key : String) (value : Option String)
    (u : StoreState) : R u.tables (exec (Store.saveSetting key value) u).2.tables := by
  let P : StoreState → Prop := fun v =>
    v.tables = u.tables ∨ ∃ settings, v.tables = { u.tables with settings := some settings }
  have hannounce : Keeps P (Store.announce key value) := by
    intro v hv
    show _ ∨ _
    rw [(Store.exec_announce_snd key value).1]
    exact hv
  have hcommit : Keeps P (Store.commitSetting key value) := by
    apply Store.keeps_transaction
    intro v a tables hv hbody
    cases hsettings : v.tables.settings with
    | none => simp [hsettings, Store.present, bind, Except.bind] at hbody
    | some settings =>
      cases value with
      | none => simp [hsettings] at hbody
      | some text =>
        simp only [hsettings, Store.present_some, ok_bind, pure, Except.pure, Except.ok.injEq,
          Prod.mk.injEq] at hbody
        refine Or.inr ⟨settings.upsert (.text key) (.text text), ?_⟩
        rcases hv with hv | ⟨old, hv⟩
        · rw [← hbody.2, hv]
        · rw [← hbody.2, hv]
  have hsave : P (exec (Store.saveSetting key value) u).2 := by
    rw [Store.exec_saveSetting]
    refine keeps_bind hannounce (fun _ => ?_) u (Or.inl rfl)
    exact keeps_bind hcommit fun _ => fun v hv => hv
  rcases hsave with hsame | ⟨settings, hchanged⟩
  · rw [hsame]
    exact hR.same u.tables
  · rw [hchanged]
    exact hR.settings u.tables settings

/-- A save may change the table of settings. -/
theorem keeps_saveSetting (hI : KeptByStore c R I) (hR : AllowsSaves R) (key : String)
    (value : Option String) : Keeps (Of c I) (onStore (Store.saveSetting key value)) :=
  keeps_onStore hI (saveSetting_tables hR key value)

theorem keeps_loadSetting (hI : KeptByOpening c R I) (key : String) :
    Keeps (Of c I) (onStore (Store.loadSetting key)) :=
  keeps_onStore hI.toKeptByStore fun u => by
    rw [Store.loadSetting_tables]
    exact hI.allows.same u.tables

theorem keeps_publish (hI : Kept c R I) {key : String} (hkey : key ∈ Publication.keys)
    (o : Publication.Outcome) : Keeps (Of c I) (Publication.publish c.storageDir key o) := by
  unfold Publication.publish
  apply keeps_bind (keeps_loadSetting hI.toKeptByOpening key)
  intro loaded
  cases loaded with
  | none => exact keeps_pure _
  | some value =>
    intro s hs
    rw [exec_bind, exec_liftExcept]
    cases value with
    | blob b => exact hs
    | text text =>
      simp only [Publication.bytesOf, exec_get_bind]
      cases hwrite : s.host.files.write s.host.workDir (c.storageDir / key) (Utf8.encode text) with
      | ok files =>
        rcases FileTree.write_ok hwrite with ⟨place, hres, hfolder, rfl⟩
        simp only [exec_set_bind]
        have hwritten := hI.publish s.host key text place hkey hres hfolder hs.host
        exact keeps_bind (keeps_say hI.emit _ _ _) (fun _ => keeps_pure _) _
          ⟨hs.1, hs.2, hs.3, hwritten⟩
      | error fault =>
        simp only
        split
        · exact keeps_bind (keeps_say hI.emit _ _ _) (fun _ => keeps_pure _) s hs
        · exact hs

theorem keeps_publishAll (hI : Kept c R I) {keys : List String}
    (hkeys : ∀ key ∈ keys, key ∈ Publication.keys) (o : Publication.Outcome) :
    Keeps (Of c I) (Publication.publishAll c.storageDir keys o) := by
  induction keys generalizing o with
  | nil => exact keeps_pure o
  | cons key rest ih =>
    apply keeps_bind (keeps_publish hI (hkeys key List.mem_cons_self) o)
    intro o'
    exact ih (fun k hk => hkeys k (List.mem_cons_of_mem key hk)) o'

theorem keeps_sync (hI : Kept c R I) : Keeps (Of c I) sync := by
  unfold sync
  apply keeps_get_bind
  intro s hs
  rw [hs.config]
  refine keeps_bind (I := Of c I) ?_ (fun r => ?_) s hs
  · unfold Publication.run
    refine keeps_bind (keeps_publishAll hI (fun _ hk => hk) _) ?_
    intro o
    split
    · exact keeps_pure _
    · exact keeps_throw _
  · exact keeps_bind (keeps_modify fun s hs => ⟨hs.1, hs.2, hs.3, hs.4⟩) fun _ => keeps_pure r

end Node

end NodeStore
