import NodeStore.Proofs.Frame
import NodeStore.Proofs.Node.Holdings
import NodeStore.Proofs.Node.MigrationReport
import NodeStore.Proofs.Node.Retries

/-! # The first migration

A first migration goes through the files of the settings, and then to the file of the channel map.
On the way only the store's file and log files are written, so that every file is found as it was
at the start, and no file changes what becomes of the next one.

* `Copying.migrateSetting`, `Copying.migrateSettings`: one file of a setting, and all of them;
* `Copying.migrateChannels`: the file of the channel map;
* `first_migration_accounts`: the report, the rows and the files. -/

namespace NodeStore

open Op

/-! ## Hosts with legacy files -/

namespace Host

/-- What a first migration finds. The storage folder is there, `files` tells what stands at the
places of the settings' files, and `container` what stands at that of the channel map. No database
is at these places, and log files have a name of their own. -/
structure Legacy (c : Config) (files : String → Option FileEntry) (container : Option FileEntry)
    (h : Host) : Prop where
  logs : h.logging.Own
  storage : h.files.FolderAt h.workDir c.storageDir
  setting : ∀ key ∈ Publication.keys, h.files.entry? (c.settingPlace h.workDir key) = files key
  settingPlain : ∀ key ∈ Publication.keys, ∀ d, files key ≠ some (.database d)
  channel : h.files.find? h.workDir c.channelFile = .ok container
  channelPlain : ∀ d, container ≠ some (.database d)

/-- The places that a migration writes to: the file of the store, and log files. -/
def StoreOrLog (c : Config) (h : Host) (place : Place) : Prop :=
  place = c.storeFile.placeFrom h.workDir ∨ h.Logged place

variable {c : Config} {files : String → Option FileEntry} {container : Option FileEntry}
  {tables : Tables} {start h : Host} {key : String}

theorem logsTo_storeOrLog (c : Config) (h : Host) : h.LogsTo (StoreOrLog c h) :=
  (logsTo_logged h).imp fun _ hq => Or.inr hq

/-- The store is a database, and so it is not at the place of a setting's file. -/
theorem Legacy.not_storeOrLog (hl : start.Legacy c files container)
    (hold : start.Holds c.storeFile tables) (hkey : key ∈ Publication.keys) :
    ¬ StoreOrLog c start (c.settingPlace start.workDir key) := by
  have hname : ∀ key ∈ Publication.keys, key ≠ Logging.fileName := by decide
  rintro (hstore | hlog)
  · have hentry := hl.setting key hkey
    rw [hstore, hold.2] at hentry
    exact hl.settingPlain key hkey tables hentry.symm
  · rw [c.settingPlace_eq _ hkey] at hlog
    exact not_logged hl.logs (hname key hkey) _ hlog

/-- Nor does the path of the channel map lead to the store. -/
theorem Legacy.channel_not_storeOrLog (hl : start.Legacy c files container)
    (hold : start.Holds c.storeFile tables) {place : Place}
    (hres : start.files.resolve start.workDir c.channelFile = .ok place) :
    ¬ StoreOrLog c start place := by
  have hfind := hl.channel
  rw [FileTree.find?_of_resolve hres, Except.ok.injEq] at hfind
  rintro (hstore | hlog)
  · rw [hstore, hold.2] at hfind
    exact hl.channelPlain tables hfind.symm
  · obtain rfl := FileTree.place_eq_of_resolve hres
    have hplace := c.channelPlace_eq start.workDir
    unfold Config.channelPlace at hplace
    rw [hplace] at hlog
    exact not_logged hl.logs (by decide) _ hlog

end Host

namespace Node

/-! ## One file after the other -/

/-- A node that migrates, and began on the host `start`. Its store has the tables `t` of settings
and `u` of channel ids, and only the store's file and log files have been written. -/
structure Copying (c : Config) (start : Host) (t u : Table (Cell × Cell)) (s : NodeState) : Prop
    where
  storePath : s.node.store.path = c.storeFile
  outages : s.node.store.outages = {}
  frame : start.Frame (Host.StoreOrLog c start) s.host
  rows : s.host.FileHas c.storeFile fun tables =>
    tables.settings = some t ∧ tables.channels = some u

variable {c : Config} {files : String → Option FileEntry} {container : Option FileEntry}
  {tables : Tables} {start : Host} {t t' u u' : Table (Cell × Cell)} {s : NodeState} {key : String}

theorem Copying.logsTo (hs : Copying c start t u s) : s.host.LogsTo (Host.StoreOrLog c start) :=
  hs.frame.logsTo (Host.logsTo_storeOrLog c start)

theorem Copying.emit (hs : Copying c start t u s) (l : LogLine) :
    Copying c start t u { s with host := s.host.emit l } := by
  rcases hs.rows with ⟨tables, hold, hrows⟩
  exact ⟨hs.storePath, hs.outages, hs.frame.trans (Host.frame_emit hs.logsTo l),
    tables, hold.emit l, hrows⟩

/-- An operation of a store that works, and what it makes of the tables. -/
theorem Copying.perform {α : Type} (hs : Copying c start t u s) {op : StoreM α} {a : α}
    (hop : ∀ v : StoreState, v.outages = {} → v.tables.settings = some t →
      v.tables.channels = some u → ∃ v', exec op v = (.ok a, v') ∧ v'.outages = {} ∧
        v'.tables.settings = some t' ∧ v'.tables.channels = some u') :
    ∃ s', exec (onStore op) s = (.ok a, s') ∧ Copying c start t' u' s' := by
  rcases hs.rows with ⟨tables, hold, hsettings, hchannels⟩
  obtain ⟨v, hrun, hout, hsettings', hchannels'⟩ :=
    hop ⟨tables, s.node.store.cache, s.node.store.outages, []⟩ hs.outages hsettings hchannels
  have hplace : Host.StoreOrLog c start (s.node.store.path.placeFrom s.host.workDir) := by
    left
    rw [hs.storePath, hs.frame.workDir]
  have hpath := hs.storePath
  rw [← hpath] at hold
  obtain ⟨h', hexec, hold', hframe⟩ := exec_onStore_frame hold hs.logsTo hplace hrun
  rw [hpath] at hold'
  refine ⟨_, hexec, hpath, ?_, hs.frame.trans hframe, v.tables, hold', hsettings', hchannels'⟩
  simp only [hout, hs.outages]

theorem Copying.saveSetting (hs : Copying c start t u s) (key text : String) :
    ∃ s', exec (onStore (Store.saveSetting key (some text))) s = (.ok (), s') ∧
      Copying c start (t.upsert (.text key) (.text text)) u s' := by
  refine hs.perform ?_
  intro v hout hsettings hchannels
  obtain ⟨v', hsave, hout', htables, -⟩ := Store.exec_saveSetting_text key text hout hsettings
  exact ⟨v', hsave, hout', by rw [htables], by rw [htables, hchannels]⟩

theorem Copying.saveChannelId (hs : Copying c start t u s) {p : Bytes × Bytes}
    (hsized : ChannelMap.Sized p) :
    ∃ s', exec (onStore (Store.saveChannelId p.1 p.2)) s = (.ok (), s') ∧
      Copying c start t (u.upsert (Store.cellsOf p).1 (Store.cellsOf p).2) s' := by
  refine hs.perform ?_
  intro v hout hsettings hchannels
  have hgoes : ¬ Store.Stops v.outages := by
    rw [hout]
    simp [Store.Stops, Store.countDown]
  obtain ⟨log, hsave⟩ := Store.exec_saveChannelId hsized hchannels hgoes
  refine ⟨_, hsave, ?_, hsettings, rfl⟩
  simp only [hout]
  rfl

/-- What stands at the place of a setting's file is what stood there at the start. -/
theorem Copying.setting (hl : start.Legacy c files container)
    (hold : start.Holds c.storeFile tables) (hs : Copying c start t u s)
    (hkey : key ∈ Publication.keys) :
    s.host.files.resolve s.host.workDir (c.storageDir / key) =
        .ok (c.settingPlace s.host.workDir key) ∧
      s.host.files.entry? (c.settingPlace s.host.workDir key) = files key := by
  have hfolder := hs.frame.folderAt hl.storage
  constructor
  · rw [c.settingPlace_eq _ hkey]
    exact (plainName_of_published hkey).resolve hfolder.1 hfolder.2
  · rw [hs.frame.workDir, hs.frame.files.entry _ (hl.not_storeOrLog hold hkey)]
    exact hl.setting key hkey

/-- The migration of a setting's file answers what stands at its place tells, and the text of the
file is in the row. -/
theorem Copying.migrateSetting (hl : start.Legacy c files container)
    (hold : start.Holds c.storeFile tables) (hs : Copying c start t u s)
    (hkey : key ∈ Publication.keys) :
    ∃ s', exec (Migration.migrateSetting c.storageDir key) s =
        (Migration.settingAnswer (c.storageDir / key) (files key), s') ∧
      Copying c start (t.migrated key (textAt (files key))) u s' := by
  rcases hs.setting hl hold hkey with ⟨hres, hentry⟩
  rcases exec_isFound (FileTree.find?_of_resolve hres) key with ⟨l, hfound⟩
  have hs₁ := hs.emit l
  rcases hs₁.setting hl hold hkey with ⟨hres₁, hentry₁⟩
  unfold Migration.migrateSetting
  rw [exec_bind_of_ok hfound, hentry]
  cases he : files key with
  | none => exact ⟨_, rfl, hs₁⟩
  | some e =>
    -- something was found, and reading it tells the rest
    rw [he] at hentry₁
    have hread := exec_readFile (c.storageDir / key) { s with host := s.host.emit l }
    rw [FileTree.read_of_entry hres₁ hentry₁] at hread
    simp only [Option.isSome_some, if_true]
    unfold Migration.settingAnswer Migration.settingFault textAt
    cases hbytes : e.bytes? with
    | none =>
      rw [hbytes] at hread
      rw [exec_bind_of_error hread]
      simp only [hbytes, Option.bind_some, Option.bind_none]
      exact ⟨_, rfl, hs₁⟩
    | some b =>
      rw [hbytes] at hread
      rw [exec_bind_of_ok hread]
      simp only [hbytes, Option.bind_some]
      unfold Migration.settingOfBytes
      cases hdecode : Utf8.decode b with
      | error fault => exact ⟨_, rfl, hs₁⟩
      | ok text =>
        rcases hs₁.saveSetting key (settingText text) with ⟨s₂, hsave, hs₂⟩
        have hsaved := exec_bind_of_ok (f := fun _ => do
          say LogLevel.info Migration.subsystem
            s!"Successfully migrated {key} from file to database"
          return true) hsave
        exact ⟨_, hsaved, hs₂.emit _⟩

/-- The answer is noted, whatever it is. -/
theorem Copying.attemptSetting (hl : start.Legacy c files container)
    (hold : start.Holds c.storeFile tables) (hs : Copying c start t u s)
    (hkey : key ∈ Publication.keys) (r : MigrationReport) :
    ∃ s', exec (Migration.attempt key (Migration.migrateSetting c.storageDir key)
        (Migration.MigrationReport.note r key) (Migration.MigrationReport.fail r key)) s =
        (.ok (Migration.MigrationReport.account r key
          (Migration.settingAnswer (c.storageDir / key) (files key))), s') ∧
      Copying c start (t.migrated key (textAt (files key))) u s' := by
  rcases hs.migrateSetting hl hold hkey with ⟨s₁, hrun, hs₁⟩
  have hstore : ∀ e, Migration.settingAnswer (c.storageDir / key) (files key) = .error e →
      e.isStore = true := fun e he =>
    Migration.isStore_settingFault (Migration.settingAnswer_error.1 he)
  rcases exec_attempt hrun hstore key (Migration.MigrationReport.note r key)
    (Migration.MigrationReport.fail r key) with ⟨found, hanswer, hdone⟩ | ⟨e, l, hanswer, hdone⟩
  · rw [hanswer]
    exact ⟨s₁, hdone, hs₁⟩
  · rw [hanswer]
    exact ⟨_, hdone, hs₁.emit l⟩

/-- All answers are noted, and all texts are in the rows. -/
theorem Copying.migrateSettings (hl : start.Legacy c files container)
    (hold : start.Holds c.storeFile tables) {keys : List String}
    (hkeys : ∀ key ∈ keys, key ∈ Publication.keys) (hs : Copying c start t u s)
    (r : MigrationReport) :
    ∃ s', exec (Migration.migrateSettings c.storageDir keys r) s =
        (.ok (Migration.MigrationReport.accountAll
          (fun key => Migration.settingAnswer (c.storageDir / key) (files key)) keys r), s') ∧
      Copying c start (t.migratedAll (fun key => textAt (files key)) keys) u s' := by
  induction keys generalizing t s r with
  | nil => exact ⟨s, rfl, hs⟩
  | cons key rest ih =>
    obtain ⟨s₁, hrun, hs₁⟩ := hs.attemptSetting hl hold (hkeys key List.mem_cons_self) r
    obtain ⟨s₂, hrest, hs₂⟩ := ih (fun k hk => hkeys k (List.mem_cons_of_mem key hk)) hs₁
      (Migration.MigrationReport.account r key
        (Migration.settingAnswer (c.storageDir / key) (files key)))
    refine ⟨s₂, ?_, hs₂⟩
    unfold Migration.migrateSettings
    rw [exec_bind_of_ok hrun, hrest]
    rfl

/-- All pairs of a channel map are saved. -/
theorem Copying.savePairs (hs : Copying c start t u s) {pairs : List (Bytes × Bytes)}
    (hsized : ∀ p ∈ pairs, ChannelMap.Sized p) :
    ∃ s', exec (Migration.savePairs pairs) s = (.ok (), s') ∧
      Copying c start t (Table.upsertAll (pairs.map Store.cellsOf) u) s' := by
  induction pairs generalizing u s with
  | nil => exact ⟨s, rfl, hs⟩
  | cons p rest ih =>
    obtain ⟨s₁, hsave, hs₁⟩ := hs.saveChannelId (hsized p List.mem_cons_self)
    obtain ⟨s₂, hrest, hs₂⟩ := ih hs₁ fun q hq => hsized q (List.mem_cons_of_mem p hq)
    unfold Migration.savePairs
    exact ⟨s₂, (exec_bind_of_ok hsave).trans hrest, hs₂⟩

theorem Copying.channel (hl : start.Legacy c files container)
    (hold : start.Holds c.storeFile tables) (hs : Copying c start t u s) :
    s.host.files.find? s.host.workDir c.channelFile = .ok container := by
  rw [hs.frame.workDir, hs.frame.files.find?_eq fun place hres =>
    hl.channel_not_storeOrLog hold hres]
  exact hl.channel

/-! ## The file of the channel map -/

/-- The places that a whole migration changes: those that it writes to, and that of a channel map
which it moves. -/
def Changed (c : Config) (start : Host) (container : Option FileEntry) (place : Place) : Prop :=
  Host.StoreOrLog c start place ∨
    (container ≠ none ∧ Migration.channelFault c.channelFile container = none) ∧
      place = c.channelPlace start.workDir

/-- What a whole migration leaves that began on the host `start`. -/
structure Copied (c : Config) (start : Host) (container : Option FileEntry)
    (t u : Table (Cell × Cell)) (h : Host) : Prop where
  frame : start.Frame (Changed c start container) h
  rows : h.FileHas c.storeFile fun tables =>
    tables.settings = some t ∧ tables.channels = some u

variable {h : Host}

theorem Copying.copied (hs : Copying c start t u s) (container : Option FileEntry) :
    Copied c start container t u s.host :=
  ⟨hs.frame.imp fun _ hq => Or.inl hq, hs.rows⟩

theorem Copied.emit (hh : Copied c start container t u h) (l : LogLine) :
    Copied c start container t u (h.emit l) := by
  have hlogs : start.LogsTo (Changed c start container) :=
    (Host.logsTo_storeOrLog c start).imp fun _ hq => Or.inl hq
  rcases hh.rows with ⟨tables, hold, hrows⟩
  exact ⟨hh.frame.trans (Host.frame_emit (hh.frame.logsTo hlogs) l), tables, hold.emit l, hrows⟩

/-- The files of the settings are as they were. -/
theorem Copied.setting (hl : start.Legacy c files container) (hold : start.Holds c.storeFile tables)
    (hh : Copied c start container t u h) (hkey : key ∈ Publication.keys) :
    h.files.entry? (c.settingPlace start.workDir key) = files key := by
  refine (hh.frame.files.entry _ ?_).trans (hl.setting key hkey)
  rintro (hplace | ⟨-, hplace⟩)
  · exact hl.not_storeOrLog hold hkey hplace
  · exact c.settingPlace_ne_channelPlace start.workDir hkey hplace

/-- What is no channel map is where it was. -/
theorem Copied.channel (hl : start.Legacy c files container) (hold : start.Holds c.storeFile tables)
    (hh : Copied c start container t u h)
    (hstays : container = none ∨ Migration.channelFault c.channelFile container ≠ none) :
    h.files.find? h.workDir c.channelFile = .ok container := by
  rw [hh.frame.workDir, hh.frame.files.find?_eq ?_]
  · exact hl.channel
  · rintro place hres (hplace | ⟨⟨hsome, hnone⟩, -⟩)
    · exact hl.channel_not_storeOrLog hold hres hplace
    · rcases hstays with hstays | hstays
      · exact hsome hstays
      · exact hstays hnone

/-- The file of a channel map is removed, or it is logged that it could not be. -/
theorem Copied.remove (hh : Copied c start container t u s.host) {b : Bytes}
    (hfind : s.host.files.find? s.host.workDir c.channelFile = .ok (some (.file b)))
    (hmap : container ≠ none ∧ Migration.channelFault c.channelFile container = none)
    (message : String) :
    ∃ s', exec (onHost (SecretHandle.removeOld c.channelFile Migration.subsystem
        Migration.channelFile (some message))) s = (.ok (), s') ∧
      Copied c start container t u s'.host := by
  rcases FileTree.of_find? hfind with ⟨place, hres, hfile⟩
  have hplace := FileTree.place_eq_of_resolve hres
  rw [hh.frame.workDir] at hplace
  obtain ⟨h', hremove, hh'⟩ := SecretHandle.exec_removeOld c.channelFile hh
    (fun _ l hh => hh.emit l) (by
      intro place' hres'
      obtain rfl : place = place' := Except.ok.inj (hres.symm.trans hres')
      rcases hh.rows with ⟨tables, hold, hrows⟩
      have herase : s.host.Frame (Changed c start container)
          { s.host with files := s.host.files.erase place } :=
        ⟨rfl, FileTree.frame_erase (Or.inr ⟨hmap, hplace⟩) (by simp [hfile])⟩
      exact ⟨hh.frame.trans herase, tables, hold.erase hfile, hrows⟩)
    Migration.subsystem Migration.channelFile (some message)
  have hrun := exec_onHost (SecretHandle.removeOld c.channelFile Migration.subsystem
    Migration.channelFile (some message)) s
  rw [hremove] at hrun
  exact ⟨_, hrun, hh'⟩

/-- A channel map that is read is moved. -/
theorem Copying.moveChannels (hl : start.Legacy c files container)
    (hold : start.Holds c.storeFile tables) (hs : Copying c start t u s) {b : Bytes}
    (hb : container = some (.file b)) {m : ChannelMap} (hdecode : ChannelMap.decode b = .ok m)
    (message removed : String) :
    ∃ s', exec (do
        Migration.savePairs m.entries
        say LogLevel.info Migration.subsystem message
        onHost (SecretHandle.removeOld c.channelFile Migration.subsystem Migration.channelFile
          (some removed))
        return m.entries.length) s = (.ok m.entries.length, s') ∧
      Copied c start container t (Table.upsertAll (m.entries.map Store.cellsOf) u) s'.host := by
  have hmap : container ≠ none ∧ Migration.channelFault c.channelFile container = none := by
    simp [Migration.channelFault, hb, FileEntry.bytes?, hdecode]
  rcases hs.savePairs (ChannelMap.fits_of_decode hdecode).2 with ⟨s₁, hsave, hs₁⟩
  have hs₂ := hs₁.emit ⟨LogLevel.info, Migration.subsystem, message⟩
  have hfind := hs₂.channel hl hold
  rw [hb] at hfind
  rcases (hs₂.copied container).remove hfind hmap removed with ⟨s₃, hremove, hs₃⟩
  refine ⟨s₃, ?_, hs₃⟩
  have hsay : exec (say LogLevel.info Migration.subsystem message) s₁ =
      (.ok (), { s₁ with host := s₁.host.emit ⟨LogLevel.info, Migration.subsystem, message⟩ }) :=
    rfl
  rw [exec_bind_of_ok hsave, exec_bind_of_ok hsay, exec_bind_of_ok hremove, exec_pure]

/-- The migration of the channel map answers what stands at its place tells. -/
theorem Copying.migrateChannels (hl : start.Legacy c files container)
    (hold : start.Holds c.storeFile tables) (hs : Copying c start t u s) :
    ∃ s', exec (Migration.migrateChannels c.protocolDataDir) s =
        (Migration.channelAnswer c.channelFile container, s') ∧
      Copied c start container t
        (Table.upsertAll ((Migration.channelPairs container).map Store.cellsOf) u) s'.host := by
  rcases exec_isFound (hs.channel hl hold) Migration.channelFile with ⟨l, hfound⟩
  have hs₁ := hs.emit l
  have hcopied := hs₁.copied container
  have hchannel := hs₁.channel hl hold
  have hpath : c.protocolDataDir / Migration.channelFile = c.channelFile := rfl
  unfold Migration.migrateChannels
  simp only [hpath]
  rw [exec_bind_of_ok hfound]
  rcases container with _ | e
  · exact ⟨_, rfl, hcopied⟩
  · rcases FileTree.of_find? hchannel with ⟨place, hres, hentry⟩
    have hread := exec_readFile c.channelFile { s with host := s.host.emit l }
    rw [FileTree.read_of_entry hres hentry] at hread
    simp only [Option.isSome_some, if_true]
    unfold Migration.channelAnswer Migration.channelFault Migration.channelPairs
    cases e with
    | database d => exact absurd rfl (hl.channelPlain d)
    | folder => exact ⟨_, exec_bind_of_error hread, hcopied⟩
    | file b =>
      rw [exec_bind_of_ok hread]
      simp only [FileEntry.bytes?, Option.bind_some, Option.map_some]
      cases hdecode : ChannelMap.decode b with
      | error fault => exact ⟨_, rfl, hcopied⟩
      | ok m => exact hs₁.moveChannels hl hold rfl hdecode _ _

/-- A migration notes what becomes of every file, and leaves what it read in the rows. -/
theorem Copying.run (hl : start.Legacy c files container) (hold : start.Holds c.storeFile tables)
    (hs : Copying c start t u s) :
    ∃ s', exec (Migration.run c.storageDir c.protocolDataDir) s =
        (.ok (Migration.reportOf
          (fun key => Migration.settingAnswer (c.storageDir / key) (files key))
          (Migration.channelAnswer c.channelFile container)), s') ∧
      Copied c start container
        (t.migratedAll (fun key => textAt (files key)) Migration.settingKeys)
        (Table.upsertAll ((Migration.channelPairs container).map Store.cellsOf) u) s'.host := by
  have hfolder : s.host.HasFolder s.host.workDir c.storageDir :=
    (hs.frame.folderAt hl.storage).hasFolder rfl
  have hkeys : ∀ key ∈ Migration.settingKeys, key ∈ Migration.settingKeys := fun _ hk => hk
  obtain ⟨s₁, hsettings, hs₁⟩ := hs.migrateSettings hl hold hkeys {}
  rcases hs₁.migrateChannels hl hold with ⟨s₂, hchannels, hs₂⟩
  have hstore : ∀ e, Migration.channelAnswer c.channelFile container = .error e →
      e.isStore = true := fun e he =>
    Migration.isStore_channelFault (Migration.channelAnswer_error.1 he)
  rw [exec_run_of_folder hfolder, exec_bind_of_ok hsettings]
  let r : MigrationReport := Migration.MigrationReport.accountAll
    (fun key => Migration.settingAnswer (c.storageDir / key) (files key)) Migration.settingKeys {}
  rcases exec_attempt hchannels hstore Migration.channelFile (fun n => { r with channelIds := n })
    (Migration.MigrationReport.fail r Migration.channelFile) with
    ⟨n, hanswer, hdone⟩ | ⟨e, l, hanswer, hdone⟩
  · rw [hanswer]
    exact ⟨s₂, hdone, hs₂⟩
  · rw [hanswer]
    exact ⟨_, hdone, hs₂.emit l⟩

/-! ## Whole migrations -/

/-- The first migration of a node whose storage folder is there and whose store works. It gives a
report that accounts for every legacy file by what stands at its own place. The text of every file
that was copied is in the row of its setting, all other rows are as they were, and rows keep their
ids. The files of the settings stay as they are. Where no channel map can be read, what stands at
its place stays there, and no channel id is changed. -/
theorem first_migration_accounts {c : Config} {files : String → Option FileEntry}
    {container : Option FileEntry} {tables : Tables} {t u : Table (Cell × Cell)} {s : NodeState}
    (hconfig : s.node.config = c) (hstore : s.node.store.path = c.storeFile)
    (hout : s.node.store.outages = {}) (hfirst : s.node.migration = none)
    (hl : s.host.Legacy c files container) (hold : s.host.Holds c.storeFile tables)
    (ht : tables.settings = some t) (hu : tables.channels = some u) :
    ∃ r s' t' u', exec migrationReport s = (.ok r, s') ∧ s'.node.migration = some r ∧
      r.Accounts c files container ∧
      (s'.host.FileHas c.storeFile fun tables' =>
        tables'.settings = some t' ∧ tables'.channels = some u') ∧
      t.CopiedFrom files t' ∧
      (∀ key ∈ Migration.settingKeys,
        s'.host.files.entry? (c.settingPlace s.host.workDir key) = files key) ∧
      (container = none ∨ Migration.channelFile ∈ r.failed.map Prod.fst →
        u' = u ∧ s'.host.files.find? s'.host.workDir c.channelFile = .ok container) := by
  have hs : Copying c s.host t u s :=
    ⟨hstore, hout, .refl _ s.host, tables, hold, ht, hu⟩
  rcases hs.run hl hold with ⟨s', hrun, hh⟩
  have haccounts := Migration.accounts_reportOf (c := c) hl.settingPlain hl.channelPlain
  refine ⟨_, { s' with node := { s'.node with migration := some _ } }, _, _, ?_, rfl, haccounts,
    hh.rows, Table.copiedFrom_migratedAll hl.settingPlain,
    fun key hkey => hh.setting hl hold hkey, ?_⟩
  · unfold migrationReport
    rw [exec_get_bind]
    simp only [hfirst, hconfig]
    rw [exec_bind_of_ok hrun, exec_modify_bind]
    rfl
  · rintro hstays
    rw [Assoc.mem_keys_iff_lookup, haccounts.channelFault] at hstays
    refine ⟨?_, hh.channel hl hold hstays⟩
    rw [Migration.channelPairs_of_stays hstays]
    rfl

/-- A machine with one setting that is copied over an old value, a folder and a file without text in
place of two others, and a channel map that is cut off. -/
def damagedHost : Host :=
  { Host.bare with
    files :=
      { entries :=
          [(["node"], .folder), (["node", ".ldk"], .folder),
            (["node", "lnstore.db"], .database
              { settings := some ⟨[⟨4, (.text "indexer_url", .text "old")⟩], none⟩
                channels := some {} }),
            (["node", "indexer_url"], .file (Utf8.encode " 127.0.0.1:50001\r\n")),
            (["node", "proxy_endpoint"], .folder), (["node", "bitcoin_network"], .file [0xff]),
            (["node", ".ldk", "channel_ids"], .file [0x4c])] } }

/-- What stands at the places of the settings' files on that machine. -/
def damagedFiles (key : String) : Option FileEntry :=
  damagedHost.files.entry? (legacyConfig.settingPlace damagedHost.workDir key)

theorem legacy_damagedHost :
    damagedHost.Legacy legacyConfig damagedFiles (some (.file [0x4c])) where
  logs := by simp [Logging.Own, damagedHost, Host.bare]
  storage := ⟨by decide +kernel, by decide +kernel⟩
  setting _ _ := rfl
  settingPlain := by
    -- a database would be read as its mark
    have hplain : ∀ key ∈ Publication.keys,
        (damagedFiles key).bind FileEntry.bytes? ≠ some FileTree.databaseMark := by decide +kernel
    intro key hkey d hd
    apply hplain key hkey
    rw [hd]
    rfl
  channel := by decide +kernel
  channelPlain := by
    intro d hd
    simp at hd

/-- One setting is copied, four are skipped and two have failed, and so has the channel map. -/
theorem damaged_files_are_accounted_for :
    damagedHost.Legacy legacyConfig damagedFiles (some (.file [0x4c])) ∧
    ∃ r s' t', exec migrationReport (legacyNode damagedHost.files {}) = (.ok r, s') ∧
      "indexer_url" ∈ r.migrated ∧ "wallet_fingerprint" ∈ r.skipped ∧
      "proxy_endpoint" ∈ r.failed.map Prod.fst ∧ "bitcoin_network" ∈ r.failed.map Prod.fst ∧
      Migration.channelFile ∈ r.failed.map Prod.fst ∧
      (s'.host.FileHas legacyConfig.storeFile fun tables => tables.settings = some t') ∧
      t'.Has (.text "indexer_url") (.text "127.0.0.1:50001") := by
  have hold : damagedHost.Holds legacyConfig.storeFile
      { settings := some ⟨[⟨4, (.text "indexer_url", .text "old")⟩], none⟩
        channels := some {} } := ⟨by decide +kernel, by decide +kernel⟩
  have hindexer : damagedFiles "indexer_url" =
      some (.file (Utf8.encode " 127.0.0.1:50001\r\n")) := by decide +kernel
  have hnetwork : damagedFiles "bitcoin_network" = some (.file [0xff]) := by decide +kernel
  have htext := Utf8.decode_encode " 127.0.0.1:50001\r\n"
  obtain ⟨fault, hfault⟩ : ∃ fault, Utf8.decode [0xff] = .error fault := ⟨_, rfl⟩
  obtain ⟨cut, hcut⟩ : ∃ fault, ChannelMap.decode [0x4c] = .error fault := ⟨_, rfl⟩
  rcases first_migration_accounts (s := legacyNode damagedHost.files {}) rfl rfl rfl rfl
    legacy_damagedHost hold rfl rfl with ⟨r, s', t', u', hrun, -, haccounts, hrows, hcopied, -, -⟩
  refine ⟨legacy_damagedHost, r, s', t', hrun, ?_, ?_, ?_, ?_, ?_, ?_, ?_⟩
  · exact (haccounts.migrated _).2 ⟨by decide, _, _, hindexer, htext⟩
  · exact (haccounts.skipped _).2 ⟨by decide, by decide +kernel⟩
  · exact (haccounts.failed _ (by decide)).2 (Or.inl (by decide +kernel))
  · exact (haccounts.failed _ (by decide)).2 (Or.inr ⟨_, fault, hnetwork, hfault⟩)
  · exact haccounts.channel.2 (Or.inr ⟨_, cut, rfl, hcut⟩)
  · rcases hrows with ⟨tables, hold', ht', -⟩
    exact ⟨tables, hold', ht'⟩
  · have hstripped : settingText " 127.0.0.1:50001\r\n" = "127.0.0.1:50001" := by decide +kernel
    have hhas := hcopied.text "indexer_url" (by decide) _ _ hindexer htext
    rwa [hstripped] at hhas

end Node

end NodeStore
