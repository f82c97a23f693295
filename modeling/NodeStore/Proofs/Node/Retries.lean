import NodeStore.Proofs.Node.ChannelFile

/-! # Repeated migrations of the channel map

A migration may be stopped at any pair of the channel map, because that pair cannot be saved, and
is then repeated by another node. Nothing is lost by that: after an attempt that was stopped the
file is as it was, and the first attempt that is not stopped leaves the table that a single attempt
would have left, row by row.

* `attempt_stopped`, `attempt_ok`: one attempt;
* `Interrupted.stocked`: what attempts that were stopped leave;
* `channel_migration_resumes`: the attempt after them. -/

namespace NodeStore

open Op

namespace Node

variable {c : Config} {w : Place} {b : Bytes} {fails : Bool} {t : Table (Cell × Cell)}
  {I : Host → Prop} {R : Tables → Tables → Prop} {s : NodeState}

/-! ## Migrations of settings under outages -/

theorem failsAs_onStore {α : Type} {J : NodeState → Prop} {E : Failure → Prop} {op : StoreM α}
    (hop : FailsAs (fun _ => True) E op) : FailsAs J E (onStore op) := by
  intro s _ e t hrun
  have hanswer : (exec op (s.node.store.start s.host)).1 = .error e := congrArg Prod.fst hrun
  exact hop _ trivial e _ (Prod.ext hanswer rfl)

theorem failsAs_say {J : NodeState → Prop} {E : Failure → Prop} (level : Int)
    (subsystem message : String) : FailsAs J E (say level subsystem message) := by
  intro s _ e t hrun
  exact absurd (congrArg Prod.fst hrun) nofun

/-- A setting's migration fails in ways that can be noted. -/
theorem failsAs_migrateSetting (hI : KeptByStore c R I) (hR : AllowsSaves R)
    (hfolder : ∀ h, I h → h.HasFolder w c.storageDir) {key : String}
    (hkey : key ∈ Publication.keys) :
    FailsAs (Of c I) (fun e => e.isStore = true) (Migration.migrateSetting c.storageDir key) := by
  have hfound : FailsAs (Of c I) (fun e => e.isStore = true)
      (Migration.isFound (c.storageDir / key) key) := by
    intro s hs e s' hrun
    have hstorage := hfolder s.host hs.host
    have hres := (plainName_of_published hkey).resolve hstorage.resolves hstorage.folder
    rw [← hstorage.workDir] at hres
    rcases exec_isFound (FileTree.find?_of_resolve hres) key with ⟨l, hok⟩
    rw [hok] at hrun
    simp at hrun
  have hread : FailsAs (Of c I) (fun e => e.isStore = true)
      (Migration.readFile (c.storageDir / key)) := by
    intro s _ e s' hrun
    rw [exec_readFile] at hrun
    rcases mapError_eq_error (congrArg Prod.fst hrun) with ⟨fault, -, rfl⟩
    rfl
  unfold Migration.migrateSetting
  refine failsAs_bind hfound (keeps_isFound (keeps_say hI.emit) _ _) fun found => ?_
  cases found with
  | false => exact failsAs_pure false
  | true =>
    simp only [if_true]
    refine failsAs_bind hread (keeps_readFile _) fun bytes => ?_
    cases Migration.settingOfBytes bytes with
    | error fault => exact failsAs_throw rfl
    | ok value =>
      have hsaved : FailsAs (Of c I) (fun e => e.isStore = true)
          (onStore (Store.saveSetting key (some value))) := by
        refine failsAs_onStore fun u hu e v hrun => ?_
        rcases Store.failsAs_saveSetting key (some value) u hu e v hrun with ⟨fault, rfl⟩
        rfl
      refine failsAs_bind hsaved (keeps_saveSetting hI hR key (some value)) fun _ => ?_
      exact failsAs_bind (failsAs_say _ _ _) (keeps_say hI.emit _ _ _) fun _ => failsAs_pure true

/-- The outages that concern channel ids are as given. -/
def SameOutages (o : Outages) (s : NodeState) : Prop :=
  s.node.store.outages.transactions = o.transactions ∧
    s.node.store.outages.channelSave = o.channelSave

theorem SameOutages.savedBefore {o : Outages} (h : SameOutages o s) (n : Nat) :
    s.node.store.outages.savedBefore n = o.savedBefore n := by
  unfold Outages.savedBefore
  rw [h.1, h.2]

/-- Saves of settings have outages of their own. -/
theorem keeps_saveSetting_outages (o : Outages) (key : String) (value : Option String) :
    Keeps (SameOutages o) (onStore (Store.saveSetting key value)) := by
  have hsave : Keeps (fun u => u.outages.channelSave = o.channelSave)
      (Store.saveSetting key value) := by
    unfold Store.saveSetting Store.commitSetting
    refine keeps_bind ?_ fun _ => ?_
    · intro u hu
      rw [Store.exec_countSettingSave]
      exact hu
    · refine keeps_bind (keeps_modify fun _ hu => hu) fun _ => ?_
      refine keeps_bind (Store.keeps_transaction fun _ _ _ hu _ => hu) fun _ => ?_
      exact keeps_modify fun _ hu => hu
  rintro s ⟨htransactions, hchannels⟩
  refine ⟨htransactions, hsave (s.node.store.start s.host) ?_⟩
  unfold StoreHandle.start
  split
  · exact hchannels
  · exact hchannels

/-! ## One attempt -/

/-- An attempt comes to the channel map, whatever becomes of the settings. -/
theorem Moving.run (hb : b ≠ []) (hs : Moving c w b fails t s) :
    ∃ r s₁, Moving c w b fails t s₁ ∧ SameOutages s.node.store.outages s₁ ∧
      r.channelIds = 0 ∧ r.failed.lookup Migration.channelFile = none ∧
      exec (Migration.run c.storageDir c.protocolDataDir) s = exec (Migration.attempt
        Migration.channelFile (Migration.migrateChannels c.protocolDataDir)
        (fun n => { r with channelIds := n })
        (Migration.MigrationReport.fail r Migration.channelFile)) s₁ := by
  have hI : KeptByStore c KeepsChannels fun h =>
      h.HasContainer c w b fails ∧ h.HasChannels c w t :=
    (keptByStore_hasContainer hb).and keptByStore_hasChannels
  have hR := allowsSaves_keepsChannels
  let J : NodeState → Prop := fun s' =>
    Of c (fun h => h.HasContainer c w b fails ∧ h.HasChannels c w t) s' ∧
      SameOutages s.node.store.outages s'
  have hJ : J s := ⟨⟨hs.of.1, hs.of.2, hs.of.3, hs.of.4, hs.rows⟩, rfl, rfl⟩
  have hkeeps : ∀ key ∈ Migration.settingKeys,
      Keeps J (Migration.migrateSetting c.storageDir key) := fun key _ =>
    keeps_migrateSetting (fun _ _ _ s' hs' => ⟨keeps_say hI.emit _ _ _ s' hs'.1, hs'.2⟩)
      (fun value => keeps_and (keeps_saveSetting hI hR key value)
        (keeps_saveSetting_outages s.node.store.outages key value)) c.storageDir
  have hfails : ∀ key ∈ Migration.settingKeys, FailsAs J (fun e => e.isStore = true)
      (Migration.migrateSetting c.storageDir key) := fun key hkey s' hs' =>
    failsAs_migrateSetting hI hR (fun h hh => hh.1.storage) hkey s' hs'.1
  have hemit : ∀ s' l, J s' → J { s' with host := s'.host.emit l } := fun s' l hs' =>
    ⟨⟨hs'.1.1, hs'.1.2, hs'.1.3, hI.emit s'.host l hs'.1.host⟩, hs'.2⟩
  rcases exec_migrateSettings hkeeps hfails hemit hJ {} with ⟨r, s₁, hrun, hs₁, hcount, hfailed⟩
  refine ⟨r, s₁, ⟨⟨hs₁.1.1, hs₁.1.2, hs₁.1.3, hs₁.1.4.1⟩, hs₁.1.4.2⟩, hs₁.2, hcount,
    hfailed _ (by decide), ?_⟩
  rw [exec_run_of_folder hs.of.host.storage]
  exact exec_bind_of_ok hrun

/-- If a save fails, the attempt tells so, and the file is as it was. -/
theorem attempt_stopped (hb : b ≠ []) (hs : Moving c w b fails t s) {m : ChannelMap}
    (hdecode : ChannelMap.decode b = .ok m) {k : Nat}
    (hk : s.node.store.outages.savedBefore m.entries.length = some k) :
    ∃ r s', exec (Migration.run c.storageDir c.protocolDataDir) s = (.ok r, s') ∧
      (∃ fault, r.failed.lookup Migration.channelFile = some (.database fault)) ∧
      r.channelIds = 0 ∧
      Moving c w b fails (Table.upsertAll ((m.entries.map Store.cellsOf).take k) t) s' := by
  rcases hs.run hb with ⟨r, s₁, hs₁, hout, hcount, -, hrun⟩
  rw [← hout.savedBefore] at hk
  rcases migrateChannels_stopped hb hs₁ hdecode hk with ⟨fault, s₂, hmove, hs₂⟩
  have hstore : ∀ e, (.error (.database fault) : Except Failure Nat) = .error e →
      e.isStore = true := by
    intro e he
    obtain rfl := Except.error.inj he
    rfl
  rcases exec_attempt hmove hstore Migration.channelFile (fun n => { r with channelIds := n })
    (Migration.MigrationReport.fail r Migration.channelFile) with ⟨n, hn, -⟩ | ⟨e, l, he, hdone⟩
  · simp at hn
  · obtain rfl := Except.error.inj he
    refine ⟨_, _, hrun.trans hdone, ⟨fault, ?_⟩, hcount, hs₂.emit hb l⟩
    exact (Assoc.lookup_put ..).trans (if_pos rfl)

/-- If no save fails, the attempt moves the map. -/
theorem attempt_ok (hb : b ≠ []) (hs : Moving c w b fails t s) {m : ChannelMap}
    (hdecode : ChannelMap.decode b = .ok m)
    (hnone : s.node.store.outages.savedBefore m.entries.length = none) :
    ∃ r s', exec (Migration.run c.storageDir c.protocolDataDir) s = (.ok r, s') ∧
      r.failed.lookup Migration.channelFile = none ∧ r.channelIds = m.entries.length ∧
      s'.host.HasChannels c w (Table.upsertAll (m.entries.map Store.cellsOf) t) ∧
      s'.host.files.entry? (c.channelPlace w) = if fails then some (.file b) else none := by
  rcases hs.run hb with ⟨r, s₁, hs₁, hout, -, hfailed, hrun⟩
  rw [← hout.savedBefore] at hnone
  rcases migrateChannels_ok hb hs₁ hdecode hnone with ⟨s', hmove, hrows, hfile⟩
  rcases exec_attempt hmove (by simp) Migration.channelFile (fun n => { r with channelIds := n })
    (Migration.MigrationReport.fail r Migration.channelFile) with ⟨n, hn, hdone⟩ | ⟨e, l, he, -⟩
  · obtain rfl := Except.ok.inj hn
    exact ⟨_, s', hrun.trans hdone, hfailed, rfl, hrows, hfile⟩
  · simp at he

/-! ## Attempts one after the other -/

/-- A node that begins where files are as they were left on a host. The node, its outages and the
rest of its machine may be any. -/
structure Begins (c : Config) (h : Host) (s : NodeState) : Prop where
  config : s.node.config = c
  storePath : s.node.store.path = c.storeFile
  secretPath : s.node.secret.path = c.secretPath
  files : s.host.files = h.files
  workDir : s.host.workDir = h.workDir
  logs : s.host.logging.Own

/-- Hosts after attempts of which each was stopped, by a save that failed at any pair of the map. -/
inductive Interrupted (c : Config) (pairs : Nat) (start : Host) : Host → Prop where
  | start : Interrupted c pairs start start
  | attempt {h : Host} {s : NodeState} {k : Nat} : Interrupted c pairs start h → Begins c h s →
    s.node.store.outages.savedBefore pairs = some k →
    Interrupted c pairs start (exec (Migration.run c.storageDir c.protocolDataDir) s).2.host

/-- A host with a channel map to move, and a table to move it to. -/
structure Stocked (c : Config) (w : Place) (b : Bytes) (t : Table (Cell × Cell)) (h : Host) :
    Prop where
  workDir : h.workDir = w
  storage : h.HasFolder w c.storageDir
  resolves : h.files.resolve w c.channelFile = .ok (c.channelPlace w)
  file : h.files.entry? (c.channelPlace w) = some (.file b)
  rows : h.HasChannels c w t

theorem Stocked.moving {h : Host} (hh : Stocked c w b t h) (hs : Begins c h s) :
    Moving c w b s.host.removalFails t s := by
  have hdir := hs.workDir.trans hh.workDir
  rcases hh.rows with ⟨-, tables, hold, ht⟩
  have hstorage : s.host.HasFolder w c.storageDir :=
    ⟨hdir, by rw [hs.files, hh.storage.resolves], by rw [hs.files, hh.storage.folder]⟩
  have hcontainer : s.host.HasContainer c w b s.host.removalFails :=
    ⟨hdir, hstorage, hs.logs, by rw [hs.files, hh.resolves], by rw [hs.files, hh.file], rfl⟩
  have hold' : s.host.Holds c.storeFile tables := by
    unfold Host.Holds
    rw [hs.files, hs.workDir]
    exact hold
  exact ⟨⟨hs.config, hs.storePath, hs.secretPath, hcontainer⟩, hdir, tables, hold', ht⟩

theorem Moving.stocked (hs : Moving c w b fails t s) : Stocked c w b t s.host :=
  ⟨hs.of.host.workDir, hs.of.host.storage, hs.of.host.resolves, hs.of.host.file, hs.rows⟩

/-- Attempts that were stopped leave a host like the first one, but for a beginning of the pairs. -/
theorem Interrupted.stocked {start h : Host} {m : ChannelMap} (hb : b ≠ [])
    (hdecode : ChannelMap.decode b = .ok m) (hstart : Stocked c w b t start)
    (hrun : Interrupted c m.entries.length start h) :
    ∃ k, Stocked c w b (Table.upsertAll ((m.entries.map Store.cellsOf).take k) t) h := by
  induction hrun with
  | start => exact ⟨0, hstart⟩
  | @attempt h s k _ hs hk ih =>
    rcases ih with ⟨j, hh⟩
    rcases attempt_stopped hb (hh.moving hs) hdecode hk with ⟨r, s', hattempt, -, -, hs'⟩
    rw [Table.upsertAll_take_take (Store.nodup_cellsOf hdecode)] at hs'
    rw [hattempt]
    exact ⟨max j k, hs'.stocked⟩

/-- A host on which a channel map is read, and is to be moved to a table. -/
theorem stocked_of_read {start : Host} {m : ChannelMap}
    (hstorage : start.HasFolder start.workDir c.storageDir)
    (hread : start.files.read start.workDir c.channelFile = .ok b)
    (hdecode : ChannelMap.decode b = .ok m) (hrows : start.HasChannels c start.workDir t) :
    Stocked c start.workDir b t start := by
  rcases FileTree.read_ok hread with ⟨place, hres, -⟩
  obtain rfl := FileTree.place_eq_of_resolve hres
  exact ⟨rfl, hstorage, hres, (channelFile_of_decode hread hdecode).2, hrows⟩

/-- The pairs that were put into a canonical table are loaded from it. -/
theorem loadChannelIds_moved {h : Host} {m : ChannelMap} (hdecode : ChannelMap.decode b = .ok m)
    (hcanonical : Store.Canonical t)
    (hrows : h.HasChannels c w (Table.upsertAll (m.entries.map Store.cellsOf) t))
    (hs : Begins c h s) (hworks : s.node.store.outages.transactions = none) :
    ∃ ids, (exec (onStore Store.loadChannelIds) s).1 = .ok ids ∧ ∀ p ∈ m.entries, p ∈ ids := by
  rcases hrows with ⟨-, tables, hold, ht⟩
  have hold' : s.host.Holds s.node.store.path tables := by
    unfold Host.Holds
    rw [hs.files, hs.workDir, hs.storePath]
    exact hold
  have hsized := (ChannelMap.fits_of_decode hdecode).2
  obtain ⟨ids, log, hload, hids⟩ := Store.exec_loadChannelIds
    (s := ⟨tables, s.node.store.cache, s.node.store.outages, []⟩) hworks ht
    (hcanonical.upsertAll hsized)
  rcases StoreHandle.exec_run hold' Store.loadChannelIds with ⟨h', hrun, -⟩
  rw [hload] at hrun
  refine ⟨ids, congrArg Prod.fst hrun, ?_⟩
  intro p hp
  have hhas := Table.has_upsertAll (t := t) (Store.nodup_cellsOf hdecode) (List.mem_map_of_mem hp)
  rcases Table.mem_keys.1 hhas.1 with ⟨r, hr, hkey⟩
  exact (hids p).2 ⟨r, hr, Prod.ext hkey (hhas.2 r hr hkey)⟩

/-- A channel map lies in its file, the table of channel ids is one that the store's own calls have
made, and any number of attempts to move the map were stopped, each by a save that failed at any
pair. Of the next attempt, whichever outages its node has:

* if a save fails again, the report tells so, and the file is there byte for byte;
* otherwise the table has the rows that a single attempt at the beginning would have left, ids
  included; every pair of the map is loaded by a store that works; the report tells the number of
  distinct temporary ids that were written in the file; and the file is gone, or is there byte for
  byte if removing files fails on that machine. -/
theorem channel_migration_resumes {start h : Host} {m : ChannelMap}
    (hstorage : start.HasFolder start.workDir c.storageDir)
    (hread : start.files.read start.workDir c.channelFile = .ok b)
    (hdecode : ChannelMap.decode b = .ok m)
    (hrows : start.HasChannels c start.workDir t) (hprior : Store.Produced t)
    (hstopped : Interrupted c m.entries.length start h) (hs : Begins c h s) :
    (∀ k, s.node.store.outages.savedBefore m.entries.length = some k →
      ∃ r s', exec (Migration.run c.storageDir c.protocolDataDir) s = (.ok r, s') ∧
        (∃ fault, r.failed.lookup Migration.channelFile = some (.database fault)) ∧
        s'.host.files.entry? (c.channelPlace start.workDir) = some (.file b)) ∧
    (s.node.store.outages.savedBefore m.entries.length = none →
      ∃ r s' rows, exec (Migration.run c.storageDir c.protocolDataDir) s = (.ok r, s') ∧
        r.failed.lookup Migration.channelFile = none ∧
        s'.host.HasChannels c start.workDir rows ∧
        (∀ s₀, Begins c start s₀ →
          s₀.node.store.outages.savedBefore m.entries.length = none →
          (exec (Migration.run c.storageDir c.protocolDataDir) s₀).2.host.HasChannels c
            start.workDir rows) ∧
        (∀ s₁, Begins c s'.host s₁ → s₁.node.store.outages.transactions = none →
          ∃ ids, (exec (onStore Store.loadChannelIds) s₁).1 = .ok ids ∧
            ∀ p ∈ m.entries, p ∈ ids) ∧
        (∀ pairs, ChannelMap.Written pairs b →
          r.channelIds = (pairs.map Prod.fst).toFinset.card) ∧
        s'.host.files.entry? (c.channelPlace start.workDir) =
          if s.host.removalFails then some (.file b) else none) := by
  have hb : b ≠ [] := (channelFile_of_decode hread hdecode).1
  have hstart := stocked_of_read hstorage hread hdecode hrows
  rcases hstopped.stocked hb hdecode hstart with ⟨j, hh⟩
  have hmoving := hh.moving hs
  constructor
  · intro k hk
    rcases attempt_stopped hb hmoving hdecode hk with ⟨r, s', hrun, hfailed, -, hs'⟩
    exact ⟨r, s', hrun, hfailed, hs'.of.host.file⟩
  · intro hnone
    rcases attempt_ok hb hmoving hdecode hnone with ⟨r, s', hrun, hfailed, hcount, hrows', hfile⟩
    -- what was put into the table before makes no difference
    rw [Table.upsertAll_take_all (Store.nodup_cellsOf hdecode)] at hrows'
    refine ⟨r, s', _, hrun, hfailed, hrows', ?_, ?_, ?_, hfile⟩
    · intro s₀ hs₀ hnone₀
      rcases attempt_ok hb (hstart.moving hs₀) hdecode hnone₀ with
        ⟨r₀, s₀', hrun₀, -, -, hrows₀, -⟩
      rw [hrun₀]
      exact hrows₀
    · intro s₁ hs₁ hworks
      exact loadChannelIds_moved hdecode hprior.canonical hrows' hs₁ hworks
    · intro pairs hpairs
      rw [hcount, ChannelMap.length_of_written hpairs hdecode]

/-- A table with one of the temporary ids that are to be moved, and another final id. -/
def movedBefore : Table (Cell × Cell) where
  rows := [⟨1, Store.cellsOf (ChannelMap.sameBytes 2, ChannelMap.sameBytes 5)⟩]

/-- A machine with that table, and a map of three pairs of which two have one temporary id. -/
def legacyHost : Host :=
  { Host.bare with
    files :=
      { entries :=
          [(["node"], .folder), (["node", ".ldk"], .folder),
            (["node", "lnstore.db"], .database { channels := some movedBefore }),
            (["node", ".ldk", "channel_ids"], .file ChannelMap.repeatedId)] } }

/-- A node on some files, with some outages. -/
def legacyNode (files : FileTree) (outages : Outages) : NodeState where
  node :=
    { config := legacyConfig
      store := { path := legacyConfig.storeFile, outages }
      secret := { path := legacyConfig.secretPath, iterations := 1 } }
  host := { Host.bare with files }

theorem begins_legacyNode {h : Host} (hdir : h.workDir = []) (outages : Outages) :
    Begins legacyConfig h (legacyNode h.files outages) :=
  ⟨rfl, rfl, rfl, rfl, hdir.symm, by simp [Logging.Own, legacyNode, Host.bare]⟩

/-- The second save fails in the first attempt, and none in the second one. -/
theorem second_attempt_moves_map :
    legacyHost.HasFolder legacyHost.workDir legacyConfig.storageDir ∧
    legacyHost.files.read legacyHost.workDir legacyConfig.channelFile = .ok ChannelMap.repeatedId ∧
    ChannelMap.decode ChannelMap.repeatedId = .ok ChannelMap.twoPairs ∧
    legacyHost.HasChannels legacyConfig legacyHost.workDir movedBefore ∧
    Store.Produced movedBefore ∧
    ∃ h, Interrupted legacyConfig ChannelMap.twoPairs.entries.length legacyHost h ∧
      h.files.entry? (legacyConfig.channelPlace []) = some (.file ChannelMap.repeatedId) ∧
      Begins legacyConfig h (legacyNode h.files {}) ∧
      ∃ r s', exec (Migration.run legacyConfig.storageDir legacyConfig.protocolDataDir)
          (legacyNode h.files {}) = (.ok r, s') ∧ r.channelIds = 2 ∧
        s'.host.files.entry? (legacyConfig.channelPlace []) = none := by
  have hstorage : legacyHost.HasFolder legacyHost.workDir legacyConfig.storageDir :=
    ⟨rfl, by decide +kernel, by decide +kernel⟩
  have hread : legacyHost.files.read legacyHost.workDir legacyConfig.channelFile =
      .ok ChannelMap.repeatedId := by decide +kernel
  have hdecode : ChannelMap.decode ChannelMap.repeatedId = .ok ChannelMap.twoPairs := by
    decide +kernel
  have hrows : legacyHost.HasChannels legacyConfig legacyHost.workDir movedBefore :=
    ⟨rfl, { channels := some movedBefore }, ⟨by decide +kernel, by decide +kernel⟩, rfl⟩
  have hprior : Store.Produced movedBefore :=
    .call (s := { tables := { channels := some {} } })
      (.save (ChannelMap.sameBytes 2) (ChannelMap.sameBytes 5)) .new rfl (by decide +kernel)
  -- the first attempt
  have hfirst : Begins legacyConfig legacyHost
      (legacyNode legacyHost.files { channelSave := some 2 }) := begins_legacyNode rfl _
  rcases (channel_migration_resumes hstorage hread hdecode hrows hprior .start hfirst).1 1 rfl with
    ⟨r₁, s₁, hrun₁, -, hfile₁⟩
  have hstopped : Interrupted legacyConfig ChannelMap.twoPairs.entries.length legacyHost
      s₁.host := by
    have hstart : Interrupted legacyConfig ChannelMap.twoPairs.entries.length legacyHost
        legacyHost := .start
    have hattempt := hstart.attempt hfirst (k := 1) rfl
    rwa [hrun₁] at hattempt
  have hdir : s₁.host.workDir = [] := by
    have hstay : (exec (Migration.run legacyConfig.storageDir legacyConfig.protocolDataDir)
        (legacyNode legacyHost.files { channelSave := some 2 })).2.host.workDir = [] := by
      decide +kernel
    rwa [hrun₁] at hstay
  -- the second one
  have hsecond := begins_legacyNode hdir {}
  rcases (channel_migration_resumes hstorage hread hdecode hrows hprior hstopped hsecond).2 rfl with
    ⟨r, s', -, hrun, -, -, -, -, hcount, hfile⟩
  have hwritten : ChannelMap.Written [(ChannelMap.sameBytes 1, ChannelMap.sameBytes 7),
      (ChannelMap.sameBytes 2, ChannelMap.sameBytes 9),
      (ChannelMap.sameBytes 1, ChannelMap.sameBytes 8)] ChannelMap.repeatedId :=
    ⟨by decide, by decide +kernel, rfl⟩
  exact ⟨hstorage, hread, hdecode, hrows, hprior, s₁.host, hstopped, hfile₁, hsecond, r, s', hrun,
    (hcount _ hwritten).trans (by decide +kernel), hfile⟩

end Node

end NodeStore
