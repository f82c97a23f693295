import NodeStore.Proofs.Node.SettingFiles
import NodeStore.Proofs.Store.ChannelIds

/-! # Moving the channel map

The channel map is moved from its file into the table of channel ids. Its pairs are saved in
order. If a save fails, the pairs before it are in the table and the file is as it was; otherwise
all pairs are in the table, and then the file is removed.

* `savePairs_stopped`, `savePairs_ok`: saving the pairs;
* `migrateChannels_stopped`, `migrateChannels_ok`: moving the map. -/

namespace NodeStore

open Op

/-! ## The file -/

/-- The place of the file of the channel map. -/
def Config.channelPlace (c : Config) (workDir : Place) : Place :=
  c.channelFile.placeFrom workDir

theorem plainName_channelFile : FileTree.PlainName Migration.channelFile := by decide +kernel

theorem Config.channelPlace_eq (c : Config) (workDir : Place) :
    c.channelPlace workDir = c.protocolDataDir.placeFrom workDir ++ [Migration.channelFile] :=
  plainName_channelFile.placeFrom c.protocolDataDir workDir

/-- Logs are not written to the file of the channel map. -/
theorem Logging.Own.channelPlace {s : Logging} (hown : s.Own) (c : Config) (w : Place) :
    ∀ handler ∈ s.handlers, handler.sink ≠ .file (c.channelPlace w) := by
  intro handler hmem
  rw [c.channelPlace_eq]
  exact hown.sink_ne hmem (by decide) _

/-- The storage folder is there, and the file of the channel map with the given bytes. Removing
files may be failing. -/
structure Host.HasContainer (c : Config) (w : Place) (b : Bytes) (fails : Bool) (h : Host) :
    Prop where
  workDir : h.workDir = w
  storage : h.HasFolder w c.storageDir
  logs : h.logging.Own
  resolves : h.files.resolve w c.channelFile = .ok (c.channelPlace w)
  file : h.files.entry? (c.channelPlace w) = some (.file b)
  removal : h.removalFails = fails

variable {c : Config} {w : Place} {b : Bytes} {fails : Bool} {t : Table (Cell × Cell)}
  {R : Tables → Tables → Prop}

theorem keptByStore_hasContainer (hb : b ≠ []) : KeptByStore c R (Host.HasContainer c w b fails)
    where
  emit h l hh :=
    ⟨hh.workDir, (keptByStore_hasFolder c R w c.storageDir).emit h l hh.storage, hh.logs,
      FileTree.resolve_of_folders (Host.grown_emit h l).folder hh.resolves,
      (Host.entry?_emit (hh.logs.channelPlace c w) l).trans hh.file, hh.removal⟩
  tables := by
    intro h p place old new hp hdb hR hh
    have hstorage := (keptByStore_hasFolder c R w c.storageDir).tables h p place old new hp hdb hR
      hh.storage
    refine ⟨hh.workDir, hstorage, hh.logs,
      FileTree.resolve_of_folders (fun _ => Host.folder_putTables hdb new) hh.resolves, ?_,
      hh.removal⟩
    -- a file that is not empty is no database
    refine (FileTree.entry?_put_ne ?_ _).trans hh.file
    rintro rfl
    rcases Host.databaseAt_ok hdb with ⟨-, -, he⟩
    rw [hh.file] at he
    simp [hb] at he

/-! ## The table -/

/-- The file of the store is a database with the given table of channel ids. -/
abbrev Host.HasChannels (c : Config) (w : Place) (t : Table (Cell × Cell)) : Host → Prop :=
  Host.StoreHas c w fun tables => tables.channels = some t

/-- The table of channel ids stays as it is. -/
def KeepsChannels (old new : Tables) : Prop :=
  ∀ t, old.channels = some t → new.channels = some t

theorem allowsSaves_keepsChannels : AllowsSaves KeepsChannels where
  same _ _ h := h
  settings _ _ _ h := h

/-- Saves of settings leave the table of channel ids as it is. -/
theorem keptByStore_hasChannels : KeptByStore c KeepsChannels (Host.HasChannels c w t) :=
  keptByStore_storeHas fun _ _ hR => hR t

namespace Node

/-! ## Saving the pairs -/

/-- A node with a channel map to move, and a table to move it to. -/
structure Moving (c : Config) (w : Place) (b : Bytes) (fails : Bool) (t : Table (Cell × Cell))
    (s : NodeState) : Prop where
  of : Of c (Host.HasContainer c w b fails) s
  rows : s.host.HasChannels c w t

variable {s : NodeState} {p : Bytes × Bytes} {pairs : List (Bytes × Bytes)}

theorem Moving.emit (hb : b ≠ []) (hs : Moving c w b fails t s) (l : LogLine) :
    Moving c w b fails t { s with host := s.host.emit l } where
  of := ⟨hs.of.config, hs.of.storePath, hs.of.secretPath,
    (keptByStore_hasContainer (R := fun _ _ => True) hb).emit s.host l hs.of.host⟩
  rows := keptByStore_hasChannels.emit s.host l hs.rows

/-- A save that is not stopped. -/
theorem Moving.save (hb : b ≠ []) (hs : Moving c w b fails t s) (hsized : ChannelMap.Sized p)
    (hgoes : ¬ Store.Stops s.node.store.outages) :
    ∃ s', exec (onStore (Store.saveChannelId p.1 p.2)) s = (.ok (), s') ∧
      Moving c w b fails (t.upsert (Store.cellsOf p).1 (Store.cellsOf p).2) s' ∧
      s'.node.store.outages = Store.afterSave s.node.store.outages := by
  rcases hs.rows with ⟨hdir, tables, hold, ht⟩
  obtain ⟨log, hsave⟩ := Store.exec_saveChannelId
    (s := ⟨tables, s.node.store.cache, s.node.store.outages, []⟩) hsized ht hgoes
  obtain ⟨s', hrun, hof, hdir', hold', -, hout⟩ := exec_onStore
    (keptByStore_hasContainer (R := fun _ _ => True) hb) hs.of hold (fun _ => trivial) hsave
  exact ⟨s', hrun, ⟨hof, hdir'.trans hdir, _, hold', rfl⟩, hout⟩

/-- A save that is stopped. -/
theorem Moving.save_stopped (hb : b ≠ []) (hs : Moving c w b fails t s)
    (hsized : ChannelMap.Sized p) (hstops : Store.Stops s.node.store.outages) :
    ∃ fault s', exec (onStore (Store.saveChannelId p.1 p.2)) s = (.error (.database fault), s') ∧
      Moving c w b fails t s' := by
  rcases hs.rows with ⟨hdir, tables, hold, ht⟩
  obtain ⟨fault, u, hsave, htables⟩ := Store.exec_saveChannelId_stopped
    (s := ⟨tables, s.node.store.cache, s.node.store.outages, []⟩) hsized hstops
  obtain ⟨s', hrun, hof, hdir', hold', -⟩ := exec_onStore
    (keptByStore_hasContainer (R := fun _ _ => True) hb) hs.of hold (fun _ => trivial) hsave
  exact ⟨fault, s', hrun, ⟨hof, hdir'.trans hdir, u.tables, hold', by rw [htables, ht]⟩⟩

/-- If a save fails, the pairs before it are in the table. -/
theorem savePairs_stopped (hb : b ≠ []) (hs : Moving c w b fails t s)
    (hsized : ∀ p ∈ pairs, ChannelMap.Sized p) {k : Nat}
    (hk : s.node.store.outages.savedBefore pairs.length = some k) :
    ∃ fault s', exec (Migration.savePairs pairs) s = (.error (.database fault), s') ∧
      Moving c w b fails (Table.upsertAll ((pairs.map Store.cellsOf).take k) t) s' := by
  induction pairs generalizing t s k with
  | nil => simp [Store.savedBefore_zero] at hk
  | cons p rest ih =>
    have hp := hsized p List.mem_cons_self
    have hrest : ∀ q ∈ rest, ChannelMap.Sized q := fun q hq =>
      hsized q (List.mem_cons_of_mem p hq)
    unfold Migration.savePairs
    by_cases hstops : Store.Stops s.node.store.outages
    · rcases hs.save_stopped hb hp hstops with ⟨fault, s', hrun, hs'⟩
      rw [List.length_cons, Store.savedBefore_of_stops hstops] at hk
      obtain rfl := Option.some.inj hk
      exact ⟨fault, s', exec_bind_of_error hrun, hs'⟩
    · rcases hs.save hb hp hstops with ⟨s₁, hrun, hs₁, hout⟩
      rw [List.length_cons, Store.savedBefore_of_not_stops hstops, ← hout] at hk
      rcases Option.map_eq_some_iff.1 hk with ⟨j, hj, rfl⟩
      rcases ih hs₁ hrest hj with ⟨fault, s', hrun', hs'⟩
      exact ⟨fault, s', (exec_bind_of_ok hrun).trans hrun', hs'⟩

/-- If no save fails, all pairs are in the table. -/
theorem savePairs_ok (hb : b ≠ []) (hs : Moving c w b fails t s)
    (hsized : ∀ p ∈ pairs, ChannelMap.Sized p)
    (hnone : s.node.store.outages.savedBefore pairs.length = none) :
    ∃ s', exec (Migration.savePairs pairs) s = (.ok (), s') ∧
      Moving c w b fails (Table.upsertAll (pairs.map Store.cellsOf) t) s' := by
  induction pairs generalizing t s with
  | nil => exact ⟨s, rfl, hs⟩
  | cons p rest ih =>
    have hp := hsized p List.mem_cons_self
    have hrest : ∀ q ∈ rest, ChannelMap.Sized q := fun q hq =>
      hsized q (List.mem_cons_of_mem p hq)
    have hgoes : ¬ Store.Stops s.node.store.outages := by
      intro hstops
      rw [List.length_cons, Store.savedBefore_of_stops hstops] at hnone
      simp at hnone
    rcases hs.save hb hp hgoes with ⟨s₁, hrun, hs₁, hout⟩
    rw [List.length_cons, Store.savedBefore_of_not_stops hgoes, ← hout,
      Option.map_eq_none_iff] at hnone
    rcases ih hs₁ hrest hnone with ⟨s', hrun', hs'⟩
    unfold Migration.savePairs
    exact ⟨s', (exec_bind_of_ok hrun).trans hrun', hs'⟩

/-! ## Moving the map -/

/-- The file is found and read, and its pairs are saved. -/
theorem Moving.begin (hb : b ≠ []) (hs : Moving c w b fails t s) {m : ChannelMap}
    (hdecode : ChannelMap.decode b = .ok m) :
    ∃ s₁, Moving c w b fails t s₁ ∧ s₁.node.store.outages = s.node.store.outages ∧
      exec (Migration.migrateChannels c.protocolDataDir) s = exec (do
        Migration.savePairs m.entries
        let count := m.entries.length
        say LogLevel.info Migration.subsystem
          s!"Successfully migrated {count} channel ID mappings from file to database"
        onHost (SecretHandle.removeOld c.channelFile Migration.subsystem Migration.channelFile
          (some s!"Removed old {Migration.channelFile} file after migration"))
        return count) s₁ := by
  have hres := hs.of.host.resolves
  rw [← hs.of.host.workDir] at hres
  have hfind := FileTree.find?_of_resolve hres
  rw [hs.of.host.workDir, hs.of.host.file, ← hs.of.host.workDir] at hfind
  rcases exec_isFound hfind Migration.channelFile with ⟨l, hfound⟩
  have hs₁ := hs.emit hb l
  refine ⟨_, hs₁, rfl, ?_⟩
  have hread := exec_readFile c.channelFile { s with host := s.host.emit l }
  rw [hs₁.of.host.workDir,
    FileTree.read_of_file hs₁.of.host.resolves hs₁.of.host.file] at hread
  have hpath : c.protocolDataDir / Migration.channelFile = c.channelFile := rfl
  unfold Migration.migrateChannels
  simp only [hpath]
  rw [exec_bind_of_ok hfound]
  simp only [Option.isSome_some, if_true]
  rw [exec_bind_of_ok hread, hdecode]

/-- If a save fails, the pairs before it are in the table, and the file is as it was. -/
theorem migrateChannels_stopped (hb : b ≠ []) (hs : Moving c w b fails t s) {m : ChannelMap}
    (hdecode : ChannelMap.decode b = .ok m) {k : Nat}
    (hk : s.node.store.outages.savedBefore m.entries.length = some k) :
    ∃ fault s', exec (Migration.migrateChannels c.protocolDataDir) s =
        (.error (.database fault), s') ∧
      Moving c w b fails (Table.upsertAll ((m.entries.map Store.cellsOf).take k) t) s' := by
  rcases hs.begin hb hdecode with ⟨s₁, hs₁, hout, hrun⟩
  rw [← hout] at hk
  rcases savePairs_stopped hb hs₁ (ChannelMap.fits_of_decode hdecode).2 hk with
    ⟨fault, s', hsave, hs'⟩
  exact ⟨fault, s', hrun.trans (exec_bind_of_error hsave), hs'⟩

/-- The file is removed if files can be. -/
theorem Moving.remove (hs : Moving c w b fails t s) (subsystem what message : String) :
    ∃ s', exec (onHost (SecretHandle.removeOld c.channelFile subsystem what (some message))) s =
        (.ok (), s') ∧
      s'.host.HasChannels c w t ∧
      s'.host.files.entry? (c.channelPlace w) = if fails then some (.file b) else none := by
  obtain rfl := hs.of.host.workDir
  obtain rfl := hs.of.host.removal
  have hfile := hs.of.host.file
  obtain ⟨l, hremove⟩ := SecretHandle.exec_removeOld_file hs.of.host.resolves hfile subsystem what
    message
  have hrun := exec_onHost
    (SecretHandle.removeOld c.channelFile subsystem what (some message)) s
  rw [hremove] at hrun
  refine ⟨_, hrun, ?_⟩
  have hlogs := hs.of.host.logs.channelPlace c s.host.workDir
  by_cases hfails : s.host.removalFails = true
  · simp only [if_pos hfails]
    exact ⟨keptByStore_hasChannels.emit s.host l hs.rows, (Host.entry?_emit hlogs l).trans hfile⟩
  · simp only [if_neg hfails]
    have hplace : c.channelPlace s.host.workDir ≠ [] := by
      rw [c.channelPlace_eq]
      simp
    let erased : Host :=
      { s.host with files := s.host.files.erase (c.channelPlace s.host.workDir) }
    rcases hs.rows with ⟨hdir, tables, hold, ht⟩
    have hrows : erased.HasChannels c s.host.workDir t := ⟨hdir, tables, hold.erase hfile, ht⟩
    exact ⟨keptByStore_hasChannels.emit erased l hrows,
      (Host.entry?_emit (h := erased) hlogs l).trans (FileTree.entry?_erase_self hplace)⟩

/-- If no save fails, all pairs are in the table, and the file is removed if files can be. -/
theorem migrateChannels_ok (hb : b ≠ []) (hs : Moving c w b fails t s) {m : ChannelMap}
    (hdecode : ChannelMap.decode b = .ok m)
    (hnone : s.node.store.outages.savedBefore m.entries.length = none) :
    ∃ s', exec (Migration.migrateChannels c.protocolDataDir) s = (.ok m.entries.length, s') ∧
      s'.host.HasChannels c w (Table.upsertAll (m.entries.map Store.cellsOf) t) ∧
      s'.host.files.entry? (c.channelPlace w) = if fails then some (.file b) else none := by
  rcases hs.begin hb hdecode with ⟨s₁, hs₁, hout, hrun⟩
  rw [← hout] at hnone
  rcases savePairs_ok hb hs₁ (ChannelMap.fits_of_decode hdecode).2 hnone with ⟨s₂, hsave, hs₂⟩
  let l : LogLine := ⟨LogLevel.info, Migration.subsystem,
    s!"Successfully migrated {m.entries.length} channel ID mappings from file to database"⟩
  have hsay : exec (say l.level l.subsystem l.message) s₂ =
      (.ok (), { s₂ with host := s₂.host.emit l }) := rfl
  rcases (hs₂.emit hb l).remove Migration.subsystem Migration.channelFile
    s!"Removed old {Migration.channelFile} file after migration" with ⟨s', hremove, hrows, hfile⟩
  refine ⟨s', ?_, hrows, hfile⟩
  rw [hrun, exec_bind_of_ok hsave]
  exact (exec_bind_of_ok hsay).trans ((exec_bind_of_ok hremove).trans (exec_pure ..))

/-- A configuration whose storage folder is at the root. -/
def legacyConfig : Config where
  storageDir := ⟨.root, ["node"]⟩

end Node

end NodeStore
