import NodeStore.Proofs.Node.Contents

/-! # What a host holds between starts

A host holds contents (`Host.HasContents`) if its folders are there, and if its store and its
legacy files are what the contents say. A node that could be opened has made sure of that, whatever
was there before, and opening a node where contents are held changes none of them.

* `open_contents`: opening a node on any host;
* `keeps_open_contents`: opening a node where contents are held;
* `HasContents.publish`, `keptByMoving_hasFiles`: what the two changes of files do. -/

namespace NodeStore

open Op

/-! ## Names and places -/

/-- The places of the legacy files. -/
def Config.legacyPlaces (c : Config) (workDir : Place) : List Place :=
  c.channelPlace workDir :: Publication.keys.map (c.settingPlace workDir)

/-- The stores have their usual names, and the engine takes neither for a legacy file. It finds the
relational one without the part of the path that follows a question mark. -/
structure Config.Usual (c : Config) (workDir : Place) : Prop where
  storeName : c.storeName = "lnstore.db"
  secretName : c.secretName = "rln_db"
  apart : c.storeFile.placeFrom workDir ∉ c.legacyPlaces workDir

theorem plainName_usual : FileTree.PlainName "lnstore.db" ∧ FileTree.PlainName "rln_db" := by
  decide +kernel

section Places

variable {c : Config} {w : Place}

theorem Config.settingPlace_ne_channelPlace (c : Config) (w : Place) {key : String}
    (hkey : key ∈ Publication.keys) : c.settingPlace w key ≠ c.channelPlace w := by
  have hname : ∀ key ∈ Publication.keys, key ≠ Migration.channelFile := by decide
  rw [c.settingPlace_eq w hkey, c.channelPlace_eq]
  intro hsame
  exact hname key hkey (List.singleton_inj.1 (List.append_inj' hsame rfl).2)

theorem Config.settingPlace_inj (c : Config) (w : Place) {key k : String}
    (hkey : key ∈ Publication.keys) (hk : k ∈ Publication.keys)
    (hsame : c.settingPlace w k = c.settingPlace w key) : k = key := by
  rw [c.settingPlace_eq w hkey, c.settingPlace_eq w hk] at hsame
  exact List.singleton_inj.1 (List.append_inj' hsame rfl).2

/-- A file with another name is at no legacy place. -/
theorem Config.not_mem_legacyPlaces (c : Config) (w folder : Place) {name : String}
    (hname : name ∉ Migration.channelFile :: Publication.keys) :
    folder ++ [name] ∉ c.legacyPlaces w := by
  intro hmem
  rcases List.mem_cons.1 hmem with hchannel | hsetting
  · rw [c.channelPlace_eq] at hchannel
    have hsame := List.singleton_inj.1 (List.append_inj' hchannel rfl).2
    exact hname (hsame ▸ List.mem_cons_self)
  · rcases List.mem_map.1 hsetting with ⟨key, hkey, hplace⟩
    rw [c.settingPlace_eq w hkey] at hplace
    have hsame := List.singleton_inj.1 (List.append_inj' hplace rfl).2
    exact hname (hsame ▸ List.mem_cons_of_mem _ hkey)

theorem Config.Usual.storePath (hc : c.Usual w) : c.storePath.parent = c.storageDir := by
  rw [Config.storePath, hc.storeName, plainName_usual.1.div]
  simp [Path.parent]

theorem Config.Usual.secretPath (hc : c.Usual w) : c.secretPath.parent = c.storageDir := by
  rw [Config.secretPath, hc.secretName, plainName_usual.2.div]
  simp [Path.parent]

theorem Config.Usual.secret (hc : c.Usual w) : c.secretPath.placeFrom w ∉ c.legacyPlaces w := by
  rw [Config.secretPath, hc.secretName, plainName_usual.2.placeFrom]
  exact c.not_mem_legacyPlaces w _ (by decide)

/-- The usual names, where the engine finds the store under its path. -/
theorem Config.usual_of_names (w : Place) (hstore : c.storeName = "lnstore.db")
    (hsecret : c.secretName = "rln_db") (hfile : c.storeFile = c.storePath) : c.Usual w := by
  refine ⟨hstore, hsecret, ?_⟩
  rw [hfile, Config.storePath, hstore, plainName_usual.1.placeFrom]
  exact c.not_mem_legacyPlaces w _ (by decide)

end Places

/-! ## Files -/

/-- The folders are there, and the files of settings are as given. Logs have files of their own. -/
structure Host.HasFiles (c : Config) (w : Place) (fails : Bool)
    (files : String → Option FileEntry) (h : Host) : Prop where
  logs : h.logging.Own
  removal : h.removalFails = fails
  storage : h.HasFolder w c.storageDir
  protocol : h.HasFolder w c.protocolDataDir
  setting : ∀ key ∈ Publication.keys, h.files.entry? (c.settingPlace w key) = files key

/-- What stands at the place of the channel map. -/
def Host.HasMap (c : Config) (w : Place) (e : Option FileEntry) (h : Host) : Prop :=
  h.files.entry? (c.channelPlace w) = e

/-- The host holds the contents. -/
structure Host.HasContents (c : Config) (w : Place) (fails : Bool) (x : Contents) (h : Host) :
    Prop where
  files : h.HasFiles c w fails x.files
  container : h.HasMap c w x.container
  tables : h.StoreHas c w fun tables =>
    tables.settings = some x.settings ∧ tables.channels = some x.channels

section Kept

variable {c : Config} {w : Place} {fails : Bool} {files : String → Option FileEntry}
  {e : Option FileEntry} {x : Contents} {R : Tables → Tables → Prop} {h : Host} {key : String}
  {t : Table (Cell × Cell)}

/-- Neither log nor store is at a legacy place. -/
theorem Config.Usual.entry?_putTables (hc : c.Usual w) (hdir : h.workDir = w) {p : Path}
    {place q : Place} {old : Tables} (hp : p = c.storeFile ∨ p = c.secretPath)
    (hdb : h.databaseAt p = .ok (place, old)) (hq : q ∈ c.legacyPlaces w) (new : Tables) :
    (h.putTables place new).files.entry? q = h.files.entry? q := by
  refine FileTree.entry?_put_ne ?_ _
  rintro rfl
  rw [(Host.databaseAt_ok hdb).1, hdir] at hq
  rcases hp with rfl | rfl
  · exact hc.apart hq
  · exact hc.secret hq

theorem mem_legacyPlaces (hkey : key ∈ Publication.keys) :
    c.settingPlace w key ∈ c.legacyPlaces w :=
  List.mem_cons_of_mem _ (List.mem_map_of_mem hkey)

theorem Host.HasFiles.sink_ne (hh : h.HasFiles c w fails files) (hkey : key ∈ Publication.keys) :
    ∀ handler ∈ h.logging.handlers, handler.sink ≠ .file (c.settingPlace w key) := by
  have hname : ∀ key ∈ Publication.keys, key ≠ Logging.fileName := by decide
  intro handler hmem
  rw [c.settingPlace_eq w hkey]
  exact hh.logs.sink_ne hmem (hname key hkey) _

theorem keptByStore_hasFiles (hc : c.Usual w) :
    KeptByStore c R (Host.HasFiles c w fails files) where
  emit h l hh :=
    ⟨hh.logs, hh.removal, (keptByStore_hasFolder c R w _).emit h l hh.storage,
      (keptByStore_hasFolder c R w _).emit h l hh.protocol,
      fun key hkey => (Host.entry?_emit (hh.sink_ne hkey) l).trans (hh.setting key hkey)⟩
  tables h p place old new hp hdb hR hh :=
    ⟨hh.logs, hh.removal,
      (keptByStore_hasFolder c R w _).tables h p place old new hp hdb hR hh.storage,
      (keptByStore_hasFolder c R w _).tables h p place old new hp hdb hR hh.protocol,
      fun key hkey => (hc.entry?_putTables hh.storage.workDir hp hdb (mem_legacyPlaces hkey)
        new).trans (hh.setting key hkey)⟩

/-- What stands at the place of the channel map stays, beside the files of settings. -/
theorem keptByStore_hasMap (hc : c.Usual w) :
    KeptByStore c R fun h => h.HasFiles c w fails files ∧ h.HasMap c w e where
  emit h l hh := ⟨(keptByStore_hasFiles (R := R) hc).emit h l hh.1,
    (Host.entry?_emit (hh.1.logs.channelPlace c w) l).trans hh.2⟩
  tables h p place old new hp hdb hR hh :=
    ⟨(keptByStore_hasFiles hc).tables h p place old new hp hdb hR hh.1,
      (hc.entry?_putTables hh.1.storage.workDir hp hdb List.mem_cons_self new).trans hh.2⟩

/-- Neither table changes. -/
def KeepsTables (old new : Tables) : Prop :=
  KeepsSettings old new ∧ KeepsChannels old new

theorem allowsOpening_keepsTables : AllowsOpening KeepsTables where
  same _ := ⟨fun _ h => h, fun _ h => h⟩
  createMissing tables :=
    ⟨fun t h => by simp [Tables.createMissing, h], fun t h => by simp [Tables.createMissing, h]⟩
  createSeeds _ := ⟨fun _ h => h, fun _ h => h⟩

theorem keptByStore_hasTables (x : Contents) : KeptByStore c KeepsTables (Host.StoreHas c w
    fun tables => tables.settings = some x.settings ∧ tables.channels = some x.channels) :=
  keptByStore_storeHas fun _ _ hR hP => ⟨hR.1 _ hP.1, hR.2 _ hP.2⟩

theorem keptByStore_hasContents (hc : c.Usual w) :
    KeptByStore c KeepsTables (Host.HasContents c w fails x) where
  emit := by
    rintro h l ⟨hfiles, hmap, htables⟩
    rcases (keptByStore_hasMap (R := KeepsTables) hc).emit h l ⟨hfiles, hmap⟩ with
      ⟨hfiles', hmap'⟩
    exact ⟨hfiles', hmap', (keptByStore_hasTables x).emit h l htables⟩
  tables := by
    rintro h p place old new hp hdb hR ⟨hfiles, hmap, htables⟩
    rcases (keptByStore_hasMap hc).tables h p place old new hp hdb hR ⟨hfiles, hmap⟩ with
      ⟨hfiles', hmap'⟩
    exact ⟨hfiles', hmap', (keptByStore_hasTables x).tables h p place old new hp hdb hR htables⟩

/-! ## Changes of files -/

theorem Host.HasFolder.put {p : Path} {place : Place} (hfolder : h.HasFolder w p)
    (hplace : h.files.entry? place ≠ some .folder) (e : FileEntry) :
    { h with files := h.files.put place e }.HasFolder w p := by
  refine hfolder.of_folders rfl fun q hq => (FileTree.entry?_put_ne ?_ e).trans hq
  rintro rfl
  exact hplace hq

theorem Host.HasFolder.erase {p : Path} {place : Place} (hfolder : h.HasFolder w p)
    (hplace : h.files.entry? place ≠ some .folder) :
    { h with files := h.files.erase place }.HasFolder w p := by
  refine hfolder.of_folders rfl fun q hq => (FileTree.entry?_erase_ne ?_).trans hq
  rintro rfl
  exact hplace hq

/-- The value of a setting is written to its file. -/
theorem Host.HasContents.publish (hc : c.Usual w) (hh : h.HasContents c w fails x)
    (hkey : key ∈ Publication.keys) {value : String}
    (hrow : x.settings.valueOf? (.text key) = some (.text value))
    (hplace : h.files.entry? (c.settingPlace w key) ≠ some .folder) :
    { h with
      files := h.files.put (c.settingPlace w key) (.file (Utf8.encode value)) }.HasContents c w
        fails (x.publishedAll [key]) where
  files := by
    refine ⟨hh.files.logs, hh.files.removal, hh.files.storage.put hplace _,
      hh.files.protocol.put hplace _, ?_⟩
    intro k hk
    by_cases hsame : k = key
    · subst hsame
      refine (FileTree.entry?_put_self (c.settingPlace_ne_root w hkey) _).trans ?_
      simp [Contents.publishedAll, Contents.published, hrow]
    · have hne : c.settingPlace w k ≠ c.settingPlace w key :=
        fun h => hsame (c.settingPlace_inj w hkey hk h)
      refine (FileTree.entry?_put_ne hne _).trans ((hh.files.setting k hk).trans ?_)
      simp [Contents.publishedAll, hsame]
  container :=
    (FileTree.entry?_put_ne (c.settingPlace_ne_channelPlace w hkey).symm _).trans hh.container
  tables := by
    rcases hh.tables with ⟨hdir, tables, hold, htables⟩
    have hne : c.storeFile.placeFrom h.workDir ≠ c.settingPlace w key := by
      rw [hdir]
      exact fun hsame => hc.apart (hsame ▸ mem_legacyPlaces hkey)
    exact ⟨hdir, tables, ⟨Host.resolve_put hplace hold.1,
      (FileTree.entry?_put_ne hne _).trans hold.2⟩, htables⟩

/-- The file of the channel map is no file of a setting. -/
theorem keptByMoving_hasFiles (hc : c.Usual w) : KeptByMoving c KeepsSettings fun h =>
    h.HasFiles c w fails files ∧ h.HasSettings c w t where
  toKeptByStore := (keptByStore_hasFiles hc).and (keptByStore_storeHas fun _ _ hR => hR t)
  allows := allows_keepsSettings
  remove := by
    rintro h place b hres hfile ⟨hfiles, hdir, tables, hold, htables⟩
    have hplace : h.files.entry? place ≠ some .folder := by simp [hfile]
    refine ⟨⟨hfiles.logs, hfiles.removal, hfiles.storage.erase hplace,
      hfiles.protocol.erase hplace, ?_⟩, hdir, tables, hold.erase hfile, htables⟩
    intro key hkey
    have hne : c.settingPlace w key ≠ place := by
      rw [FileTree.place_eq_of_resolve hres, hdir]
      exact c.settingPlace_ne_channelPlace w hkey
    exact (FileTree.entry?_erase_ne hne).trans (hfiles.setting key hkey)

/-! ## Opening -/

namespace Node

/-- Opening a node where contents are held makes no folders, and changes none of the contents. -/
theorem keeps_open_contents (hc : c.Usual w) :
    Keeps (Host.HasContents c w fails x) (Node.open c) := by
  refine keeps_open_of_folders (keptByStore_hasContents hc) allowsOpening_keepsTables ?_ ?_ ?_ ?_
  · intro h hh
    rwa [Host.exec_makeAll_of_folderAt hh.files.storage.folderAt]
  · intro h hh
    rwa [Host.exec_makeAll_of_folderAt hh.files.protocol.folderAt]
  · intro h hh
    rwa [Host.exec_makeParent_of_folderAt (hc.storePath ▸ hh.files.storage.folderAt)]
  · intro h hh
    rwa [Host.exec_makeParent_of_folderAt (hc.secretPath ▸ hh.files.storage.folderAt)]

/-- What an opening leaves alone in any case. -/
structure Unmoved (w : Place) (fails : Bool) (h : Host) : Prop where
  workDir : h.workDir = w
  logs : h.logging.Own
  removal : h.removalFails = fails

theorem keptByOpening_unmoved : KeptByOpening c (fun _ _ => True) (Unmoved w fails) where
  emit _ _ hh := ⟨hh.1, hh.2, hh.3⟩
  tables _ _ _ _ _ _ _ _ hh := ⟨hh.1, hh.2, hh.3⟩
  allows := allows_all
  folders _ _ _ hh := ⟨hh.1, hh.2, hh.3⟩

theorem keptByOpening_hasFolder (c : Config) (w : Place) (p : Path) :
    KeptByOpening c (fun _ _ => True) (Host.HasFolder w p) where
  toKeptByStore := keptByStore_hasFolder c _ w p
  allows := allows_all
  folders _ _ hmade hh := hh.of_folders rfl fun _ => hmade.entry?

/-- The store has both tables. -/
def HasTables (tables : Tables) : Prop :=
  tables.settings.isSome ∧ tables.channels.isSome

theorem keptByOpening_hasTables : KeptByOpening c (fun old new => HasTables old → HasTables new)
    (Host.StoreHas c w HasTables) where
  toKeptByStore := keptByStore_storeHas fun _ _ hR => hR
  allows :=
    { same := fun _ h => h
      createMissing := fun _ _ => ⟨rfl, rfl⟩
      createSeeds := fun _ h => h
      channels := fun _ _ h => ⟨h.1, rfl⟩ }
  folders := by
    rintro h files hmade ⟨hdir, tables, hold, hP⟩
    exact ⟨hdir, tables, hold.made hmade, hP⟩

/-- Opening a node makes sure that the host holds contents, whatever was there before. -/
theorem open_contents {h' : Host} {node : Node} (hdir : h.workDir = w) (hlogs : h.logging.Own)
    (hopen : exec (Node.open c) h = (.ok node, h')) :
    ∃ x, h'.HasContents c w h.removalFails x := by
  have hunmoved : KeptByOpening c (fun _ _ => True) (Unmoved w h.removalFails) :=
    keptByOpening_unmoved
  have hstored := hunmoved.and (keptByOpening_hasFolder c w c.storageDir)
  have hboth := hstored.and (keptByOpening_hasFolder c w c.protocolDataDir)
  rcases open_steps hopen with ⟨-, h₁, h₂, h₃, h₄, hstorage, hprotocol, hstore, hsecret, rfl⟩
  -- the folders are there once they have been made
  have hh₁ := (Host.keeps_makeAll hunmoved _).after ⟨hdir, hlogs, rfl⟩ hstorage
  have hfolder₁ := (Host.makeAll_ok hstorage).hasFolder hh₁.workDir
  have hh₂ := (Host.keeps_makeAll hstored _).after ⟨hh₁, hfolder₁⟩ hprotocol
  have hfolder₂ := (Host.makeAll_ok hprotocol).hasFolder hh₂.1.workDir
  have hh₃ := (StoreHandle.keeps_open hboth.toKeptByStore hboth.allows.toAllowsOpening
    (Host.keeps_makeParent hboth _)).after ⟨hh₂, hfolder₂⟩ hstore
  have hh₄ := (SecretHandle.keeps_open hboth.toKeptByStore hboth.allows.toAllowsOpening
    (Host.keeps_makeParent hboth _) _).after hh₃ hsecret
  have hh₅ := hboth.emit h₄ (openingLine c) hh₄
  -- the tables are there once the store was opened
  have htables : KeptByOpening c (fun old new => HasTables old → HasTables new)
    (Host.StoreHas c w HasTables) := keptByOpening_hasTables
  rcases StoreHandle.open_ok hstore with ⟨-, old, hold⟩
  have ht₃ : h₃.StoreHas c w HasTables := ⟨hh₃.1.1.workDir, _, hold, rfl, rfl⟩
  have ht₄ := (SecretHandle.keeps_open htables.toKeptByStore htables.allows.toAllowsOpening
    (Host.keeps_makeParent htables _) _).after ht₃ hsecret
  have ht₅ := htables.emit h₄ (openingLine c) ht₄
  rcases hh₅ with ⟨⟨hunmoved₅, hstorage₅⟩, hprotocol₅⟩
  rcases ht₅ with ⟨-, tables, hholds, hsettings, hchannels⟩
  rcases Option.isSome_iff_exists.1 hsettings with ⟨settings, hsettings⟩
  rcases Option.isSome_iff_exists.1 hchannels with ⟨channels, hchannels⟩
  exact ⟨⟨settings, channels, fun key => (h₄.emit _).files.entry? (c.settingPlace w key),
      (h₄.emit _).files.entry? (c.channelPlace w)⟩,
    ⟨⟨hunmoved₅.logs, hunmoved₅.removal, hstorage₅, hprotocol₅, fun _ _ => rfl⟩, rfl,
      hunmoved₅.workDir, tables, hholds, hsettings, hchannels⟩⟩

end Node

end Kept

end NodeStore
