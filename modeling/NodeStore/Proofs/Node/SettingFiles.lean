import NodeStore.Proofs.Node.Migration
import NodeStore.Proofs.Text.Utf8

/-! # The files and rows of settings

A published setting is in two places: in a row of the store's table, and in a file. Three
properties of hosts say what is in them; each of them stands some of what a node does.

* `SettingFiles`: the files of the published settings hold the given texts. Publishing changes
  them, and nothing else that a node does (`keptByOpening_settingFiles`, `kept_settingFiles`);
* `HasFolder`: a folder is there. It stays;
* `HasSettings`: the table of settings is the given one. Only saves change it
  (`kept_hasSettings`).
-/

namespace NodeStore

open Op

/-! ## Files of settings -/

/-- The place of the file that a setting is published to. -/
def Config.settingPlace (c : Config) (workDir : Place) (key : String) : Place :=
  (c.settingFile key).placeFrom workDir

/-- No database and no log is at the place of a published setting's file. -/
structure Config.Separate (c : Config) (workDir : Place) (logging : Logging) : Prop where
  store : ∀ key ∈ Publication.keys, c.storeFile.placeFrom workDir ≠ c.settingPlace workDir key
  secret : ∀ key ∈ Publication.keys, c.secretPath.placeFrom workDir ≠ c.settingPlace workDir key
  log : ∀ handler ∈ logging.handlers, ∀ key ∈ Publication.keys,
    handler.sink ≠ .file (c.settingPlace workDir key)

theorem plainName_of_published {key : String} (hkey : key ∈ Publication.keys) :
    FileTree.PlainName key := by
  have hall : ∀ key ∈ Publication.keys, FileTree.PlainName key := by decide +kernel
  exact hall key hkey

theorem Config.settingPlace_eq (c : Config) (workDir : Place) {key : String}
    (hkey : key ∈ Publication.keys) :
    c.settingPlace workDir key = c.storageDir.placeFrom workDir ++ [key] :=
  (plainName_of_published hkey).placeFrom c.storageDir workDir

theorem Config.settingPlace_ne_root (c : Config) (workDir : Place) {key : String}
    (hkey : key ∈ Publication.keys) : c.settingPlace workDir key ≠ [] := by
  rw [c.settingPlace_eq workDir hkey]
  simp

/-- The file at a place has the given text; where none is given, no file is there. -/
def FileTree.Shows (t : FileTree) (place : Place) : Option String → Prop
  | some text => t.entry? place = some (.file (Utf8.encode text))
  | none => t.entry? place = none ∨ t.entry? place = some .folder

/-- What is shown depends on what is at the place alone. -/
theorem FileTree.Shows.of_entry {t t' : FileTree} {place : Place} {text : Option String}
    (h : t.Shows place text) (hsame : t'.entry? place = t.entry? place) : t'.Shows place text := by
  cases text with
  | none => exact h.imp hsame.trans hsame.trans
  | some text => exact hsame.trans h

/-- The text that is read from a file, if it is there and holds one. -/
def textAt (e : Option FileEntry) : Option String :=
  (e.bind FileEntry.bytes?).bind fun b => (Utf8.decode b).toOption

theorem textAt_encode (text : String) : textAt (some (.file (Utf8.encode text))) = some text := by
  show (Utf8.decode (Utf8.encode text)).toOption = some text
  rw [Utf8.decode_encode]
  rfl

theorem FileTree.Shows.textAt {t : FileTree} {place : Place} {text : Option String}
    (h : t.Shows place text) : NodeStore.textAt (t.entry? place) = text := by
  cases text with
  | none => rcases h with h | h <;> rw [h] <;> rfl
  | some text => rw [show t.entry? place = _ from h, textAt_encode]

/-- The files of the published settings have the given texts. -/
structure Host.SettingFiles (c : Config) (w : Place) (logging : Logging)
    (texts : String → Option String) (h : Host) : Prop where
  workDir : h.workDir = w
  logging : h.logging = logging
  shows : ∀ key ∈ Publication.keys, h.files.Shows (c.settingPlace w key) (texts key)

section Kept

variable {c : Config} {w : Place} {logging : Logging} {texts : String → Option String}
  {R : Tables → Tables → Prop}

theorem keptByStore_settingFiles (hsep : c.Separate w logging) :
    KeptByStore c R (Host.SettingFiles c w logging texts) where
  emit := by
    intro h l hfiles
    refine ⟨hfiles.workDir, hfiles.logging, ?_⟩
    intro key hkey
    -- a log may be written to any place but that of the file
    refine (hfiles.shows key hkey).of_entry (Host.entry?_emit ?_ l)
    intro handler hhandler
    rw [hfiles.logging] at hhandler
    exact hsep.log handler hhandler key hkey
  tables := by
    intro h p place old new hp hdb _ hfiles
    refine ⟨hfiles.workDir, hfiles.logging, ?_⟩
    intro key hkey
    -- and neither database is at its place
    rcases Host.databaseAt_ok hdb with ⟨hplace, -, -⟩
    refine (hfiles.shows key hkey).of_entry (FileTree.entry?_put_ne (fun heq => ?_) _)
    rw [hplace, hfiles.workDir] at heq
    rcases hp with rfl | rfl
    · exact hsep.store key hkey heq.symm
    · exact hsep.secret key hkey heq.symm

theorem keptByOpening_settingFiles (hR : Allows R) (hsep : c.Separate w logging) :
    KeptByOpening c R (Host.SettingFiles c w logging texts) where
  toKeptByStore := keptByStore_settingFiles hsep
  allows := hR
  folders := by
    intro h files hmade hfiles
    refine ⟨hfiles.workDir, hfiles.logging, ?_⟩
    intro key hkey
    rcases hmade (c.settingPlace w key) with hsame | ⟨hnone, hfolder⟩
    · exact (hfiles.shows key hkey).of_entry hsame
    · have hshows := hfiles.shows key hkey
      cases htext : texts key with
      | none => exact Or.inr hfolder
      | some text =>
        -- no folder is made where a file is
        rw [htext] at hshows
        have hboth := hnone.symm.trans hshows
        simp at hboth

/-- The files of the published settings have some texts. -/
def Host.HasSettingFiles (c : Config) (w : Place) (logging : Logging) (h : Host) : Prop :=
  ∃ texts, h.SettingFiles c w logging texts

theorem allows_all : Allows fun _ _ => True :=
  ⟨⟨fun _ => trivial, fun _ => trivial, fun _ => trivial⟩, fun _ _ => trivial⟩

/-- Publishing gives a file another text. -/
theorem kept_settingFiles (hsep : c.Separate w logging) :
    Kept c (fun _ _ => True) (Host.HasSettingFiles c w logging) where
  emit := by
    rintro h l ⟨texts, hfiles⟩
    exact ⟨texts, (keptByOpening_settingFiles allows_all hsep).emit h l hfiles⟩
  tables := by
    rintro h p place old new hp hdb hR ⟨texts, hfiles⟩
    exact ⟨texts,
      (keptByOpening_settingFiles allows_all hsep).tables h p place old new hp hdb hR hfiles⟩
  allows := allows_all
  folders := by
    rintro h files hmade ⟨texts, hfiles⟩
    exact ⟨texts, (keptByOpening_settingFiles allows_all hsep).folders h files hmade hfiles⟩
  publish := by
    rintro h key text place hkey hres hfolder ⟨texts, hfiles⟩
    obtain rfl := FileTree.place_eq_of_resolve hres
    refine ⟨fun k => if c.settingPlace w k = c.settingPlace w key then some text else texts k,
      hfiles.workDir, hfiles.logging, ?_⟩
    intro k hk
    rw [hfiles.workDir]
    by_cases hsame : c.settingPlace w k = c.settingPlace w key
    · simp only [hsame, if_true]
      exact FileTree.entry?_put_self (c.settingPlace_ne_root w hkey) _
    · simp only [hsame, if_false]
      exact (hfiles.shows k hk).of_entry (FileTree.entry?_put_ne hsame _)
  remove := by
    rintro h place b hres hfile ⟨texts, hfiles⟩
    refine ⟨fun k => if c.settingPlace w k = place then none else texts k,
      hfiles.workDir, hfiles.logging, ?_⟩
    intro k hk
    by_cases hsame : c.settingPlace w k = place
    · simp only [hsame, if_true]
      exact Or.inl (FileTree.entry?_erase_self (FileTree.ne_root_of_entry hfile (by simp)))
    · simp only [hsame, if_false]
      exact (hfiles.shows k hk).of_entry (FileTree.entry?_erase_ne hsame)

end Kept

/-! ## Folders -/

/-- A folder is at the place of a path. -/
structure Host.HasFolder (w : Place) (p : Path) (h : Host) : Prop where
  workDir : h.workDir = w
  resolves : h.files.resolve w p = .ok (p.placeFrom w)
  folder : h.files.entry? (p.placeFrom w) = some .folder

/-- Wherever folders stay folders, a folder is still there. -/
theorem Host.HasFolder.of_folders {w : Place} {p : Path} {h h' : Host} (hfolder : h.HasFolder w p)
    (hdir : h'.workDir = h.workDir)
    (hfolders : ∀ q, h.files.entry? q = some .folder → h'.files.entry? q = some .folder) :
    h'.HasFolder w p :=
  ⟨hdir.trans hfolder.workDir, FileTree.resolve_of_folders hfolders hfolder.resolves,
    hfolders _ hfolder.folder⟩

theorem keptByStore_hasFolder (c : Config) (R : Tables → Tables → Prop) (w : Place) (p : Path) :
    KeptByStore c R (Host.HasFolder w p) where
  emit h l hfolder := hfolder.of_folders rfl (Host.grown_emit h l).folder
  tables _ _ _ _ new _ hdb _ hfolder :=
    hfolder.of_folders rfl fun _ => Host.folder_putTables hdb new

theorem Host.HasFolder.folderAt {w : Place} {p : Path} {h : Host} (hfolder : h.HasFolder w p) :
    h.files.FolderAt h.workDir p := by
  rw [FileTree.FolderAt, hfolder.workDir]
  exact ⟨hfolder.resolves, hfolder.folder⟩

theorem FileTree.FolderAt.hasFolder {w : Place} {p : Path} {h : Host}
    (hfolder : h.files.FolderAt h.workDir p) (hdir : h.workDir = w) : h.HasFolder w p := by
  rw [FileTree.FolderAt, hdir] at hfolder
  exact ⟨hdir, hfolder.1, hfolder.2⟩

/-- Where the storage folder is there, a migration goes to work. -/
theorem Node.exec_run_of_folder {w : Place} {dir protocolDir : Path} {s : NodeState}
    (hfolder : s.host.HasFolder w dir) :
    exec (Migration.run dir protocolDir) s = exec (do
      let r ← Migration.migrateSettings dir Migration.settingKeys {}
      Migration.attempt Migration.channelFile (Migration.migrateChannels protocolDir)
        (fun n => { r with channelIds := n })
        (Migration.MigrationReport.fail r Migration.channelFile)) s := by
  have hfind := FileTree.find?_of_resolve hfolder.folderAt.1
  rw [hfolder.folderAt.2] at hfind
  have hfound : exec (onHost (Host.find? dir)) s = (.ok (some .folder), s) := by
    rw [exec_onHost, Host.exec_find?, hfind]
    rfl
  unfold Migration.run
  rw [exec_bind_of_ok hfound]
  simp only [ne_eq, not_true_eq_false, if_false]

/-! ## Tables of the store -/

/-- The file of the store is a database whose tables have a property. -/
structure Host.StoreHas (c : Config) (w : Place) (P : Tables → Prop) (h : Host) : Prop where
  workDir : h.workDir = w
  holds : ∃ tables, h.Holds c.storeFile tables ∧ P tables

section StoreHas

variable {c : Config} {w : Place} {R : Tables → Tables → Prop} {P Q : Tables → Prop} {h : Host}

theorem Host.StoreHas.imp (hP : h.StoreHas c w P) (hPQ : ∀ tables, P tables → Q tables) :
    h.StoreHas c w Q := by
  rcases hP with ⟨hdir, tables, hold, ht⟩
  exact ⟨hdir, tables, hold, hPQ tables ht⟩

theorem Host.StoreHas.and (hP : h.StoreHas c w P) (hQ : h.StoreHas c w Q) :
    h.StoreHas c w fun tables => P tables ∧ Q tables := by
  rcases hP with ⟨hdir, tables, hold, ht⟩
  rcases hQ with ⟨-, tables', hold', ht'⟩
  obtain rfl : tables = tables' := by
    have hsame := hold.2.symm.trans hold'.2
    simpa using hsame
  exact ⟨hdir, tables, hold, ht, ht'⟩

theorem keptByStore_storeHas (hR : ∀ old new, R old new → P old → P new) :
    KeptByStore c R (Host.StoreHas c w P) := by
  have hfile : KeptByStore c R (Host.FileHas c.storeFile P) := Host.keptByStore_fileHas hR
  constructor
  · intro h l hh
    exact ⟨hh.workDir, hfile.emit h l hh.holds⟩
  · intro h p place old new hp hdb hRt hh
    exact ⟨hh.workDir, hfile.tables h p place old new hp hdb hRt hh.holds⟩

/-- Only changes of the tables matter. -/
theorem kept_storeHas {logging : Logging} (hsep : c.Separate w logging) (hallows : Allows R)
    (hR : ∀ old new, R old new → P old → P new) : Kept c R (Host.StoreHas c w P) where
  toKeptByStore := keptByStore_storeHas hR
  allows := hallows
  folders := by
    rintro h files hmade ⟨hdir, tables, hold, hP⟩
    exact ⟨hdir, tables, hold.made hmade, hP⟩
  publish := by
    rintro h key text place hkey hres hfolder ⟨hdir, tables, hold, hP⟩
    obtain rfl := FileTree.place_eq_of_resolve hres
    have hne : c.storeFile.placeFrom h.workDir ≠ c.settingPlace h.workDir key := by
      rw [hdir]
      exact hsep.store key hkey
    have hentry := (FileTree.entry?_put_ne hne (.file (Utf8.encode text))).trans hold.2
    exact ⟨hdir, tables, ⟨Host.resolve_put hfolder hold.1, hentry⟩, hP⟩
  remove := by
    rintro h place b hres hfile ⟨hdir, tables, hold, hP⟩
    exact ⟨hdir, tables, hold.erase hfile, hP⟩

end StoreHas

/-! ## Rows of settings -/

/-- The value in a setting's row, if the store's file is there and has such a row. -/
def Host.setting (c : Config) (key : String) (h : Host) : Option Cell :=
  match h.databaseAt c.storeFile with
  | .ok (_, tables) => tables.setting key
  | .error _ => none

/-- The file of the store is a database with the given table of settings. -/
abbrev Host.HasSettings (c : Config) (w : Place) (t : Table (Cell × Cell)) : Host → Prop :=
  Host.StoreHas c w fun tables => tables.settings = some t

theorem Host.HasSettings.setting {c : Config} {w : Place} {t : Table (Cell × Cell)} {h : Host}
    (hrows : h.HasSettings c w t) (key : String) : h.setting c key = t.valueOf? (.text key) := by
  rcases hrows.holds with ⟨tables, hold, ht⟩
  have hdb := hold.databaseAt
  unfold Host.setting
  rw [hdb]
  simp only [Tables.setting, ht, Option.bind_some]

/-- A setting has a row only in a database. -/
theorem hasSettings_of_setting {c : Config} {h : Host} {key : String} {value : Cell}
    (hrow : h.setting c key = some value) :
    ∃ t, h.HasSettings c h.workDir t ∧ t.valueOf? (.text key) = some value := by
  unfold Host.setting at hrow
  cases hdb : h.databaseAt c.storeFile with
  | error fault => simp [hdb] at hrow
  | ok found =>
    rcases found with ⟨place, tables⟩
    simp only [hdb, Tables.setting] at hrow
    cases ht : tables.settings with
    | none => simp [ht] at hrow
    | some t =>
      have hne : tables ≠ {} := by
        rintro rfl
        simp at ht
      simp only [ht, Option.bind_some] at hrow
      exact ⟨t, ⟨rfl, tables, Host.holds_of_databaseAt hdb hne, ht⟩, hrow⟩

/-- The table of settings stays as it is. -/
def KeepsSettings (old new : Tables) : Prop :=
  ∀ t, old.settings = some t → new.settings = some t

theorem allows_keepsSettings : Allows KeepsSettings where
  same _ _ h := h
  createMissing tables t h := by simp [Tables.createMissing, h]
  createSeeds _ _ h := h
  channels _ _ _ h := h

/-- Only saves change the table of settings. -/
theorem kept_hasSettings {c : Config} {w : Place} {logging : Logging} {t : Table (Cell × Cell)}
    (hsep : c.Separate w logging) : Kept c KeepsSettings (Host.HasSettings c w t) :=
  kept_storeHas hsep allows_keepsSettings fun _ _ hR => hR t

end NodeStore
