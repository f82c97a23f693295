import NodeStore.Proofs.Alike
import NodeStore.Proofs.Node.Holdings
import NodeStore.Proofs.Store.Twins

/-! # Hosts that serve a node

What an open node needs of its host: its folders are there, the file of its relational store is a
database with all tables, and the file of its secret store is one with a table of seeds
(`Host.Serves`). Whatever the node does leaves it so, and a node that was just opened has it.

* `keptByStore_serves`: logging, and writing to the databases;
* `Serves.erase`: removing the file of a backup;
* `serves_of_open`: opening. -/

namespace NodeStore

open Op

/-! ## Folders -/

namespace FileTree

/-- Folders stay, and nothing goes. -/
structure Stays (t t' : FileTree) : Prop where
  folder : ∀ q, t.entry? q = some .folder → t'.entry? q = some .folder
  entry : ∀ q, t.entry? q ≠ none → t'.entry? q ≠ none

variable {t t' : FileTree} {workDir place : Place} {p : Path}

theorem Stays.refl (t : FileTree) : Stays t t := ⟨fun _ h => h, fun _ h => h⟩

theorem Stays.trans {t'' : FileTree} (h : Stays t t') (h' : Stays t' t'') : Stays t t'' :=
  ⟨fun q hq => h'.folder q (h.folder q hq), fun q hq => h'.entry q (h.entry q hq)⟩

theorem Grown.stays (h : Grown t t') : Stays t t' where
  folder := h.folder
  entry := by
    intro q hq
    cases he : t.entry? q with
    | none => exact absurd he hq
    | some e =>
      cases e with
      | folder => simp [h.folder q he]
      | database d => simp [h.database q d he]
      | file b =>
        rcases h.file q b he with ⟨c, hc⟩
        simp [hc]

theorem MadeFolders.stays (h : MadeFolders t t') : Stays t t' where
  folder _ hq := h.entry? hq
  entry := by
    intro q hq
    rcases Option.ne_none_iff_exists'.1 hq with ⟨e, he⟩
    simp [h.entry? he]

theorem stays_put (hplace : t.entry? place ≠ some .folder) (hroot : place ≠ []) (e : FileEntry) :
    Stays t (t.put place e) where
  folder := by
    intro q hq
    rw [entry?_put_ne ?_, hq]
    rintro rfl
    exact hplace hq
  entry := by
    intro q hq
    by_cases hsame : q = place
    · rw [hsame, entry?_put_self hroot]
      simp
    · rwa [entry?_put_ne hsame]

theorem FolderAt.of_folders (h : t.FolderAt workDir p)
    (hfolders : ∀ q, t.entry? q = some .folder → t'.entry? q = some .folder) :
    t'.FolderAt workDir p :=
  ⟨resolve_of_folders hfolders h.1, hfolders _ h.2⟩

/-- Something is at the place of a path. -/
def Occupied (t : FileTree) (workDir : Place) (p : Path) : Prop :=
  ∃ place, t.resolve workDir p = .ok place ∧ t.entry? place ≠ none

theorem Occupied.stays (h : t.Occupied workDir p) (hs : Stays t t') : t'.Occupied workDir p := by
  rcases h with ⟨place, hres, he⟩
  exact ⟨place, resolve_of_folders hs.folder hres, hs.entry place he⟩

theorem FolderAt.occupied (h : t.FolderAt workDir p) : t.Occupied workDir p :=
  ⟨_, h.1, by simp [h.2]⟩

end FileTree

namespace Host

variable {c : Config} {restores : Bool} {cache : ConfigCache Cell} {h h' : Host} {p : Path}
  {place : Place} {tables new : Tables} {R : Tables → Tables → Prop} {P : Tables → Prop}

/-- Nothing has gone on the host, and it is the same machine. -/
structure Stays (h h' : Host) : Prop where
  workDir : h'.workDir = h.workDir
  logging : h'.logging = h.logging
  files : h.files.Stays h'.files

theorem Stays.refl (h : Host) : h.Stays h := ⟨rfl, rfl, .refl _⟩

theorem Stays.trans {h'' : Host} (hs : h.Stays h') (hs' : h'.Stays h'') : h.Stays h'' :=
  ⟨hs'.workDir.trans hs.workDir, hs'.logging.trans hs.logging, hs.files.trans hs'.files⟩

theorem Stays.folderAt (hs : h.Stays h') (hfolder : h.files.FolderAt h.workDir p) :
    h'.files.FolderAt h'.workDir p := by
  rw [hs.workDir]
  exact hfolder.of_folders hs.files.folder

theorem Stays.occupied (hs : h.Stays h') (hoccupied : h.files.Occupied h.workDir p) :
    h'.files.Occupied h'.workDir p := by
  rw [hs.workDir]
  exact hoccupied.stays hs.files

theorem stays_emit (h : Host) (l : LogLine) : h.Stays (h.emit l) :=
  ⟨rfl, rfl, (grown_emit h l).stays⟩

theorem stays_putTables (hdb : h.databaseAt p = .ok (place, tables)) (new : Tables) :
    h.Stays (h.putTables place new) := by
  have hfolder := databaseAt_ne_folder hdb
  refine ⟨rfl, rfl, FileTree.stays_put hfolder ?_ _⟩
  rintro rfl
  exact hfolder (FileTree.entry?_root _)

/-- Opening a node makes nothing go. -/
theorem keptByOpening_stays (start : Host) :
    KeptByOpening c (fun _ _ => True) (Stays start) where
  emit h l hh := hh.trans (stays_emit h l)
  tables _ _ _ _ new _ hdb _ hh := hh.trans (stays_putTables hdb new)
  allows := allows_all
  folders _ _ hmade hh := ⟨hh.workDir, hh.logging, hh.files.trans hmade.stays⟩

/-- The folders of a node are there, and something is at the folder of its store's file. If backups
are restored, which are files that are read and removed, then log files are others than these, and
the folder of the store's file is no such file. -/
structure Footing (c : Config) (restores : Bool) (h : Host) : Prop where
  logs : restores = true → h.logging.Own
  storage : h.files.FolderAt h.workDir c.storageDir
  protocol : h.files.FolderAt h.workDir c.protocolDataDir
  parent : restores = false ∧ h.files.Occupied h.workDir c.storePath.parent ∨
    c.storeFile = c.storePath ∨ h.files.FolderAt h.workDir c.storePath.parent

theorem Footing.stays (hf : h.Footing c restores) (hs : h.Stays h') : h'.Footing c restores := by
  refine ⟨?_, hs.folderAt hf.storage, hs.folderAt hf.protocol, ?_⟩
  · rw [hs.logging]
    exact hf.logs
  · rcases hf.parent with ⟨hrestores, hparent⟩ | hplain | hfolder
    · exact Or.inl ⟨hrestores, hs.occupied hparent⟩
    · exact Or.inr (Or.inl hplain)
    · exact Or.inr (Or.inr (hs.folderAt hfolder))

theorem keptByStore_footing : KeptByStore c R (Footing c restores) where
  emit h l hf := hf.stays (stays_emit h l)
  tables _ _ _ _ new _ hdb _ hf := hf.stays (stays_putTables hdb new)

/-- All tables are there, and what is known of settings is what they hold. -/
def Known (cache : ConfigCache Cell) (t : Tables) : Prop :=
  t.Complete ∧ ∀ key known, cache.lookup key = some known → known = t.setting key

/-- Nothing is known at first. -/
theorem Known.ofNothing {t : Tables} (hcomplete : t.Complete) : Known {} t :=
  ⟨hcomplete, nofun⟩

/-- The host has all that an open node needs which knows some settings. -/
structure Serves (c : Config) (restores : Bool) (cache : ConfigCache Cell) (h : Host) : Prop where
  footing : h.Footing c restores
  store : h.FileHas c.storeFile (Known cache)
  seeds : h.FileHas c.secretPath fun t => t.seeds ≠ none

/-- Only the table of seeds is changed, which is there. -/
def SeedsChanged (old new : Tables) : Prop :=
  new.seeds ≠ none ∧ new = { old with seeds := new.seeds }

theorem Known.seedsChanged (hknown : Known cache tables) (hR : SeedsChanged tables new) :
    Known cache new := by
  rcases hR with ⟨hseeds, hnew⟩
  rw [hnew]
  exact ⟨⟨hseeds, hknown.1.peers, hknown.1.settings, hknown.1.channels, hknown.1.revoked⟩, hknown.2⟩

theorem keptByStore_serves : KeptByStore c SeedsChanged (Serves c restores cache) := by
  have hstore : KeptByStore c SeedsChanged (FileHas c.storeFile (Known cache)) :=
    keptByStore_fileHas fun _ _ hR hknown => hknown.seedsChanged hR
  have hseeds : KeptByStore c SeedsChanged (FileHas c.secretPath fun t => t.seeds ≠ none) :=
    keptByStore_fileHas fun _ _ hR _ => hR.1
  have hfooting : KeptByStore c SeedsChanged (Footing c restores) := keptByStore_footing
  have hall := hfooting.and (hstore.and hseeds)
  constructor
  · intro h l hh
    rcases hall.emit h l ⟨hh.footing, hh.store, hh.seeds⟩ with ⟨hfooting, hstore, hseeds⟩
    exact ⟨hfooting, hstore, hseeds⟩
  · intro h p place old new hp hdb hR hh
    rcases hall.tables h p place old new hp hdb hR ⟨hh.footing, hh.store, hh.seeds⟩ with
      ⟨hfooting, hstore, hseeds⟩
    exact ⟨hfooting, hstore, hseeds⟩

/-- The file of a backup may go, which is no folder and no database. -/
theorem Serves.erase (hh : h.Serves c true cache) {b : Bytes}
    (hfile : h.files.entry? place = some (.file b)) :
    { h with files := h.files.erase place }.Serves c true cache := by
  have hfolders : ∀ q, h.files.entry? q = some .folder →
      FileTree.entry? (h.files.erase place) q = some .folder := by
    intro q hq
    rw [FileTree.entry?_erase_ne ?_, hq]
    rintro rfl
    rw [hfile] at hq
    simp at hq
  rcases hh.store with ⟨tables, hold, hknown⟩
  rcases hh.seeds with ⟨secret, hold', hseeds⟩
  refine ⟨⟨hh.footing.logs, hh.footing.storage.of_folders hfolders,
    hh.footing.protocol.of_folders hfolders, ?_⟩, ⟨tables, hold.erase hfile, hknown⟩,
    ⟨secret, hold'.erase hfile, hseeds⟩⟩
  rcases hh.footing.parent with ⟨hfalse, -⟩ | hplain | hfolder
  · simp at hfalse
  · exact Or.inr (Or.inl hplain)
  · exact Or.inr (Or.inr (hfolder.of_folders hfolders))

/-! ## Opening -/

theorem exec_makeParent_of_occupied (hparent : h.files.Occupied h.workDir p.parent) :
    exec (makeParent p) h = (.ok (), h) := by
  rcases hparent with ⟨place, hres, he⟩
  rcases Option.ne_none_iff_exists'.1 he with ⟨e, he⟩
  unfold makeParent
  rw [exec_bind, exec_find?, FileTree.find?_of_resolve hres, he]
  rfl

/-- Where the folder of a file was made, something is there. -/
theorem makeParent_ok (hrun : exec (makeParent p) h = (.ok (), h')) :
    h'.files.Occupied h'.workDir p.parent := by
  unfold makeParent at hrun
  rcases exec_bind_ok.1 hrun with ⟨found, h₁, hfind, hrun⟩
  rw [exec_find?, Prod.mk.injEq] at hfind
  rcases hfind with ⟨hfound, rfl⟩
  cases found with
  | none =>
    simp only [Option.isNone_none, if_true] at hrun
    exact (makeAll_ok hrun).occupied
  | some e =>
    simp only [Option.isNone_some, Bool.false_eq_true, if_false, exec_pure, Prod.mk.injEq,
      true_and] at hrun
    subst hrun
    cases hfind : h.files.find? h.workDir p.parent with
    | error fault => simp [hfind] at hfound
    | ok e' =>
      rw [hfind, mapError_ok, Except.ok.injEq] at hfound
      subst hfound
      rcases FileTree.of_find? hfind with ⟨place, hres, he⟩
      exact ⟨place, hres, by simp [he]⟩

/-- On a host that serves a node nothing is made for the file of its store. -/
theorem Serves.exec_makeParent (hh : h.Serves c restores cache) :
    exec (makeParent c.storePath) h = (.ok (), h) := by
  rcases hh.footing.parent with ⟨-, hparent⟩ | hplain | hfolder
  · exact exec_makeParent_of_occupied hparent
  · rcases hh.store with ⟨tables, hold, -⟩
    rw [hplain] at hold
    exact exec_makeParent_of_holds hold
  · exact exec_makeParent_of_folderAt hfolder

theorem keptByOpening_complete : KeptByOpening c (fun old new => old.Complete → new.Complete)
    (FileHas c.storeFile Tables.Complete) where
  toKeptByStore := keptByStore_fileHas fun _ _ hR => hR
  allows :=
    { same := fun _ h => h
      createMissing := fun t _ => Tables.complete_createMissing t
      createSeeds := fun t h => ⟨nofun, h.peers, h.settings, h.channels, h.revoked⟩
      channels := fun _ _ h => ⟨h.seeds, h.peers, h.settings, nofun, h.revoked⟩ }
  folders := by
    rintro h files hmade ⟨tables, hold, hcomplete⟩
    exact ⟨tables, hold.made hmade, hcomplete⟩

/-- Where a store was opened, something is at the folder of its file. -/
theorem store_open_occupied {store : StoreHandle}
    (hopen : exec (StoreHandle.open c.storePath) h = (.ok store, h')) :
    h'.files.Occupied h'.workDir c.storePath.parent := by
  unfold StoreHandle.open at hopen
  rcases exec_bind_ok.1 hopen with ⟨_, h₁, -, hopen⟩
  rcases exec_bind_ok.1 hopen with ⟨_, h₂, hparent, hopen⟩
  have hoccupied := makeParent_ok hparent
  rw [exec_get_bind] at hopen
  cases hdb : h₂.databaseAt (StoreHandle.fileOf c.storePath) with
  | error fault => simp [hdb] at hopen
  | ok found =>
    rcases found with ⟨place, tables⟩
    simp only [hdb, exec_modify_bind] at hopen
    rcases exec_bind_ok.1 hopen with ⟨_, h₃, hsay, hopen⟩
    obtain rfl : _ = h₃ := congrArg Prod.snd hsay
    obtain rfl : _ = h' := congrArg Prod.snd hopen
    exact ((stays_putTables hdb _).trans (stays_emit _ _)).occupied hoccupied

/-- A node that was opened is served by its host. -/
theorem serves_of_open {node : Node} (hopen : exec (Node.open c) h = (.ok node, h'))
    (hbackups : restores = true → h.logging.Own ∧
      (c.storeFile = c.storePath ∨ h'.files.FolderAt h'.workDir c.storePath.parent)) :
    h'.Serves c restores {} := by
  have hstays : ∀ start, KeptByOpening c (fun _ _ => True) (Stays start) := keptByOpening_stays
  rcases Node.open_steps hopen with
    ⟨-, h₁, h₂, h₃, h₄, hstorage, hprotocol, hstore, hsecret, rfl⟩
  have hs₁ := (keeps_makeAll (hstays h) _).after (.refl h) hstorage
  have hs₂ := (keeps_makeAll (hstays h₁) _).after (.refl h₁) hprotocol
  have hs₃ := (StoreHandle.keeps_open (hstays h₂).toKeptByStore
    (hstays h₂).allows.toAllowsOpening (keeps_makeParent (hstays h₂) _)).after (.refl h₂) hstore
  have hs₄ := (SecretHandle.keeps_open (hstays h₃).toKeptByStore
    (hstays h₃).allows.toAllowsOpening (keeps_makeParent (hstays h₃) _) _).after (.refl h₃) hsecret
  -- the tables of the store stay when the secret store is opened
  rcases StoreHandle.open_ok hstore with ⟨-, old, hold⟩
  have hcomplete : KeptByOpening c _ _ := keptByOpening_complete
  have ht₃ : h₃.FileHas c.storeFile Tables.Complete :=
    ⟨_, hold, Tables.complete_createMissing old⟩
  have ht₄ := (SecretHandle.keeps_open hcomplete.toKeptByStore hcomplete.allows.toAllowsOpening
    (keeps_makeParent hcomplete _) _).after ht₃ hsecret
  rcases ht₄ with ⟨tables, hold₄, hall⟩
  rcases SecretHandle.open_ok hsecret with ⟨-, secretOld, hsecretHold⟩
  have hs₅ := hs₄.trans (stays_emit h₄ (Node.openingLine c))
  refine ⟨⟨?_, ?_, ?_, ?_⟩, ⟨tables, hold₄.emit _, .ofNothing hall⟩,
    ⟨_, hsecretHold.emit _, nofun⟩⟩
  · rw [(hs₁.trans (hs₂.trans (hs₃.trans hs₅))).logging]
    exact fun hrestores => (hbackups hrestores).1
  · exact (hs₂.trans (hs₃.trans hs₅)).folderAt (makeAll_ok hstorage)
  · exact (hs₃.trans hs₅).folderAt (makeAll_ok hprotocol)
  · cases restores with
    | false => exact Or.inl ⟨rfl, hs₅.occupied (store_open_occupied hstore)⟩
    | true => exact Or.inr (hbackups rfl).2

end Host

end NodeStore
