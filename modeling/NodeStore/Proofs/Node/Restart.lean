import NodeStore.Proofs.Node.SettingFiles
import NodeStore.Proofs.Store.Handle

/-! # What a start does to the rows of settings

A start migrates before it publishes. For each published setting whose file is there, migration
saves the text of the file, with line feeds and without blanks around it (`settingText`), over
what the row holds; the other rows stay (`Tables.migrated`). Nothing that follows changes a row.

* `migrateSetting_ok`, `migrateSettings_ok`: the files of the settings, one and all;
* `setting_start`: the rows after a start that succeeded. -/

namespace NodeStore

open Op

/-! ## Migrated rows -/

/-- The value that migration takes from the text of a file. -/
def settingText (text : String) : String :=
  Text.strip (Text.withLineFeeds text)

/-- A table of settings after the migration of one file. -/
def Table.migrated (t : Table (Cell × Cell)) (key : String) : Option String → Table (Cell × Cell)
  | none => t
  | some text => t.upsert (.text key) (.text (settingText text))

/-- A table of settings after the migration of files. -/
def Table.migratedAll (texts : String → Option String) (t : Table (Cell × Cell))
    (keys : List String) : Table (Cell × Cell) :=
  keys.foldl (fun t key => t.migrated key (texts key)) t

/-- The value of a migrated key is that of its file, if there is one. -/
def migratedValue (text : Option String) (value : Option Cell) : Option Cell :=
  (text.map fun text => .text (settingText text)).or value

theorem Table.valueOf_migrated (t : Table (Cell × Cell)) (key k : String) (text : Option String) :
    (t.migrated key text).valueOf? (.text k) =
      if k = key then migratedValue text (t.valueOf? (.text k)) else t.valueOf? (.text k) := by
  cases text with
  | none => simp [migrated, migratedValue]
  | some text =>
    rw [migrated, Table.valueOf_upsert]
    simp [migratedValue]

theorem Table.valueOf_migratedAll (texts : String → Option String) (t : Table (Cell × Cell))
    (keys : List String) (k : String) :
    (t.migratedAll texts keys).valueOf? (.text k) =
      if k ∈ keys then migratedValue (texts k) (t.valueOf? (.text k))
      else t.valueOf? (.text k) := by
  induction keys generalizing t with
  | nil => rfl
  | cons key rest ih =>
    have hstep : t.migratedAll texts (key :: rest) =
        (t.migrated key (texts key)).migratedAll texts rest := rfl
    rw [hstep, ih, Table.valueOf_migrated]
    by_cases hk : k = key
    · subst hk
      -- a file that is migrated twice gives the same value twice
      cases texts k <;> simp [migratedValue]
    · simp [hk]

/-! ## Migration of settings -/

namespace Node

/-- A property of hosts under which settings are migrated: it stands saves of settings, and tells
that the storage folder is there and which texts are read from the files of settings. -/
structure Legible (c : Config) (w : Place) (texts : String → Option String)
    (R : Tables → Tables → Prop) (I : Host → Prop) : Prop extends KeptByStore c R I where
  saves : AllowsSaves R
  storage : ∀ h, I h → h.HasFolder w c.storageDir
  reads : ∀ h, I h → ∀ key ∈ Publication.keys,
    textAt (h.files.entry? (c.settingPlace w key)) = texts key

/-- What is known of settings is what the table has. -/
def Cached (t : Table (Cell × Cell)) (s : NodeState) : Prop :=
  ∀ key known, s.node.store.cache.lookup key = some known → known = t.valueOf? (.text key)

/-- A node with files and a table of settings, and without outages. -/
structure Migrating (c : Config) (w : Place) (I : Host → Prop) (t : Table (Cell × Cell))
    (s : NodeState) : Prop where
  of : Of c I s
  rows : s.host.HasSettings c w t
  outages : s.node.store.outages = {}
  cached : Cached t s

section

variable {c : Config} {w : Place} {logging : Logging} {texts : String → Option String}
  {R : Tables → Tables → Prop} {I : Host → Prop} {t : Table (Cell × Cell)} {s : NodeState}

/-- A store that was just opened knows nothing. -/
theorem cached_of_new (hstore : s.node.store = { path := c.storeFile }) : Cached t s := by
  intro key known hknown
  rw [hstore] at hknown
  exact absurd hknown nofun

theorem Migrating.emit (hI : Legible c w texts R I) (hs : Migrating c w I t s) (l : LogLine) :
    Migrating c w I t { s with host := s.host.emit l } where
  of := ⟨hs.of.config, hs.of.storePath, hs.of.secretPath, hI.emit s.host l hs.of.host⟩
  rows := (keptByStore_storeHas fun _ _ hR => hR t : KeptByStore c KeepsSettings _).emit s.host l
    hs.rows
  outages := hs.outages
  cached := hs.cached

/-- A setting is saved into the table. -/
theorem Migrating.save (hI : Legible c w texts R I) (hs : Migrating c w I t s)
    (key text : String) :
    ∃ s', exec (onStore (Store.saveSetting key (some text))) s = (.ok (), s') ∧
      Migrating c w I (t.upsert (.text key) (.text text)) s' := by
  rcases hs.rows with ⟨hdir, tables, hold, ht⟩
  obtain ⟨u, hsave, hout, htables, hcache⟩ := Store.exec_saveSetting_text key text
    (u := ⟨tables, s.node.store.cache, s.node.store.outages, []⟩) hs.outages ht
  obtain ⟨s', hrun, hof, hdir', hold', hcache', hout'⟩ :=
    exec_onStore hI.toKeptByStore hs.of hold (saveSetting_tables hI.saves key (some text)) hsave
  refine ⟨s', hrun, hof, ⟨hdir'.trans hdir, u.tables, hold', by rw [htables]⟩, ?_, ?_⟩
  · rw [hout', hout, hs.outages]
  · intro k known hknown
    rw [hcache', hcache, ConfigCache.lookup_store] at hknown
    rw [Table.valueOf_upsert]
    by_cases hk : k = key
    · rw [if_pos hk] at hknown
      rw [hk, if_pos rfl]
      exact (Option.some.inj hknown).symm
    · rw [if_neg hk] at hknown
      rw [if_neg (by simpa using hk)]
      exact hs.cached k known hknown

/-- The path of a setting's file leads to its place. -/
theorem resolve_settingFile {h : Host} (hfolder : h.HasFolder w c.storageDir) {key : String}
    (hkey : key ∈ Publication.keys) :
    h.files.resolve h.workDir (c.storageDir / key) = .ok (c.settingPlace w key) := by
  rw [hfolder.workDir, c.settingPlace_eq w hkey]
  exact (plainName_of_published hkey).resolve hfolder.resolves hfolder.folder

/-- The text of a setting's file is saved. Where no text is read the setting is left as it is, and
at most a failure is noted. -/
theorem exec_migrateSetting (hI : Legible c w texts R I) (hs : Migrating c w I t s) {key : String}
    (hkey : key ∈ Publication.keys) :
    ∃ r s', exec (Migration.migrateSetting c.storageDir key) s = (r, s') ∧
      Migrating c w I (t.migrated key (texts key)) s' ∧ ∀ e, r = .error e → e.isStore = true := by
  have hreads := hI.reads s.host hs.of.host key hkey
  rcases exec_isFound (FileTree.find?_of_resolve
    (resolve_settingFile (hI.storage s.host hs.of.host) hkey)) key with ⟨l, hfound⟩
  unfold Migration.migrateSetting
  rw [exec_bind_of_ok hfound]
  have hs₁ := hs.emit hI l
  cases he : s.host.files.entry? (c.settingPlace w key) with
  | none =>
    rw [he] at hreads
    obtain htext : texts key = none := hreads.symm
    rw [htext]
    exact ⟨.ok false, _, rfl, hs₁, by simp⟩
  | some e =>
    -- something was found; what is read of it tells the text
    have hreads₁ := hI.reads _ hs₁.of.host key hkey
    rw [textAt, ← FileTree.read_toOption
      (resolve_settingFile (hI.storage _ hs₁.of.host) hkey)] at hreads₁
    have hread := exec_readFile (c.storageDir / key) { s with host := s.host.emit l }
    simp only [Option.isSome_some, if_true]
    cases hbytes : (s.host.emit l).files.read (s.host.emit l).workDir (c.storageDir / key) with
    | error fault =>
      rw [hbytes] at hread hreads₁
      obtain htext : texts key = none := hreads₁.symm
      rw [exec_bind_of_error hread, htext]
      refine ⟨_, _, rfl, hs₁, ?_⟩
      rintro e he
      obtain rfl := Except.error.inj he
      rfl
    | ok b =>
      rw [hbytes] at hread hreads₁
      rw [exec_bind_of_ok hread]
      unfold Migration.settingOfBytes
      cases hdecode : Utf8.decode b with
      | error fault =>
        simp only [Except.toOption, Option.bind_some, hdecode] at hreads₁
        rw [← hreads₁]
        refine ⟨_, _, rfl, hs₁, ?_⟩
        rintro e he
        obtain rfl := Except.error.inj he
        rfl
      | ok text =>
        simp only [Except.toOption, Option.bind_some, hdecode] at hreads₁
        rcases hs₁.save hI key (settingText text) with ⟨s₂, hsave, hs₂⟩
        rw [← hreads₁]
        have hsaved := exec_bind_of_ok (f := fun _ => do
          say LogLevel.info Migration.subsystem
            s!"Successfully migrated {key} from file to database"
          return true) hsave
        exact ⟨_, _, hsaved, hs₂.emit hI _, by simp⟩

/-- Whatever comes of the migration of a setting's file, it is noted. -/
theorem migrateSetting_ok {β : Type} (hI : Legible c w texts R I) (hs : Migrating c w I t s)
    {key : String} (hkey : key ∈ Publication.keys) (done : Bool → β) (failed : Failure → β) :
    ∃ b s', exec (Migration.attempt key (Migration.migrateSetting c.storageDir key) done failed) s =
        (.ok b, s') ∧ Migrating c w I (t.migrated key (texts key)) s' := by
  rcases exec_migrateSetting hI hs hkey with ⟨r, s₁, hrun, hs₁, hstore⟩
  rcases exec_attempt hrun hstore key done failed with ⟨a, -, hdone⟩ | ⟨e, l, -, hdone⟩
  · exact ⟨done a, s₁, hdone, hs₁⟩
  · exact ⟨failed e, _, hdone, hs₁.emit hI l⟩

/-- All texts of settings are saved. -/
theorem migrateSettings_ok (hI : Legible c w texts R I) {keys : List String}
    (hkeys : ∀ key ∈ keys, key ∈ Publication.keys) (hs : Migrating c w I t s)
    (r : MigrationReport) :
    ∃ r' s', exec (Migration.migrateSettings c.storageDir keys r) s = (.ok r', s') ∧
      Migrating c w I (t.migratedAll texts keys) s' := by
  induction keys generalizing t s r with
  | nil => exact ⟨r, s, rfl, hs⟩
  | cons key rest ih =>
    obtain ⟨r₁, s₁, hrun, hs₁⟩ := migrateSetting_ok hI hs (hkeys key List.mem_cons_self)
      (Migration.MigrationReport.note r key) (Migration.MigrationReport.fail r key)
    obtain ⟨r₂, s₂, hrest, hs₂⟩ :=
      ih (fun k hk => hkeys k (List.mem_cons_of_mem key hk)) hs₁ r₁
    refine ⟨r₂, s₂, ?_, hs₂⟩
    unfold Migration.migrateSettings
    rw [exec_bind_of_ok hrun, hrest]

/-! ## Starts -/

theorem legible_settingFiles (texts : String → Option String) (hsep : c.Separate w logging) :
    Legible c w texts (fun _ _ => True)
      fun h => h.SettingFiles c w logging texts ∧ h.HasFolder w c.storageDir where
  toKeptByStore := (keptByStore_settingFiles hsep).and (keptByStore_hasFolder c _ w c.storageDir)
  saves := allowsSaves_all
  storage _ hh := hh.2
  reads _ hh key hkey := (hh.1.shows key hkey).textAt

/-- A migration that succeeds has found the storage folder, and has saved all files of settings. -/
theorem run_ok (hsep : c.Separate w logging) (hconfig : Of c (Host.HasSettings c w t) s)
    (hfiles : s.host.SettingFiles c w logging texts)
    (hstore : s.node.store = { path := c.storeFile })
    {r : MigrationReport} {s' : NodeState}
    (hrun : exec (Migration.run c.storageDir c.protocolDataDir) s = (.ok r, s')) :
    Of c (Host.HasSettings c w (t.migratedAll texts Publication.keys)) s' := by
  have hfind : exec (onHost (Host.find? c.storageDir)) s =
      ((s.host.files.find? s.host.workDir c.storageDir).mapError Failure.file, s) := by
    rw [exec_onHost, Host.exec_find?]
  unfold Migration.run at hrun
  rcases exec_bind_ok.1 hrun with ⟨found, s₁, hfound, hrun⟩
  rw [hfind] at hfound
  simp only [Prod.mk.injEq] at hfound
  rcases hfound with ⟨hfound, rfl⟩
  -- anything but a folder is refused
  have hfolder : found = some .folder := by
    apply Decidable.byContradiction
    intro hne
    simp only [ne_eq, hne, not_false_eq_true, if_true] at hrun
    rcases exec_bind_ok.1 hrun with ⟨_, _, hthrow, -⟩
    simp at hthrow
  subst hfolder
  simp only [ne_eq, not_true_eq_false, if_false] at hrun
  have hstorage : s.host.HasFolder w c.storageDir := by
    cases hfind' : s.host.files.find? s.host.workDir c.storageDir with
    | error fault => simp [hfind'] at hfound
    | ok e =>
      simp only [hfind', mapError_ok, Except.ok.injEq] at hfound
      subst hfound
      rcases FileTree.of_find? hfind' with ⟨place, hres, he⟩
      obtain rfl := FileTree.place_eq_of_resolve hres
      rw [hfiles.workDir] at hres he
      exact ⟨hfiles.workDir, hres, he⟩
  have hs : Migrating c w (fun h => h.SettingFiles c w logging texts ∧ h.HasFolder w c.storageDir)
      t s :=
    ⟨⟨hconfig.1, hconfig.2, hconfig.3, hfiles, hstorage⟩, hconfig.host, by rw [hstore],
      cached_of_new hstore⟩
  rcases migrateSettings_ok (legible_settingFiles texts hsep) (fun _ hk => hk) hs {} with
    ⟨r₁, s₂, hsettings, hs₂⟩
  rw [show Migration.settingKeys = Publication.keys from rfl, exec_bind_of_ok hsettings] at hrun
  -- the channel map is migrated after the settings, and their table stays
  have hrest := keeps_restOfRun (kept_hasSettings hsep).moving r₁ s₂
    ⟨hs₂.of.config, hs₂.of.storePath, hs₂.of.secretPath, hs₂.rows⟩
  rwa [hrun] at hrest

/-- A start that succeeds leaves the migrated table of settings. -/
theorem start_migrated (hsep : c.Separate w logging) {h h' : Host} {node : Node}
    (hfiles : h.SettingFiles c w logging texts) (hrows : h.HasSettings c w t)
    (hstart : exec (Node.start c) h = (.ok node, h')) :
    h'.HasSettings c w (t.migratedAll texts Publication.keys) := by
  rcases start_ok hstart with ⟨opened, h₁, r, s₁, r', hopen, hmigrate, hsync⟩
  have hfiles₁ := (keeps_open (keptByOpening_settingFiles allows_all hsep)).after hfiles hopen
  have hrows₁ := (keeps_open (kept_hasSettings hsep).toKeptByOpening).after hrows hopen
  rcases open_ok hopen with ⟨hconfig, hstore, hsecret, hfirst⟩
  have hopened : Of c (Host.HasSettings c w t) ⟨opened, h₁⟩ :=
    ⟨hconfig, by rw [hstore], hsecret, hrows₁⟩
  rcases migrate_first hfirst hmigrate with ⟨s₂, hrun, hkept⟩
  rw [hconfig] at hrun
  have hs₂ := run_ok hsep hopened hfiles₁ hstore hrun
  have hs₁ := hkept _ (keeps_say (kept_hasSettings hsep).emit)
    (fun _ _ _ hs => ⟨hs.1, hs.2, hs.3, hs.4⟩) hs₂
  -- publication follows migration, and changes no row
  exact ((keeps_sync (kept_hasSettings hsep)).after hs₁ hsync).host

/-- The row of a published setting after a start that succeeded: the value of its file, if there
is one, and what it was otherwise. -/
theorem setting_start (hsep : c.Separate w logging) {h h' : Host} {node : Node}
    (hfiles : h.SettingFiles c w logging texts) (hstart : exec (Node.start c) h = (.ok node, h'))
    {key : String} (hkey : key ∈ Publication.keys) {value : Cell}
    (hrow : h.setting c key = some value) :
    h'.setting c key = migratedValue (texts key) (some value) := by
  rcases hasSettings_of_setting hrow with ⟨t, hrows, hvalue⟩
  rw [hfiles.workDir] at hrows
  rw [(start_migrated hsep hfiles hrows hstart).setting key, Table.valueOf_migratedAll, if_pos hkey,
    hvalue]

end

end Node

end NodeStore
