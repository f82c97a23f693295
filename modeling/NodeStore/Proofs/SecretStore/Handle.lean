import NodeStore.Proofs.Host
import NodeStore.Proofs.SecretStore.Phrase
import NodeStore.SecretStore.Handle

/-! # Operations on an open secret store

While the file of a handle is a database, an operation runs on its table of seeds and leaves a
database with the table that the operation left:

* `exec_run`: an operation of the store;
* `exec_open_new`, `exec_open_eq`: opening a file for the first time, and again;
* `exec_restore`: moving a backup's phrase into the store.
-/

namespace NodeStore

open Op

namespace SecretHandle

variable {s : SecretHandle} {h : Host} {tables : Tables} {t : Table Cell}

/-! ## Running operations -/

/-- An operation runs, what it left of the table is written back, and what it logged is logged. -/
theorem exec_run_eq {α : Type} (s : SecretHandle) (op : SecretStore → SecretM α) (h : Host) :
    exec (s.run op) h =
      ((exec (op (s.store h)) (s.start h)).1,
        (s.writeBack (exec (op (s.store h)) (s.start h)).2.seeds
          { h with entropy := (exec (op (s.store h)) (s.start h)).2.entropy }).emitAll
          (exec (op (s.store h)) (s.start h)).2.log) := rfl

/-- An operation runs on the table of seeds. Besides the database it only adds to files. -/
theorem exec_run {α : Type} (hopen : s.closed = false) (hold : h.Holds s.path tables)
    (op : SecretStore → SecretM α) :
    ∃ h', exec (s.run op) h =
        ((exec (op (s.store h)) { seeds := tables.seeds, entropy := h.entropy }).1, h') ∧
      h'.Holds s.path { tables with
        seeds := (exec (op (s.store h)) { seeds := tables.seeds, entropy := h.entropy }).2.seeds } ∧
      h'.workDir = h.workDir ∧ h'.cipher = h.cipher ∧
      ∀ q b, h.files.entry? q = some (.file b) →
        ∃ c, h'.files.entry? q = some (.file (b ++ c)) := by
  have hstart : s.start h = { seeds := tables.seeds, entropy := h.entropy } := by
    simp only [start, hopen, Bool.false_eq_true, if_false, hold.databaseAt]
  rw [exec_run_eq, hstart]
  generalize exec (op (s.store h)) { seeds := tables.seeds, entropy := h.entropy } = result
  rcases result with ⟨r, u⟩
  have hold' : { h with entropy := u.entropy }.Holds s.path tables := hold
  refine ⟨_, rfl, ?_⟩
  simp only [writeBack, hopen, Bool.false_eq_true, if_false, hold'.databaseAt]
  -- the file is written only if the operation has changed the table
  by_cases hsame : u.seeds = tables.seeds
  · rw [if_pos hsame, hsame]
    rcases Host.emitAll_eq { h with entropy := u.entropy } u.log with ⟨files, log, heq, hgrown⟩
    refine ⟨hold'.emitAll u.log, ?_, ?_, ?_⟩
    · rw [heq]
    · rw [heq]
    · rw [heq]
      exact hgrown.file
  · rw [if_neg hsame]
    have hput := Host.holds_putTables hold'.databaseAt { tables with seeds := u.seeds }
    obtain ⟨files, log, heq, hgrown⟩ := Host.emitAll_eq
      (Host.putTables { h with entropy := u.entropy } (s.path.placeFrom h.workDir)
        { tables with seeds := u.seeds }) u.log
    refine ⟨hput.emitAll u.log, ?_, ?_, ?_⟩
    · rw [heq]
      rfl
    · rw [heq]
      rfl
    · intro q b hq
      rw [heq]
      apply hgrown.file q b
      -- the database is at another place than any file
      refine (FileTree.entry?_put_ne ?_ _).trans hq
      rintro rfl
      have hboth := hold.2.symm.trans hq
      simp at hboth

/-- A file stays while an operation runs and a line is logged, and can be found by its path. -/
theorem file_of_run {α : Type} (hopen : s.closed = false) (hold : h.Holds s.path tables)
    {op : SecretStore → SecretM α} {r : Except Failure α} {h' : Host}
    (hrun : exec (s.run op) h = (r, h')) {path : Path} {place place' : Place} {b : Bytes}
    (hres : h.files.resolve h.workDir path = .ok place)
    (hfile : h.files.entry? place = some (.file b)) (l : LogLine)
    (hres' : (h'.emit l).files.resolve (h'.emit l).workDir path = .ok place') :
    ∃ b', (h'.emit l).files.entry? place' = some (.file b') := by
  obtain ⟨h₁, hrun₁, -, hdir, -, hfiles⟩ := exec_run hopen hold op
  obtain rfl : h' = h₁ := congrArg Prod.snd (hrun.symm.trans hrun₁)
  have hplace : place' = place := by
    rw [FileTree.place_eq_of_resolve hres', FileTree.place_eq_of_resolve hres]
    exact congrArg (fun dir => Path.placeFrom dir path) hdir
  rw [hplace]
  rcases hfiles place b hfile with ⟨c, hfile₁⟩
  rcases (Host.grown_emit h' l).file place _ hfile₁ with ⟨c', hfile₂⟩
  exact ⟨_, hfile₂⟩

/-! ## Opening -/

/-- Where there is no file a database with an empty table of seeds is made. -/
theorem exec_open_new {path : Path} {iterations : Int} {h' : Host}
    (hnew : h.files.entry? (path.placeFrom h.workDir) = none)
    (hopen : exec («open» path iterations) h = (.ok s, h')) :
    s = { path, iterations } ∧ h'.Holds path (Tables.createSeeds {}) ∧ h'.cipher = h.cipher := by
  unfold «open» at hopen
  rcases exec_bind_ok.1 hopen with ⟨u, h₁, hparent, hopen⟩
  rcases Host.exec_makeParent path h with ⟨files, hmade, hsnd⟩
  rw [hparent] at hsnd
  subst hsnd
  rw [exec_get_bind] at hopen
  cases hdb : Host.databaseAt { h with files } path with
  | error fault => cases fault <;> simp [hdb] at hopen
  | ok found =>
    rcases found with ⟨place, tables⟩
    have htables : tables = {} := by
      rcases Host.databaseAt_ok hdb with ⟨hplace, -, he⟩
      rcases he with he | ⟨hempty, -⟩
      · -- folders were made, and no database
        rcases hmade (path.placeFrom h.workDir) with hp | ⟨-, hp⟩
        · rw [hplace] at he
          have hnone := he.symm.trans (hp.trans hnew)
          simp at hnone
        · rw [hplace] at he
          have hfolder := he.symm.trans hp
          simp at hfolder
      · exact hempty
    simp only [hdb, exec_modify_bind, exec_pure, Prod.mk.injEq, Except.ok.injEq] at hopen
    rcases hopen with ⟨rfl, rfl⟩
    subst htables
    exact ⟨rfl, Host.holds_putTables hdb _, rfl⟩

/-- A database that has a table of seeds is opened as it is: its tables are put in place again. -/
theorem exec_open_eq {path : Path} (iterations : Int) (hold : h.Holds path tables)
    (hseeds : tables.seeds ≠ none) :
    exec («open» path iterations) h =
      (.ok { path, iterations }, h.putTables (path.placeFrom h.workDir) tables) := by
  have hsame : tables.createSeeds = tables := by
    rcases tables with ⟨_ | seeds, peers, settings, channels, revoked⟩
    · exact absurd rfl hseeds
    · rfl
  unfold «open»
  rw [exec_bind_of_ok (Host.exec_makeParent_of_holds hold), exec_get_bind]
  simp only [hold.databaseAt, exec_modify_bind, exec_pure, hsame]

theorem exec_open_again {path : Path} (iterations : Int) (hold : h.Holds path tables)
    (hseeds : tables.seeds = some t) :
    ∃ h', exec («open» path iterations) h = (.ok { path, iterations }, h') ∧
      h'.Holds path tables ∧ h'.cipher = h.cipher :=
  ⟨_, exec_open_eq iterations hold (by simp [hseeds]), Host.holds_putTables hold.databaseAt tables,
    rfl⟩

/-- A store that was opened has its table. -/
theorem open_ok {path : Path} {iterations : Int} {h' : Host}
    (hopen : exec («open» path iterations) h = (.ok s, h')) :
    s = { path, iterations } ∧ ∃ tables : Tables, h'.Holds path tables.createSeeds := by
  unfold «open» at hopen
  rcases exec_bind_ok.1 hopen with ⟨_, h₁, -, hopen⟩
  rw [exec_get_bind] at hopen
  cases hdb : h₁.databaseAt path with
  | error fault => cases fault <;> simp [hdb] at hopen
  | ok found =>
    rcases found with ⟨place, tables⟩
    simp only [hdb, exec_modify_bind, exec_pure, Prod.mk.injEq, Except.ok.injEq] at hopen
    rcases hopen with ⟨rfl, rfl⟩
    exact ⟨rfl, tables, Host.holds_putTables hdb _⟩

/-! ## Restoring -/

/-- What holds of the host, whatever is logged and also after the file has been erased, holds
after an old file has been removed or could not be removed. -/
theorem exec_removeOld {P : Host → Prop} (path : Path) (hP : P h)
    (hemit : ∀ h l, P h → P (h.emit l))
    (herase : ∀ place, h.files.resolve h.workDir path = .ok place →
      P { h with files := h.files.erase place }) (subsystem what : String) (done : Option String) :
    ∃ h', exec (removeOld path subsystem what done) h = (.ok (), h') ∧ P h' := by
  unfold removeOld
  rw [exec_get_bind]
  cases hremove : h.removeFile path with
  | error fault => exact ⟨_, Host.exec_say .., hemit _ _ hP⟩
  | ok h' =>
    have hP' : P h' := by
      unfold Host.removeFile at hremove
      split at hremove
      · simp at hremove
      · cases hfiles : h.files.remove h.workDir path with
        | error fault => simp [hfiles, Except.map] at hremove
        | ok files =>
          rcases FileTree.remove_ok hfiles with ⟨place, hres, rfl⟩
          simp only [hfiles, Except.map, Except.ok.injEq] at hremove
          exact hremove ▸ herase place hres
    simp only [exec_set_bind]
    cases done with
    | none => exact ⟨h', rfl, hP'⟩
    | some message => exact ⟨_, Host.exec_say .., hemit _ _ hP'⟩

/-- A file is removed, or stays if removing files fails; a line tells which. -/
theorem exec_removeOld_file {path : Path} {place : Place} {b : Bytes}
    (hres : h.files.resolve h.workDir path = .ok place)
    (hfile : h.files.entry? place = some (.file b)) (subsystem what message : String) :
    ∃ l, exec (removeOld path subsystem what (some message)) h =
      (.ok (), Host.emit (if h.removalFails then h else { h with files := h.files.erase place })
        l) := by
  unfold removeOld Host.removeFile
  rw [exec_get_bind]
  by_cases hfails : h.removalFails = true
  · rw [if_pos hfails, if_pos hfails]
    exact ⟨_, rfl⟩
  · rw [if_neg hfails, if_neg hfails, FileTree.remove_of_file hres hfile]
    exact ⟨_, rfl⟩

theorem plainName_phraseFile : FileTree.PlainName phraseFile := by decide +kernel

/-- Reading the file of a phrase changes nothing. -/
theorem exec_readPhraseFile (path : Path) (h : Host) :
    (exec (readPhraseFile path) h).2 = h ∧
      ∀ text, (exec (readPhraseFile path) h).1 = .ok text →
        ∃ b s, h.files.read h.workDir path = .ok b ∧ Utf8.decode b = .ok s ∧
          text = Text.withLineFeeds s := by
  unfold readPhraseFile
  rw [exec_get_bind]
  cases hread : h.files.read h.workDir path with
  | error fault =>
    by_cases hsystem : fault.isSystem = true
    · simp [hsystem]
    · simp [hsystem]
  | ok b =>
    cases hdecode : Utf8.decode b with
    | error fault => simp [hdecode]
    | ok s =>
      simp only [hdecode, exec_pure, true_and]
      intro text htext
      exact ⟨b, s, rfl, hdecode, (Except.ok.inj htext).symm⟩

theorem exec_readPhraseFile_of {path : Path} {r : Except Failure String}
    (hr : (exec (readPhraseFile path) h).1 = r) : exec (readPhraseFile path) h = (r, h) :=
  Prod.ext hr (exec_readPhraseFile path h).1

/-- Only the bytes that can be read matter. -/
theorem readPhraseFile_congr {h' : Host} {path : Path}
    (hread : (h'.files.read h'.workDir path).toOption = (h.files.read h.workDir path).toOption) :
    (exec (readPhraseFile path) h').1 = (exec (readPhraseFile path) h).1 := by
  unfold readPhraseFile
  rw [exec_get_bind, exec_get_bind]
  cases hbytes : h.files.read h.workDir path with
  | ok b =>
    cases hbytes' : h'.files.read h'.workDir path with
    | error fault => simp [hbytes, hbytes', Except.toOption] at hread
    | ok b' =>
      obtain rfl : b' = b := by simpa [hbytes, hbytes', Except.toOption] using hread
      simp only
      cases Utf8.decode b' <;> rfl
  | error fault =>
    cases hbytes' : h'.files.read h'.workDir path with
    | ok b => simp [hbytes, hbytes', Except.toOption] at hread
    | error fault' =>
      have hnul := (FileTree.read_error hbytes').trans (FileTree.read_error hbytes).symm
      by_cases hfault : fault = .embeddedNul
      · rw [hfault, hnul.2 hfault]
        rfl
      · have hsystem : fault.isSystem = true := by simpa [FileFault.isSystem] using hfault
        have hsystem' : fault'.isSystem = true := by
          simpa [FileFault.isSystem] using fun h => hfault (hnul.1 h)
        simp only [hsystem, hsystem', if_true]
        rfl

/-- A database file is no sealed phrase. -/
theorem openPhrase_databaseMark (v : Vault) (password : RawText) {text : String}
    (h : Utf8.decode FileTree.databaseMark = .ok text) :
    v.openPhrase password (Text.withLineFeeds text) =
      .error (.invalidRecord .noSeparator) := by
  have hmark : FileTree.databaseMark = Utf8.encode "SQLite format 3\x00" := by decide +kernel
  have htext : text = "SQLite format 3\x00" := by
    rw [hmark, Utf8.decode_encode] at h
    exact (Except.ok.inj h).symm
  -- the mark has no dollar sign at which salt and token would be cut
  have hparts : Vault.parts (Text.withLineFeeds "SQLite format 3\x00") = .error .noSeparator := by
    decide +kernel
  rw [htext]
  simp only [Vault.openPhrase, Vault.decrypt, hparts, mapError_error, bind, Except.bind]

/-- A phrase that could be opened came from a file of its own. -/
theorem file_of_openPhrase {path : Path} {v : Vault} {password : RawText}
    {sealedText phrase : String}
    (hread : (exec (readPhraseFile path) h).1 = .ok sealedText)
    (hopen : v.openPhrase password sealedText = .ok phrase) :
    ∃ place b, h.files.resolve h.workDir path = .ok place ∧
      h.files.entry? place = some (.file b) := by
  rcases (exec_readPhraseFile path h).2 sealedText hread with ⟨b, text, hbytes, hdecode, rfl⟩
  rcases FileTree.read_ok hbytes with ⟨place, hres, he⟩
  refine ⟨place, b, hres, ?_⟩
  rcases he with he | ⟨rfl, -⟩
  · exact he
  · rw [openPhrase_databaseMark _ _ hdecode] at hopen
    simp at hopen

/-- A backup's phrase is saved like any other, or nothing is changed. -/
theorem exec_restore (hopen : s.closed = false) (hold : h.Holds s.path tables) (folder : Path)
    (password : RawText) :
    (∃ e h', exec (s.restore folder password) h = (.error e, h') ∧ h'.Holds s.path tables ∧
      h'.cipher = h.cipher) ∨
    ∃ phrase h' u, exec (s.restore folder password) h = (.ok phrase, h') ∧
      exec ((s.store h).save password phrase) { seeds := tables.seeds, entropy := h.entropy } =
        (.ok (), u) ∧
      h'.Holds s.path { tables with seeds := u.seeds } ∧ h'.cipher = h.cipher := by
  unfold restore
  cases hr : (exec (readPhraseFile (folder / phraseFile)) h).1 with
  | error e => exact Or.inl ⟨e, h, exec_bind_of_error (exec_readPhraseFile_of hr), hold, rfl⟩
  | ok sealedText =>
    rw [exec_bind_of_ok (exec_readPhraseFile_of hr), exec_get_bind]
    simp only
    cases hphrase : (s.store h).vault.openPhrase password sealedText with
    | error e => exact Or.inl ⟨e, h, exec_bind_of_error (exec_liftExcept _ _), hold, rfl⟩
    | ok phrase =>
      rw [exec_bind_of_ok (exec_liftExcept _ _)]
      obtain ⟨h₁, hrun, hold₁, -, hcipher, -⟩ :=
        exec_run hopen hold fun store => store.save password phrase
      rcases hsave : exec ((s.store h).save password phrase)
          { seeds := tables.seeds, entropy := h.entropy } with ⟨r, u⟩
      rw [hsave] at hrun hold₁
      cases r with
      | error e =>
        refine Or.inl ⟨e, h₁, exec_bind_of_error hrun, ?_, hcipher⟩
        rwa [SecretStore.save_error hsave] at hold₁
      | ok done =>
        right
        -- the phrase came from a file of its own, which is there until it is removed
        rcases file_of_openPhrase hr hphrase with ⟨place, b, hres, hfile⟩
        let l : LogLine := ⟨LogLevel.info, SecretStore.subsystem,
          "Migrated mnemonic from file to database"⟩
        obtain ⟨h₂, hremove, hold₂, hcipher₂⟩ := exec_removeOld (h := h₁.emit l)
          (P := fun h' => h'.Holds s.path { tables with seeds := u.seeds } ∧
            h'.cipher = h.cipher)
          (folder / phraseFile) ⟨hold₁.emit l, hcipher⟩
          (fun h' l' hP => ⟨hP.1.emit l', hP.2⟩)
          (by
            intro place' hres'
            rcases file_of_run hopen hold hrun hres hfile l hres' with ⟨b', hfile'⟩
            exact ⟨(hold₁.emit l).erase hfile', hcipher⟩)
          SecretStore.subsystem "mnemonic" none
        refine ⟨phrase, h₂, u, ?_, hsave, hold₂, hcipher₂⟩
        rw [exec_bind_of_ok hrun, exec_bind_of_ok (Host.exec_say ..), exec_bind_of_ok hremove]
        rfl

end SecretHandle

end NodeStore
