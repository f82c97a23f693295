import NodeStore.Proofs.Node.Invariants

/-! # What migrations and starts keep

A migration reads the legacy files, saves what it read and removes the file of the channel map. A
property of hosts that stands all that a node does is kept by it: the file that is removed is the
one that was read, and so no database. With that it is kept by a whole start.

* `keeps_migrateChannels`: moving the channel map;
* `keeps_migrate`, `opens_start`: whole migrations and starts.
-/

namespace NodeStore

open Op

variable {c : Config} {R : Tables → Tables → Prop} {I : Host → Prop}

namespace Node

/-! ## Parts of a migration -/

section

variable {J : NodeState → Prop}

/-- Looking for a file changes nothing but the log. -/
theorem keeps_isFound (hsay : ∀ level subsystem message, Keeps J (say level subsystem message))
    (path : Path) (name : String) : Keeps J (Migration.isFound path name) := by
  have hfind : Keeps J (onHost (Host.find? path)) := by
    intro s hs
    rw [exec_onHost, Host.exec_find?]
    exact hs
  unfold Migration.isFound
  refine keeps_bind hfind fun found => ?_
  split
  · exact keeps_bind (hsay _ _ _) fun _ => keeps_pure _
  · exact keeps_bind (hsay _ _ _) fun _ => keeps_pure _

end

/-- Reading changes nothing. -/
theorem exec_readFile (path : Path) (s : NodeState) :
    exec (Migration.readFile path) s =
      ((s.host.files.read s.host.workDir path).mapError
        fun fault => Failure.transfer (.unreadable path.toString fault), s) := by
  unfold Migration.readFile
  rw [exec_get_bind]
  cases hread : s.host.files.read s.host.workDir path with
  | ok b => simp [hread]
  | error fault => simp [hread]

theorem keeps_readFile {J : NodeState → Prop} (path : Path) :
    Keeps J (Migration.readFile path) := by
  intro s hs
  rw [exec_readFile]
  exact hs

/-- A file is looked for, and the answer is logged. -/
theorem exec_isFound {s : NodeState} {path : Path} {found : Option FileEntry}
    (hfind : s.host.files.find? s.host.workDir path = .ok found) (name : String) :
    ∃ l, exec (Migration.isFound path name) s =
      (.ok found.isSome, { s with host := s.host.emit l }) := by
  have hexec : exec (onHost (Host.find? path)) s = (.ok found, s) := by
    rw [exec_onHost, Host.exec_find?, hfind]
    rfl
  unfold Migration.isFound
  rw [exec_bind_of_ok hexec]
  cases found with
  | none => exact ⟨_, rfl⟩
  | some e => exact ⟨_, rfl⟩

/-- Whatever comes of a step of a migration, it is noted, unless it is a failure of another kind. -/
theorem exec_attempt {α β : Type} {step : NodeM α} {s s' : NodeState} {r : Except Failure α}
    (hstep : exec step s = (r, s')) (hstore : ∀ e, r = .error e → e.isStore = true)
    (name : String) (done : α → β) (failed : Failure → β) :
    (∃ a, r = .ok a ∧ exec (Migration.attempt name step done failed) s = (.ok (done a), s')) ∨
      ∃ e l, r = .error e ∧ exec (Migration.attempt name step done failed) s =
        (.ok (failed e), { s' with host := s'.host.emit l }) := by
  unfold Migration.attempt
  rw [exec_tryCatch, exec_map, hstep]
  cases r with
  | ok a => exact Or.inl ⟨a, rfl, rfl⟩
  | error e =>
    simp only [Except.map]
    rw [if_pos (hstore e rfl)]
    exact Or.inr ⟨e, _, rfl, rfl⟩

theorem keeps_attempt {J : NodeState → Prop} {α β : Type} {step : NodeM α} (name : String)
    (done : α → β) (failed : Failure → β) (hstep : Keeps J step)
    (hsay : ∀ level subsystem message, Keeps J (say level subsystem message)) :
    Keeps J (Migration.attempt name step done failed) := by
  unfold Migration.attempt
  apply keeps_tryCatch (keeps_map hstep)
  intro e
  split
  · exact keeps_bind (hsay _ _ _) fun _ => keeps_pure _
  · exact keeps_throw e

/-- Saving a channel id changes the table of channel ids at most. -/
theorem saveChannelId_tables (hR : Allows R) (temporary final : Bytes) (u : StoreState) :
    R u.tables (exec (Store.saveChannelId temporary final) u).2.tables := by
  -- kept until the transaction, which alone changes the table
  let P : StoreState → Prop := fun v =>
    v.tables = u.tables ∨ ∃ channels, v.tables = { u.tables with channels := some channels }
  have hlog : ∀ level message, Keeps P (Store.log level message) := fun _ _ _ hv => hv
  have hcount : Keeps P Store.countChannelSave := by
    apply keeps_get_bind
    intro v hv
    simp only [exec_set_bind]
    split <;> exact hv
  have hcommit : Keeps P (Store.saveChannelId temporary final) := by
    refine keeps_bind hcount fun _ => ?_
    refine keeps_bind (keeps_liftExcept _) ?_
    intro temporary'
    refine keeps_bind (keeps_liftExcept _) ?_
    intro final'
    refine keeps_bind (hlog _ _) fun _ => ?_
    apply Store.keeps_transaction
    intro v a tables hv hbody
    cases hchannels : v.tables.channels with
    | none => simp [hchannels, Store.present, bind, Except.bind] at hbody
    | some channels =>
      simp only [hchannels, Store.present, bind, Except.bind, pure, Except.pure, Except.ok.injEq,
        Prod.mk.injEq] at hbody
      refine Or.inr ⟨channels.upsert (.text temporary') (.text final'), ?_⟩
      rcases hv with hv | ⟨old, hv⟩
      · rw [← hbody.2, hv]
      · rw [← hbody.2, hv]
  rcases hcommit u (Or.inl rfl) with hsame | ⟨channels, hchanged⟩
  · rw [hsame]
    exact hR.same u.tables
  · rw [hchanged]
    exact hR.channels u.tables channels

/-- The file of the channel map is there, and is not empty. -/
def HasChannelFile (c : Config) (w : Place) (h : Host) : Prop :=
  h.workDir = w ∧ ∃ b, b ≠ [] ∧ h.files.entry? (c.channelFile.placeFrom w) = some (.file b)

/-- Stores do not touch the file of the channel map. -/
theorem keptByStore_hasChannelFile (hI : KeptByStore c R I) (w : Place) :
    KeptByStore c R fun h => I h ∧ HasChannelFile c w h where
  emit := by
    rintro h l ⟨hh, hdir, b, hb, hfile⟩
    rcases (Host.grown_emit h l).file _ b hfile with ⟨extra, hfile'⟩
    exact ⟨hI.emit h l hh, hdir, b ++ extra, by simp [hb], hfile'⟩
  tables := by
    rintro h p place old new hp hdb hR ⟨hh, hdir, b, hb, hfile⟩
    refine ⟨hI.tables h p place old new hp hdb hR hh, hdir, b, hb, ?_⟩
    refine (FileTree.entry?_put_ne ?_ _).trans hfile
    rintro rfl
    rcases Host.databaseAt_ok hdb with ⟨-, -, he⟩
    rw [hfile] at he
    simp [hb] at he

theorem keeps_savePairs (hR : Allows R) {J : Host → Prop} (hJ : KeptByStore c R J)
    (pairs : List (Bytes × Bytes)) : Keeps (Of c J) (Migration.savePairs pairs) := by
  induction pairs with
  | nil => exact keeps_pure ()
  | cons pair rest ih =>
    exact keeps_bind (keeps_onStore hJ (saveChannelId_tables hR pair.1 pair.2)) fun _ => ih

/-- A map is read from a file of its own, which is not empty. -/
theorem channelFile_of_decode {files : FileTree} {w : Place} {path : Path} {b : Bytes}
    {map : ChannelMap} (hread : files.read w path = .ok b)
    (hdecode : ChannelMap.decode b = .ok map) :
    b ≠ [] ∧ files.entry? (path.placeFrom w) = some (.file b) := by
  rcases FileTree.read_ok hread with ⟨place, hres, he⟩
  obtain rfl := FileTree.place_eq_of_resolve hres
  have hempty : ChannelMap.decode [] = .error .truncated := rfl
  have hmark : ChannelMap.decode FileTree.databaseMark = .error .badMagic := rfl
  constructor
  · rintro rfl
    simp [hempty] at hdecode
  · rcases he with he | ⟨rfl, -⟩
    · exact he
    · simp [hmark] at hdecode

theorem keeps_migrateChannels (hI : KeptByMoving c R I) :
    Keeps (Of c I) (Migration.migrateChannels c.protocolDataDir) := by
  unfold Migration.migrateChannels
  refine keeps_bind (keeps_isFound (keeps_say hI.emit) _ _) ?_
  intro found
  cases found with
  | false => exact keeps_pure 0
  | true =>
    intro s hs
    simp only [if_true]
    rw [exec_bind, exec_readFile]
    cases hread : s.host.files.read s.host.workDir (c.protocolDataDir / Migration.channelFile) with
    | error fault => exact hs
    | ok b =>
      simp only [mapError_ok]
      cases hdecode : ChannelMap.decode b with
      | error fault => exact hs
      | ok map =>
        rcases channelFile_of_decode hread hdecode with ⟨hb, hfile⟩
        -- while the pairs are saved the property also says that the file is there
        have hJ := keptByStore_hasChannelFile hI.toKeptByStore s.host.workDir
        have hs' : Of c (fun h => I h ∧ HasChannelFile c s.host.workDir h) s :=
          ⟨hs.1, hs.2, hs.3, hs.4, rfl, b, hb, hfile⟩
        have hI' : ∀ s', Of c (fun h => I h ∧ HasChannelFile c s.host.workDir h) s' →
            Of c I s' := fun s' hs' => ⟨hs'.1, hs'.2, hs'.3, hs'.4.1⟩
        refine bind_leads (keeps_savePairs hI.allows hJ map.entries) hI' ?_ hs'
        intro _ s₁ hs₁
        refine bind_leads (keeps_say hJ.emit _ _ _) hI' ?_ hs₁
        intro _ s₂ hs₂
        -- the file that was read is still there when it is removed
        rcases hs₂.host with ⟨hh, hdir, b', -, hfile'⟩
        obtain ⟨h', hremove, hh'⟩ := SecretHandle.exec_removeOld (h := s₂.host) (P := I)
          (c.protocolDataDir / Migration.channelFile) hh hI.emit
          (fun place hres => hI.remove s₂.host place b' hres (by
            rw [FileTree.place_eq_of_resolve hres, hdir]
            exact hfile') hh)
          Migration.subsystem Migration.channelFile
          (some s!"Removed old {Migration.channelFile} file after migration")
        have hdone := exec_onHost (SecretHandle.removeOld
          (c.protocolDataDir / Migration.channelFile) Migration.subsystem Migration.channelFile
          (some s!"Removed old {Migration.channelFile} file after migration")) s₂
        rw [hremove] at hdone
        rw [exec_bind_of_ok hdone]
        exact ⟨hs₂.1, hs₂.2, hs₂.3, hh'⟩

/-! ## Whole migrations -/

/-- The migration of a setting keeps what logging and the save of its value keep. -/
theorem keeps_migrateSetting {J : NodeState → Prop} {key : String}
    (hsay : ∀ level subsystem message, Keeps J (say level subsystem message))
    (hsave : ∀ value, Keeps J (onStore (Store.saveSetting key value))) (dir : Path) :
    Keeps J (Migration.migrateSetting dir key) := by
  unfold Migration.migrateSetting
  refine keeps_bind (keeps_isFound hsay _ _) ?_
  intro found
  split
  · refine keeps_bind (keeps_readFile _) ?_
    intro b
    split
    · exact keeps_throw _
    · refine keeps_bind (hsave _) fun _ => ?_
      exact keeps_bind (hsay _ _ _) fun _ => keeps_pure true
  · exact keeps_pure false

theorem keeps_migrateSettings (hI : KeptByStore c R I) (hR : AllowsSaves R) (keys : List String)
    (r : MigrationReport) : Keeps (Of c I) (Migration.migrateSettings c.storageDir keys r) := by
  induction keys generalizing r with
  | nil => exact keeps_pure r
  | cons key rest ih =>
    refine keeps_bind ?_ fun r' => ih r'
    exact keeps_attempt _ _ _ (keeps_migrateSetting (keeps_say hI.emit)
      (keeps_saveSetting hI hR key) _) (keeps_say hI.emit)

/-- Where every setting's migration fails with a failure that can be noted, the migration of
settings succeeds. Its report tells nothing of other files. -/
theorem exec_migrateSettings {J : NodeState → Prop} {dir : Path} {keys : List String}
    (hkeeps : ∀ key ∈ keys, Keeps J (Migration.migrateSetting dir key))
    (hfails : ∀ key ∈ keys, FailsAs J (fun e => e.isStore = true)
      (Migration.migrateSetting dir key))
    (hemit : ∀ s l, J s → J { s with host := s.host.emit l }) {s : NodeState} (hs : J s)
    (r : MigrationReport) :
    ∃ r' s', exec (Migration.migrateSettings dir keys r) s = (.ok r', s') ∧ J s' ∧
      r'.channelIds = r.channelIds ∧
      ∀ name, name ∉ keys → r'.failed.lookup name = r.failed.lookup name := by
  induction keys generalizing s r with
  | nil => exact ⟨r, s, rfl, hs, rfl, fun _ _ => rfl⟩
  | cons key rest ih =>
    have hs₁ := hkeeps key List.mem_cons_self s hs
    rcases hstep : exec (Migration.migrateSetting dir key) s with ⟨answer, s₁⟩
    rw [hstep] at hs₁
    have hstore : ∀ e, answer = .error e → e.isStore = true := by
      rintro e rfl
      exact hfails key List.mem_cons_self s hs e s₁ hstep
    have hrest := fun (s' : NodeState) (hs' : J s') r' =>
      ih (fun k hk => hkeeps k (List.mem_cons_of_mem key hk))
        (fun k hk => hfails k (List.mem_cons_of_mem key hk)) hs' r'
    unfold Migration.migrateSettings
    rcases exec_attempt hstep hstore key (Migration.MigrationReport.note r key)
      (Migration.MigrationReport.fail r key) with ⟨found, -, hrun⟩ | ⟨e, l, -, hrun⟩
    · rcases hrest s₁ hs₁ (Migration.MigrationReport.note r key found) with
        ⟨r', s', hrun', hs', hcount, hfailed⟩
      refine ⟨r', s', (exec_bind_of_ok hrun).trans hrun', hs', ?_, ?_⟩
      · cases found <;> exact hcount
      · intro name hname
        rw [hfailed name fun hmem => hname (List.mem_cons_of_mem key hmem)]
        cases found <;> rfl
    · rcases hrest _ (hemit s₁ l hs₁) (Migration.MigrationReport.fail r key e) with
        ⟨r', s', hrun', hs', hcount, hfailed⟩
      refine ⟨r', s', (exec_bind_of_ok hrun).trans hrun', hs', hcount, ?_⟩
      intro name hname
      rw [hfailed name fun hmem => hname (List.mem_cons_of_mem key hmem)]
      refine (Assoc.lookup_put key name e r.failed).trans (if_neg ?_)
      rintro rfl
      exact hname List.mem_cons_self

theorem keeps_warnIncomplete {J : NodeState → Prop}
    (hsay : ∀ level subsystem message, Keeps J (say level subsystem message))
    (failed : List (String × Failure)) : Keeps J (warnIncomplete failed) := by
  induction failed with
  | nil => exact keeps_pure ()
  | cons entry rest ih => exact keeps_bind (hsay _ _ _) fun _ => ih

/-- What follows the migration of the settings' files. -/
theorem keeps_restOfRun (hI : KeptByMoving c R I) (r : MigrationReport) :
    Keeps (Of c I) (Migration.attempt Migration.channelFile
      (Migration.migrateChannels c.protocolDataDir) (fun n => { r with channelIds := n })
      (Migration.MigrationReport.fail r Migration.channelFile)) :=
  keeps_attempt _ _ _ (keeps_migrateChannels hI) (keeps_say hI.emit)

theorem keeps_run (hI : Kept c R I) (hR : AllowsSaves R) :
    Keeps (Of c I) (Migration.run c.storageDir c.protocolDataDir) := by
  unfold Migration.run
  apply keeps_bind (keeps_onHost (Host.keeps_find? _))
  intro found
  have hrest : Keeps (Of c I) (do
      let r ← Migration.migrateSettings c.storageDir Migration.settingKeys {}
      Migration.attempt Migration.channelFile (Migration.migrateChannels c.protocolDataDir)
        (fun n => { r with channelIds := n })
        (Migration.MigrationReport.fail r Migration.channelFile)) :=
    keeps_bind (keeps_migrateSettings hI.toKeptByStore hR _ _) fun r =>
      keeps_restOfRun hI.moving r
  split
  · exact keeps_bind (keeps_throw _) fun _ => hrest
  · exact hrest

/-- What a start does with the report of its migration: it is logged and remembered. -/
theorem keeps_noteMigration {J : NodeState → Prop}
    (hsay : ∀ level subsystem message, Keeps J (say level subsystem message))
    (hlast : ∀ s r, J s → J { s with node := { s.node with lastMigration := r } })
    (r : MigrationReport) :
    Keeps J (do
      warnIncomplete r.failed
      modify fun s => { s with node := { s.node with lastMigration := some r } }
      return r) := by
  refine keeps_bind (keeps_warnIncomplete hsay _) fun _ => ?_
  exact keeps_bind (keeps_modify fun s hs => hlast s _ hs) fun _ => keeps_pure r

/-- The first migration of a node leaves what its run leaves, but for the log and the reports. -/
theorem migrate_first {s s' : NodeState} {r : MigrationReport} (hfirst : s.node.migration = none)
    (hrun : exec migrate s = (.ok r, s')) :
    ∃ s₁, exec (Migration.run s.node.config.storageDir s.node.config.protocolDataDir) s =
        (.ok r, s₁) ∧
      ∀ J : NodeState → Prop,
        (∀ level subsystem message, Keeps J (say level subsystem message)) →
        (∀ s m l, J s → J { s with node := { s.node with migration := m, lastMigration := l } }) →
        J s₁ → J s' := by
  unfold migrate at hrun
  rcases exec_bind_ok.1 hrun with ⟨r₁, s₂, hreport, hnote⟩
  unfold migrationReport at hreport
  rw [exec_get_bind] at hreport
  simp only [hfirst] at hreport
  rcases exec_bind_ok.1 hreport with ⟨r₂, s₁, hmigration, hkeep⟩
  rw [exec_modify_bind, exec_pure, Prod.mk.injEq, Except.ok.injEq] at hkeep
  rcases hkeep with ⟨rfl, rfl⟩
  obtain rfl : r₂ = r := by
    rcases exec_bind_ok.1 hnote with ⟨_, _, -, hlast⟩
    exact Except.ok.inj (congrArg Prod.fst hlast)
  refine ⟨s₁, hmigration, fun J hsay hreports hs₁ => ?_⟩
  refine (keeps_noteMigration hsay ?_ r₂).after (hreports s₁ (some r₂) s₁.node.lastMigration hs₁)
    hnote
  exact fun s l hs => hreports s s.node.migration l hs

theorem keeps_migrate (hI : Kept c R I) (hR : AllowsSaves R) : Keeps (Of c I) migrate := by
  unfold migrate
  refine keeps_bind ?_ fun r => keeps_noteMigration (keeps_say hI.emit)
    (fun _ _ hs => ⟨hs.1, hs.2, hs.3, hs.4⟩) r
  unfold migrationReport
  apply keeps_get_bind
  intro s hs
  cases hmigration : s.node.migration with
  | some r =>
    simp only [hmigration]
    exact hs
  | none =>
    simp only [hmigration, hs.config]
    refine keeps_bind (keeps_run hI hR) ?_ s hs
    intro r
    exact keeps_bind (keeps_modify fun s hs => ⟨hs.1, hs.2, hs.3, hs.4⟩) fun _ => keeps_pure r

/-! ## Starts -/

/-- What a start does with the node that it has opened. -/
def startWork : NodeM Unit := do
  discard migrate
  discard sync

/-- A start opens a node and does its work with it; when the work fails it closes the node. -/
theorem exec_start (c : Config) (h : Host) :
    exec (Node.start c) h =
      match exec (Node.open c) h with
      | (.error e, h₁) => (.error e, h₁)
      | (.ok node, h₁) =>
        match exec startWork ⟨node, h₁⟩ with
        | (.ok (), s) => (.ok s.node, s.host)
        | (.error e, s) => (.error e, (exec close s).2.host) := by
  unfold Node.start
  rw [exec_bind]
  rcases exec (Node.open c) h with ⟨r, h₁⟩
  cases r with
  | error e => rfl
  | ok node =>
    simp only [exec_get_bind]
    have hrun : Node.run (do discard migrate; discard sync) node h₁ =
        ((exec startWork ⟨node, h₁⟩).1, (exec startWork ⟨node, h₁⟩).2.node,
          (exec startWork ⟨node, h₁⟩).2.host) := rfl
    rw [hrun]
    rcases exec startWork ⟨node, h₁⟩ with ⟨r', s⟩
    cases r' <;> rfl

/-- A start that succeeds has opened a node, and has done its work with it. -/
theorem start_ok {c : Config} {h h' : Host} {node : Node}
    (hstart : exec (Node.start c) h = (.ok node, h')) :
    ∃ opened h₁ r s₁ r', exec (Node.open c) h = (.ok opened, h₁) ∧
      exec migrate ⟨opened, h₁⟩ = (.ok r, s₁) ∧ exec sync s₁ = (.ok r', ⟨node, h'⟩) := by
  rw [exec_start] at hstart
  rcases hopen : exec (Node.open c) h with ⟨r, h₁⟩
  rw [hopen] at hstart
  cases r with
  | error e => simp at hstart
  | ok opened =>
    simp only at hstart
    rcases hwork : exec startWork ⟨opened, h₁⟩ with ⟨r, s⟩
    rw [hwork] at hstart
    cases r with
    | error e => simp at hstart
    | ok done =>
      simp only [Prod.mk.injEq, Except.ok.injEq] at hstart
      rcases hstart with ⟨rfl, rfl⟩
      unfold startWork at hwork
      rcases exec_bind_ok.1 hwork with ⟨_, s₁, hmigrate, hsync⟩
      rcases exec_discard_ok.1 hmigrate with ⟨r, hmigrate⟩
      rcases exec_discard_ok.1 hsync with ⟨r', hsync⟩
      exact ⟨opened, h₁, r, s₁, r', rfl, hmigrate, hsync⟩

/-- The operation keeps the property, and a node that it gives has the files of the
configuration. -/
def Opens (c : Config) (I : Host → Prop) (op : HostM Node) : Prop :=
  ∀ h, I h → I (exec op h).2 ∧ ∀ node h', exec op h = (.ok node, h') → Of c I ⟨node, h'⟩

theorem opens_open (hI : KeptByOpening c R I) : Opens c I (Node.open c) := by
  intro h hh
  have hopened := keeps_open hI h hh
  refine ⟨hopened, ?_⟩
  intro node h' hopen
  rcases open_ok hopen with ⟨hconfig, hstore, hsecret, -⟩
  rw [hopen] at hopened
  exact ⟨hconfig, by rw [hstore], hsecret, hopened⟩

theorem keeps_startWork (hI : Kept c R I) (hR : AllowsSaves R) : Keeps (Of c I) startWork :=
  keeps_bind (keeps_map (keeps_migrate hI hR)) fun _ => keeps_map (keeps_sync hI)

/-- Starting a node keeps the property, also when the start fails. -/
theorem opens_start (hI : Kept c R I) (hR : AllowsSaves R) : Opens c I (Node.start c) := by
  intro h hh
  rw [exec_start]
  rcases opens_open hI.toKeptByOpening h hh with ⟨hopened, hof⟩
  rcases hopen : exec (Node.open c) h with ⟨r, h₁⟩
  rw [hopen] at hopened
  cases r with
  | error e => exact ⟨hopened, by simp⟩
  | ok node =>
    have hworked := keeps_startWork hI hR _ (hof node h₁ hopen)
    simp only
    rcases hrun : exec startWork ⟨node, h₁⟩ with ⟨r', s⟩
    rw [hrun] at hworked
    cases r' with
    | error e =>
      have hclosed := keeps_close hI.toKeptByOpening s hworked
      exact ⟨hclosed.host, by simp⟩
    | ok done =>
      refine ⟨hworked.host, ?_⟩
      intro node' h' hstart
      simp only [Prod.mk.injEq, Except.ok.injEq] at hstart
      rcases hstart with ⟨rfl, rfl⟩
      exact hworked

end Node

end NodeStore
