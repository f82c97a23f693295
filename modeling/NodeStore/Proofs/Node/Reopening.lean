import NodeStore.Proofs.Node.Serving

/-! # Closing a node and opening it again

A node that is the only user of its files is closed and opened again at any points of a run. What
it answers does not depend on that, nor do the rows that it leaves. The run with restarts and the
run without them go through states that are `Twins`: their hosts serve both nodes and differ in
logged lines only (`Host.Alike`), and the nodes differ in what they know of settings.

* `agree_onStore`, `agree_run`, `agree_restore`: every call keeps twins, and answers alike;
* `Ready.restart`: a restart leaves a twin of what it found;
* `restarts_change_nothing`: runs. -/

namespace NodeStore

open Op

/-! ## Twin hosts -/

/-- The place of a log file. If backups are restored it tells that from theirs. -/
def LogPlace (restores : Bool) (place : Place) : Prop :=
  restores = true → place.getLast? = some Logging.fileName

namespace Host

variable {c : Config} {restores : Bool} {cache cache' : ConfigCache Cell} {h h' : Host} {p : Path}
  {place : Place} {tables new : Tables} {P : Place → Prop}

theorem Serves.logsTo (hh : h.Serves c restores cache) : h.LogsTo (LogPlace restores) :=
  fun handler hmem place hsink hrestores => hh.footing.logs hrestores handler hmem place hsink

/-- Hosts that serve a node, and differ in logged lines only. -/
structure Twins (c : Config) (restores : Bool) (cache cache' : ConfigCache Cell) (h h' : Host) :
    Prop where
  serves : h.Serves c restores cache
  serves' : h'.Serves c restores cache'
  alike : Alike (LogPlace restores) h h'

theorem Twins.emitAll (ht : Twins c restores cache cache' h h') (ls ls' : List LogLine) :
    Twins c restores cache cache' (h.emitAll ls) (h'.emitAll ls') where
  serves := emitAll_keeps keptByStore_serves.emit ls ht.serves
  serves' := emitAll_keeps keptByStore_serves.emit ls' ht.serves'
  alike := (alike_emitAll ht.serves.logsTo ls).symm.trans
    (ht.alike.trans (alike_emitAll ht.serves'.logsTo ls'))

theorem Twins.emit (ht : Twins c restores cache cache' h h') (l l' : LogLine) :
    Twins c restores cache cache' (h.emit l) (h'.emit l') :=
  ht.emitAll [l] [l']

/-- Putting the same tables in place. -/
theorem Alike.putTables (ha : Alike P h h') (hdb : h.databaseAt p = .ok (place, tables))
    (new : Tables) : Alike P (h.putTables place new) (h'.putTables place new) := by
  have hfolder := databaseAt_ne_folder hdb
  have hroot : place ≠ [] := by
    rintro rfl
    exact hfolder (FileTree.entry?_root _)
  refine ⟨?_, ha.files.put hroot _⟩
  unfold Host.putTables
  rw [ha.same]

/-- Putting the tables in place that are there. -/
theorem alike_putTables_same (hold : h.Holds p tables) :
    Alike P h (h.putTables (p.placeFrom h.workDir) tables) := by
  refine ⟨rfl, ?_⟩
  intro q
  left
  by_cases hq : q = p.placeFrom h.workDir
  · rw [hq]
    exact (holds_putTables hold.databaseAt tables).2.trans hold.2.symm
  · exact FileTree.entry?_put_ne hq _

/-- What a store writes back to its file is the same on both hosts. -/
theorem Alike.writeBack (ha : Alike P h h') {handle handle' : StoreHandle}
    (hpath : handle'.path = handle.path) (hold : h.Holds handle.path tables) (new : Tables) :
    Alike P (handle.writeBack new h) (handle'.writeBack new h') := by
  have hold' := ha.holds_iff.2 hold
  unfold StoreHandle.writeBack
  rw [hpath, hold.databaseAt, hold'.databaseAt, ha.workDir]
  simp only
  split
  · exact ha
  · exact ha.putTables hold.databaseAt new

theorem logsTo_writeBack (handle : StoreHandle) (hlogs : h.LogsTo P) (new : Tables) :
    (handle.writeBack new h).LogsTo P := by
  unfold StoreHandle.writeBack
  split
  · split
    · exact hlogs
    · exact hlogs
  · exact hlogs

/-- A file holds one set of tables. -/
theorem Holds.unique (hold : h.Holds p tables) (hold' : h.Holds p new) : new = tables := by
  have hsame := hold'.2.symm.trans hold.2
  simpa using hsame

end Host

/-! ## Twin nodes -/

namespace Node

/-- The node is open with the files of its configuration, and its host serves it. -/
structure Ready (c : Config) (restores : Bool) (s : NodeState) : Prop where
  config : s.node.config = c
  storePath : s.node.store.path = c.storeFile
  outages : s.node.store.outages = {}
  secret : s.node.secret = ⟨c.secretPath, c.iterations, false⟩
  host : s.host.Serves c restores s.node.store.cache

/-- Open nodes whose hosts differ in logged lines only. -/
structure Twins (c : Config) (restores : Bool) (s s' : NodeState) : Prop where
  ready : Ready c restores s
  ready' : Ready c restores s'
  alike : Host.Alike (LogPlace restores) s.host s'.host

variable {α : Type} {c : Config} {restores : Bool} {s s' t : NodeState} {tables : Tables}

theorem agree_onHost {op : HostM α}
    (hop : ∀ cache cache', Agree (Host.Twins c restores cache cache') op) :
    Agree (Twins c restores) (onHost op) := by
  intro s s' ht
  rcases hop _ _ _ _ ⟨ht.ready.host, ht.ready'.host, ht.alike⟩ with ⟨hanswer, htwins⟩
  rw [exec_onHost, exec_onHost]
  exact ⟨hanswer, ⟨ht.ready.1, ht.ready.2, ht.ready.3, ht.ready.4, htwins.serves⟩,
    ⟨ht.ready'.1, ht.ready'.2, ht.ready'.3, ht.ready'.4, htwins.serves'⟩, htwins.alike⟩

/-! ## Calls of the relational store -/

/-- A store that is ready starts in a state that works. -/
theorem Ready.start (hs : Ready c restores s) :
    ∃ tables, s.host.Holds c.storeFile tables ∧
      s.node.store.start s.host = ⟨tables, s.node.store.cache, {}, []⟩ ∧
      (s.node.store.start s.host).Sound := by
  rcases hs.host.store with ⟨tables, hold, hcomplete, hagrees⟩
  have hstart : s.node.store.start s.host = ⟨tables, s.node.store.cache, {}, []⟩ := by
    rw [← hs.storePath] at hold
    rw [StoreHandle.start_eq hold, hs.outages]
  refine ⟨tables, hold, hstart, ?_⟩
  rw [hstart]
  exact ⟨hcomplete, rfl, hagrees⟩

/-- An operation that leaves a state that works leaves the node ready. -/
theorem Ready.onStore (hs : Ready c restores s) {op : StoreM α}
    (hsound : (exec op (s.node.store.start s.host)).2.Sound) :
    Ready c restores (exec (onStore op) s).2 := by
  rcases hs.start with ⟨tables, hold, hstart, -⟩
  rw [← hs.storePath] at hold
  rcases StoreHandle.exec_run hold op with ⟨h', hrun, -, hold'⟩
  -- the seeds may be those of the same file, so that they too have to be kept by the operation
  rw [hs.outages, ← hstart] at hrun hold'
  have hfooting := StoreHandle.run_keeps_of_start (R := fun _ _ => True)
    Host.keptByStore_footing op hs.storePath trivial hs.host.footing
  have hseeds := StoreHandle.run_keeps_of_start (c := c) (R := fun _ new => new.seeds ≠ none)
    (Host.keptByStore_fileHas fun _ _ hR _ => hR) op hs.storePath hsound.complete.seeds
    hs.host.seeds
  rw [hrun] at hfooting hseeds
  rw [exec_onStore_eq, hrun]
  rw [hs.storePath] at hold'
  refine ⟨hs.config, hs.storePath, ?_, hs.secret, hfooting,
    ⟨_, hold', hsound.complete, hsound.agrees⟩, hseeds⟩
  simp only [hsound.works]

/-- An operation answers what it answers on the tables of the file, and the file then has the tables
that it left. -/
theorem Ready.onStore_holds (hs : Ready c restores s) (op : StoreM α) :
    (exec (Node.onStore op) s).1 = (exec op (s.node.store.start s.host)).1 ∧
      (exec (Node.onStore op) s).2.host.Holds c.storeFile
        (exec op (s.node.store.start s.host)).2.tables := by
  rcases hs.start with ⟨tables, hold, hstart, -⟩
  rw [← hs.storePath] at hold
  rcases StoreHandle.exec_run hold op with ⟨h', hrun, -, hold'⟩
  rw [hs.outages, ← hstart] at hrun hold'
  rw [exec_onStore_eq, hrun, ← hs.storePath]
  exact ⟨rfl, hold'⟩

/-- An operation that changes nothing leaves the node and its host as they are. -/
theorem Ready.onStore_same (hs : Ready c restores s) {op : StoreM α} {r : Except Failure α}
    (hsame : exec op (s.node.store.start s.host) = (r, s.node.store.start s.host)) :
    exec (Node.onStore op) s = (r, s) := by
  rcases hs.start with ⟨tables, -, hstart, -⟩
  have hout := hs.outages
  rw [exec_onStore_eq, StoreHandle.run_eq, hsame]
  simp only [StoreHandle.writeBack_start]
  rw [hstart]
  rcases s with ⟨⟨config, ⟨path, cache, outages⟩, secret, migration, lastMigration, lastSync⟩, host⟩
  obtain rfl : outages = {} := hout
  rfl

/-- Operations that answer alike on two states with the same tables do so on twins. -/
theorem agree_onStore {op : StoreM α} (hop : Agree StoreState.Twins op) :
    Agree (Twins c restores) (onStore op) := by
  intro s s' ht
  rcases ht.ready.start with ⟨tables, hold, hstart, hsound⟩
  rcases ht.ready'.start with ⟨tables', hold', hstart', hsound'⟩
  have htables : tables' = tables := hold.unique (ht.alike.holds_iff.1 hold')
  have hpath : s'.node.store.path = s.node.store.path := by
    rw [ht.ready.storePath, ht.ready'.storePath]
  have hstates : StoreState.Twins (s.node.store.start s.host) (s'.node.store.start s'.host) := by
    refine ⟨hsound, hsound', ?_⟩
    rw [hstart, hstart', htables]
  rcases hop _ _ hstates with ⟨hanswer, hafter⟩
  refine ⟨hanswer, ht.ready.onStore hafter.sound, ht.ready'.onStore hafter.sound', ?_⟩
  -- both write the same tables back; the lines that they log may differ
  rw [← ht.ready.storePath] at hold
  have hback := ht.alike.writeBack hpath hold
    (exec op (s.node.store.start s.host)).2.tables
  nth_rewrite 2 [← hafter.tables] at hback
  have hlogs := Host.alike_emitAll (Host.logsTo_writeBack s.node.store
    ht.ready.host.logsTo (exec op (s.node.store.start s.host)).2.tables)
    (exec op (s.node.store.start s.host)).2.log
  have hlogs' := Host.alike_emitAll (Host.logsTo_writeBack s'.node.store
    ht.ready'.host.logsTo (exec op (s'.node.store.start s'.host)).2.tables)
    (exec op (s'.node.store.start s'.host)).2.log
  exact hlogs.symm.trans (hback.trans hlogs')

/-! ## Calls of the secret store -/

end Node

namespace Host

variable {c : Config} {restores : Bool} {cache cache' : ConfigCache Cell} {h h' : Host} {p : Path}
  {place : Place} {tables new : Tables}

/-- The secret store of a configuration. -/
def secretOf (c : Config) : SecretHandle := ⟨c.secretPath, c.iterations, false⟩

/-- Changing the table of seeds in the same way. -/
theorem Twins.putTables (ht : Twins c restores cache cache' h h')
    (hold : h.Holds c.secretPath tables) (hR : SeedsChanged tables new) :
    Twins c restores cache cache' (h.putTables (c.secretPath.placeFrom h.workDir) new)
      (h'.putTables (c.secretPath.placeFrom h'.workDir) new) where
  serves := keptByStore_serves.tables _ _ _ _ _ (Or.inr rfl) hold.databaseAt hR ht.serves
  serves' := keptByStore_serves.tables _ _ _ _ _ (Or.inr rfl)
    (ht.alike.holds_iff.2 hold).databaseAt hR ht.serves'
  alike := by
    rw [ht.alike.workDir]
    exact ht.alike.putTables hold.databaseAt new

/-- Taking the same from the randomness. -/
theorem Twins.withEntropy (ht : Twins c restores cache cache' h h') (entropy : Entropy) :
    Twins c restores cache cache' { h with entropy } { h' with entropy } where
  serves := ⟨⟨ht.serves.1.1, ht.serves.1.2, ht.serves.1.3, ht.serves.1.4⟩, ht.serves.2, ht.serves.3⟩
  serves' :=
    ⟨⟨ht.serves'.1.1, ht.serves'.1.2, ht.serves'.1.3, ht.serves'.1.4⟩, ht.serves'.2, ht.serves'.3⟩
  alike := ⟨by rw [ht.alike.same], ht.alike.files⟩

/-- An operation that drops no table answers alike on twins. -/
theorem agree_run {α : Type} {op : SecretStore → SecretM α}
    (hop : ∀ store, Keeps (fun u : SecretState => u.seeds ≠ none) (op store)) :
    Agree (Twins c restores cache cache') ((secretOf c).run op) := by
  intro h h' ht
  rcases ht.serves.seeds with ⟨tables, hold, hseeds⟩
  have hold' := ht.alike.holds_iff.2 hold
  have hstart : (secretOf c).start h = { seeds := tables.seeds, entropy := h.entropy } := by
    simp only [SecretHandle.start, secretOf, Bool.false_eq_true, if_false, hold.databaseAt]
  have hstart' : (secretOf c).start h' = { seeds := tables.seeds, entropy := h.entropy } := by
    simp only [SecretHandle.start, secretOf, Bool.false_eq_true, if_false, hold'.databaseAt]
    rw [ht.alike.same]
  have hstore : (secretOf c).store h' = (secretOf c).store h := by
    rw [ht.alike.same]
    rfl
  rw [SecretHandle.exec_run_eq, SecretHandle.exec_run_eq, hstart, hstart', hstore]
  have hkept := hop ((secretOf c).store h) { seeds := tables.seeds, entropy := h.entropy } hseeds
  rcases hexec : exec (op ((secretOf c).store h))
    { seeds := tables.seeds, entropy := h.entropy } with ⟨r, u⟩
  rw [hexec] at hkept
  refine ⟨rfl, Twins.emitAll ?_ _ _⟩
  have hentropy := ht.withEntropy u.entropy
  have hopen : { h with entropy := u.entropy }.Holds c.secretPath tables := hold
  have hopen' : { h' with entropy := u.entropy }.Holds c.secretPath tables := hold'
  unfold SecretHandle.writeBack
  simp only [secretOf, Bool.false_eq_true, if_false, hopen.databaseAt, hopen'.databaseAt]
  split
  · exact hentropy
  · exact hentropy.putTables hopen ⟨hkept, rfl⟩

theorem keeps_save (store : SecretStore) (password phrase : RawText) :
    Keeps (fun u : SecretState => u.seeds ≠ none) (store.save password phrase) := by
  unfold SecretStore.save
  have hseal : Keeps (fun u : SecretState => u.seeds ≠ none)
      (store.sealPhrase password phrase) := fun _ hu => hu
  refine keeps_bind hseal fun sealedText => ?_
  refine keeps_bind (SecretStore.keeps_table _) fun t => ?_
  split
  · exact keeps_modify fun _ _ => nofun
  · refine keeps_bind (keeps_modify fun _ _ => nofun) fun _ => ?_
    exact keeps_modify fun _ hu => hu

/-! ## Backups -/

/-- The file of a backup is no log file. -/
theorem not_logPlace_phraseFile (folder : Path) (workDir : Place) :
    ¬ LogPlace true ((folder / SecretHandle.phraseFile).placeFrom workDir) := by
  rw [SecretHandle.plainName_phraseFile.placeFrom, LogPlace, List.getLast?_append,
    List.getLast?_singleton, Option.some_or]
  decide

/-- The file of a backup is the same on both hosts. -/
theorem Twins.entry_phraseFile (ht : Twins c true cache cache' h h') {folder : Path}
    (hres : h.files.resolve h.workDir (folder / SecretHandle.phraseFile) = .ok place) :
    h'.files.entry? place = h.files.entry? place := by
  apply ht.alike.files.entry?_eq
  rw [FileTree.place_eq_of_resolve hres]
  exact not_logPlace_phraseFile folder h.workDir

theorem Twins.resolve_iff (ht : Twins c restores cache cache' h h') :
    h'.files.resolve h'.workDir p = .ok place ↔ h.files.resolve h.workDir p = .ok place := by
  rw [ht.alike.workDir, ht.alike.files.resolve_iff]

theorem Twins.resolve_error (ht : Twins c restores cache cache' h h') {fault : FileFault}
    (hres : h.files.resolve h.workDir p = .error fault) :
    ∃ fault', h'.files.resolve h'.workDir p = .error fault' := by
  cases hres' : h'.files.resolve h'.workDir p with
  | ok place =>
    have hboth := hres.symm.trans (ht.resolve_iff.1 hres')
    simp at hboth
  | error fault' => exact ⟨fault', rfl⟩

/-- A backup is read in the same way. -/
theorem agree_readPhraseFile (folder : Path) :
    Agree (Twins c true cache cache')
      (SecretHandle.readPhraseFile (folder / SecretHandle.phraseFile)) := by
  intro h h' ht
  constructor
  · apply SecretHandle.readPhraseFile_congr
    cases hres : h.files.resolve h.workDir (folder / SecretHandle.phraseFile) with
    | ok place =>
      rw [FileTree.read_toOption hres, FileTree.read_toOption (ht.resolve_iff.2 hres),
        ht.entry_phraseFile hres]
    | error fault =>
      rcases ht.resolve_error hres with ⟨fault', hres'⟩
      simp [FileTree.read, FileTree.find, hres, hres', bind, Except.bind, Except.toOption]
  · rw [(SecretHandle.exec_readPhraseFile _ h).1, (SecretHandle.exec_readPhraseFile _ h').1]
    exact ht

/-- The file of a backup is removed from both hosts, or can be removed from neither. -/
theorem Twins.removeOld (ht : Twins c true cache cache' h h') {folder : Path}
    (hfile : ∀ place, h.files.resolve h.workDir (folder / SecretHandle.phraseFile) = .ok place →
      ∃ b, h.files.entry? place = some (.file b)) (subsystem what : String) :
    ∃ t t',
      exec (SecretHandle.removeOld (folder / SecretHandle.phraseFile) subsystem what none) h =
        (.ok (), t) ∧
      exec (SecretHandle.removeOld (folder / SecretHandle.phraseFile) subsystem what none) h' =
        (.ok (), t') ∧ Twins c true cache cache' t t' := by
  have hremoval : h'.removalFails = h.removalFails := by rw [ht.alike.same]
  unfold SecretHandle.removeOld Host.removeFile
  rw [exec_get_bind, exec_get_bind]
  by_cases hfails : h.removalFails = true
  · rw [if_pos hfails, if_pos (hremoval.trans hfails)]
    exact ⟨_, _, rfl, rfl, ht.emit _ _⟩
  · rw [if_neg hfails, if_neg (hremoval ▸ hfails)]
    cases hres : h.files.resolve h.workDir (folder / SecretHandle.phraseFile) with
    | error fault =>
      rcases ht.resolve_error hres with ⟨fault', hres'⟩
      simp only [FileTree.remove, hres, hres', bind, Except.bind, Except.map]
      exact ⟨_, _, rfl, rfl, ht.emit _ _⟩
    | ok place =>
      rcases hfile place hres with ⟨b, hfile⟩
      have hfile' : h'.files.entry? place = some (.file b) := by
        rw [ht.entry_phraseFile hres, hfile]
      have hroot : place ≠ [] := FileTree.ne_root_of_entry hfile (by simp)
      rw [FileTree.remove_of_file hres hfile,
        FileTree.remove_of_file (ht.resolve_iff.2 hres) hfile']
      refine ⟨_, _, rfl, rfl, ht.serves.erase hfile, ht.serves'.erase hfile', ?_,
        ht.alike.files.erase hroot⟩
      rw [ht.alike.same]

/-- A phrase is saved and the file it came from is removed, on both hosts or on neither. -/
theorem Twins.saveAndRemove (ht : Twins c true cache cache' h h') {folder : Path} {b : Bytes}
    (hres : h.files.resolve h.workDir (folder / SecretHandle.phraseFile) = .ok place)
    (hfile : h.files.entry? place = some (.file b))
    (password : RawText) (phrase message subsystem what : String) (level : Int) :
    let op : HostM String := do
      (secretOf c).run fun store => store.save password phrase
      say level subsystem message
      SecretHandle.removeOld (folder / SecretHandle.phraseFile) subsystem what none
      return phrase
    (exec op h').1 = (exec op h).1 ∧ Twins c true cache cache' (exec op h).2 (exec op h').2 := by
  intro op
  have hsave : Agree (Twins c true cache cache')
      ((secretOf c).run fun store => store.save password phrase) :=
    agree_run fun store => keeps_save store password phrase
  rcases hsave h h' ht with ⟨hsaved, ht₁⟩
  rcases hrun : exec ((secretOf c).run fun store => store.save password phrase) h with ⟨r, h₁⟩
  rcases hrun' : exec ((secretOf c).run fun store => store.save password phrase) h' with ⟨r', h₁'⟩
  rw [hrun, hrun'] at hsaved ht₁
  obtain rfl : r' = r := hsaved
  cases r' with
  | error e =>
    rw [exec_bind_of_error hrun, exec_bind_of_error hrun']
    exact ⟨rfl, ht₁⟩
  | ok done =>
    let l : LogLine := ⟨level, subsystem, message⟩
    rcases ht.serves.seeds with ⟨tables, hold, -⟩
    have hfiles : ∀ place, (h₁.emit l).files.resolve (h₁.emit l).workDir
        (folder / SecretHandle.phraseFile) = .ok place →
        ∃ b, (h₁.emit l).files.entry? place = some (.file b) := fun place hres' =>
      SecretHandle.file_of_run (s := secretOf c) rfl hold hrun hres hfile l hres'
    rcases (ht₁.emit l l).removeOld hfiles subsystem what with ⟨t, t', hremove, hremove', ht₂⟩
    rw [exec_bind_of_ok hrun, exec_bind_of_ok hrun', exec_bind_of_ok (exec_say ..),
      exec_bind_of_ok (exec_say ..), exec_bind_of_ok hremove, exec_bind_of_ok hremove']
    exact ⟨rfl, ht₂⟩

/-- A backup is restored on both hosts, or on neither. -/
theorem agree_restore (folder : Path) (password : RawText) :
    Agree (Twins c true cache cache') ((secretOf c).restore folder password) := by
  intro h h' ht
  have hsame := (agree_readPhraseFile folder h h' ht).1
  have hstore : (secretOf c).store h' = (secretOf c).store h := by
    rw [ht.alike.same]
    rfl
  unfold SecretHandle.restore
  cases hr : (exec (SecretHandle.readPhraseFile (folder / SecretHandle.phraseFile)) h).1 with
  | error e =>
    rw [exec_bind_of_error (SecretHandle.exec_readPhraseFile_of hr),
      exec_bind_of_error (SecretHandle.exec_readPhraseFile_of (hsame.trans hr))]
    exact ⟨rfl, ht⟩
  | ok sealedText =>
    rw [exec_bind_of_ok (SecretHandle.exec_readPhraseFile_of hr),
      exec_bind_of_ok (SecretHandle.exec_readPhraseFile_of (hsame.trans hr)), exec_get_bind,
      exec_get_bind]
    simp only [hstore]
    cases hphrase : ((secretOf c).store h).vault.openPhrase password sealedText with
    | error e =>
      rw [exec_bind_of_error (exec_liftExcept _ _), exec_bind_of_error (exec_liftExcept _ _)]
      exact ⟨rfl, ht⟩
    | ok phrase =>
      rw [exec_bind_of_ok (exec_liftExcept _ _), exec_bind_of_ok (exec_liftExcept _ _)]
      -- a phrase that can be opened was in a file of its own, and no database
      rcases SecretHandle.file_of_openPhrase hr hphrase with ⟨place, b, hres, hfile⟩
      exact ht.saveAndRemove hres hfile _ _ _ _ _ _

/-! ## Opening again -/

/-- Where a store was open before it is opened again, and finds what it left. -/
theorem Serves.exec_open_store (hh : h.Serves c restores cache) :
    ∃ t, exec (StoreHandle.open c.storePath) h = (.ok { path := c.storeFile }, t) ∧
      t.Serves c restores cache ∧ Alike (LogPlace restores) h t := by
  let l : LogLine := ⟨LogLevel.info, Store.subsystem,
    "Initializing database at path: " ++ c.storePath.toString⟩
  have hh₁ : (h.emit l).Serves c restores cache := keptByStore_serves.emit h l hh
  rcases hh₁.store with ⟨tables, hold, hcomplete, -⟩
  have hh₂ := keptByStore_serves.tables _ _ _ _ _ (Or.inl rfl) hold.databaseAt
    ⟨hcomplete.seeds, rfl⟩ hh₁
  have halike := (alike_emit hh.logsTo l).trans (alike_putTables_same (P := LogPlace restores) hold)
  unfold StoreHandle.open
  rw [exec_bind_of_ok (exec_say ..), exec_bind_of_ok hh₁.exec_makeParent, exec_get_bind]
  have hdb : (h.emit l).databaseAt (StoreHandle.fileOf c.storePath) =
    .ok (c.storeFile.placeFrom (h.emit l).workDir, tables) := hold.databaseAt
  simp only [hdb, exec_modify_bind, hcomplete.createMissing]
  rw [exec_bind_of_ok (exec_say ..)]
  exact ⟨_, rfl, keptByStore_serves.emit _ _ hh₂, halike.trans (alike_emit hh₂.logsTo _)⟩

theorem Serves.exec_open_secret (hh : h.Serves c restores cache) :
    ∃ t, exec (SecretHandle.open c.secretPath c.iterations) h = (.ok (secretOf c), t) ∧
      t.Serves c restores cache ∧ Alike (LogPlace restores) h t := by
  rcases hh.seeds with ⟨tables, hold, hseeds⟩
  refine ⟨_, SecretHandle.exec_open_eq c.iterations hold hseeds, ?_, alike_putTables_same hold⟩
  exact keptByStore_serves.tables _ _ _ _ _ (Or.inr rfl) hold.databaseAt ⟨hseeds, rfl⟩ hh

/-- A host that serves a node serves one that is opened again. -/
theorem Serves.exec_open (hh : h.Serves c restores cache) :
    ∃ t, exec (Node.open c) h =
        (.ok { config := c, store := { path := c.storeFile }, secret := secretOf c }, t) ∧
      t.Serves c restores cache ∧ Alike (LogPlace restores) h t := by
  rcases hh.exec_open_store with ⟨h₁, hstore, hh₁, ha₁⟩
  rcases hh₁.exec_open_secret with ⟨h₂, hsecret, hh₂, ha₂⟩
  unfold Node.open
  rw [exec_bind_of_ok (exec_makeAll_of_folderAt hh.footing.storage),
    exec_bind_of_ok (exec_makeAll_of_folderAt hh.footing.protocol), exec_bind_of_ok hstore,
    exec_bind_of_ok hsecret, exec_bind_of_ok (exec_say ..)]
  exact ⟨_, rfl, keptByStore_serves.emit _ _ hh₂, ha₁.trans (ha₂.trans (alike_emit hh₂.logsTo _))⟩

/-- A node that knows nothing is served as well. -/
theorem Serves.forget (hh : h.Serves c restores cache) : h.Serves c restores {} := by
  rcases hh.store with ⟨tables, hold, hcomplete, -⟩
  exact ⟨hh.footing, ⟨tables, hold, .ofNothing hcomplete⟩, hh.seeds⟩

end Host

/-! ## Runs -/

/-- A call of an open node: of its relational store, or of its secret store. -/
inductive NodeCall where
  | store (call : StoreCall)
  | isInitialized
  | checkUninitialized
  | savePhrase (password phrase : RawText)
  | getPhrase (password : RawText)
  /-- The phrase of a folder's file is moved into the secret store. -/
  | restorePhrase (folder : Path) (password : RawText)
deriving DecidableEq

/-- What a call of a node answers. -/
inductive NodeAnswer where
  | store (answer : StoreAnswer)
  | truth (b : Bool)
  | done
  | phrase (text : String)
deriving DecidableEq, Repr

/-- Carries out a call. -/
def NodeCall.perform : NodeCall → NodeM NodeAnswer
  | store call => .store <$> Node.onStore call.perform
  | isInitialized => .truth <$> Node.onSecret fun _ => SecretStore.isInitialized
  | checkUninitialized => (fun _ => .done) <$> Node.onSecret fun _ => SecretStore.checkUninitialized
  | savePhrase password phrase =>
    (fun _ => .done) <$> Node.onSecret fun store => store.save password phrase
  | getPhrase password => .phrase <$> Node.onSecret fun store => store.get password
  | restorePhrase folder password => .phrase <$> Node.restorePhrase folder password

/-- A call that moves a backup, whose file is removed. -/
def NodeCall.Restores : NodeCall → Prop
  | restorePhrase .. => True
  | _ => False

/-- Something that happens to a node. -/
inductive NodeEvent where
  | call (call : NodeCall)
  /-- The node is closed and opened again. -/
  | restart
deriving DecidableEq

/-- What is left of some events without restarts. -/
def NodeEvent.calls (events : List NodeEvent) : List NodeEvent :=
  events.filter fun event => event != .restart

namespace Node

variable {α : Type} {c : Config} {restores : Bool} {s s' t : NodeState}

/-- Closes the node and opens it again. -/
def restart : NodeM Unit := do
  let config := (← get).node.config
  close
  let node ← onHost (Node.open config)
  modify fun s => { s with node }

/-- The answers to some events, and the state afterwards. A restart has an answer only if it
fails. -/
def answers : List NodeEvent → NodeState → List (Except Failure NodeAnswer) × NodeState
  | [], s => ([], s)
  | .call call :: rest, s =>
    let (r, t) := exec call.perform s
    let (rs, u) := answers rest t
    (r :: rs, u)
  | .restart :: rest, s =>
    match exec restart s with
    | (.ok (), t) => answers rest t
    | (.error e, t) =>
      let (rs, u) := answers rest t
      (.error e :: rs, u)

/-! ### Calls -/

theorem agree_onSecret {op : SecretStore → SecretM α}
    (hop : ∀ store, Keeps (fun u : SecretState => u.seeds ≠ none) (op store)) :
    Agree (Twins c restores) (onSecret op) := by
  intro s s' ht
  have hagree : Agree (Twins c restores) (onHost ((Host.secretOf c).run op)) :=
    agree_onHost fun _ _ => Host.agree_run hop
  unfold onSecret
  rw [exec_get_bind, exec_get_bind, ht.ready.secret, ht.ready'.secret]
  exact hagree s s' ht

theorem agree_restorePhrase (folder : Path) (password : RawText) :
    Agree (Twins c true) (restorePhrase folder password) := by
  intro s s' ht
  have hagree : Agree (Twins c true) (onHost ((Host.secretOf c).restore folder password)) :=
    agree_onHost fun _ _ => Host.agree_restore folder password
  unfold restorePhrase
  rw [exec_get_bind, exec_get_bind, ht.ready.secret, ht.ready'.secret]
  exact hagree s s' ht

/-- Every call answers alike on twins. -/
theorem agree_call {call : NodeCall} (hrestores : call.Restores → restores = true) :
    Agree (Twins c restores) call.perform := by
  cases call with
  | store call => exact agree_map _ (agree_onStore (Store.agree_perform call))
  | isInitialized =>
    exact agree_map _ (agree_onSecret fun _ => SecretStore.keeps_isInitialized)
  | checkUninitialized =>
    exact agree_map _ (agree_onSecret fun _ => SecretStore.keeps_checkUninitialized)
  | savePhrase password phrase =>
    exact agree_map _ (agree_onSecret fun store => Host.keeps_save store password phrase)
  | getPhrase password => exact agree_map _ (agree_onSecret fun _ => SecretStore.keeps_getPhrase)
  | restorePhrase folder password =>
    obtain rfl := hrestores trivial
    exact agree_map _ (agree_restorePhrase folder password)

/-! ### Restarts -/

/-- Closing a store forgets what it knows, and leaves the host. -/
theorem Ready.exec_close (hs : Ready c restores s) :
    ∃ node, exec close s = (.ok (), ⟨node, s.host⟩) := by
  rcases hs.start with ⟨tables, hold, hstart, -⟩
  rw [← hs.storePath] at hold
  have hhost : (exec close s).2.host = s.host := by
    show (s.node.store.writeBack (s.node.store.start s.host).tables s.host).emitAll
      (s.node.store.start s.host).log = s.host
    rw [StoreHandle.writeBack_start, hstart]
    rfl
  refine ⟨(exec close s).2.node, ?_⟩
  rw [← hhost]
  rfl

/-- A restart leaves a twin of what it found. -/
theorem Ready.restart (hs : Ready c restores s) :
    ∃ t, exec Node.restart s = (.ok (), t) ∧ Twins c restores t s := by
  rcases hs.exec_close with ⟨closed, hclose⟩
  rcases hs.host.exec_open with ⟨h, hopen, hserves, halike⟩
  have hrun : exec (onHost (Node.open c)) ⟨closed, s.host⟩ =
      (.ok { config := c, store := { path := c.storeFile }, secret := Host.secretOf c },
        ⟨closed, h⟩) := by
    rw [exec_onHost, hopen]
  refine ⟨⟨{ config := c, store := { path := c.storeFile }, secret := Host.secretOf c }, h⟩, ?_,
    ⟨rfl, rfl, rfl, rfl, hserves.forget⟩, hs, halike.symm⟩
  unfold Node.restart
  rw [exec_get_bind]
  simp only [hs.config]
  rw [exec_bind_of_ok hclose, exec_bind_of_ok hrun]
  rfl

/-! ### Runs with restarts -/

theorem Twins.trans {s'' : NodeState} (ht : Twins c restores s s') (ht' : Twins c restores s' s'') :
    Twins c restores s s'' :=
  ⟨ht.ready, ht'.ready', ht.alike.trans ht'.alike⟩

/-- From twins, a run with restarts and the run without them have the same answers, and end in
twins. -/
theorem Twins.answers (ht : Twins c restores s s') {events : List NodeEvent}
    (hrestores : ∀ call, .call call ∈ events → call.Restores → restores = true) :
    (Node.answers events s).1 = (Node.answers (NodeEvent.calls events) s').1 ∧
      Twins c restores (Node.answers events s).2
        (Node.answers (NodeEvent.calls events) s').2 := by
  induction events generalizing s s' with
  | nil => exact ⟨rfl, ht⟩
  | cons event rest ih =>
    have hrest : ∀ call, .call call ∈ rest → call.Restores → restores = true :=
      fun call hmem => hrestores call (List.mem_cons_of_mem event hmem)
    cases event with
    | call call =>
      have hcall := agree_call (c := c) (hrestores call List.mem_cons_self)
      rcases hcall s s' ht with ⟨hanswer, hafter⟩
      rcases ih hafter hrest with ⟨hanswers, hend⟩
      have hkept : NodeEvent.calls (.call call :: rest) = .call call :: NodeEvent.calls rest := rfl
      rw [hkept]
      refine ⟨?_, hend⟩
      simp only [Node.answers, hanswer, hanswers]
    | restart =>
      -- one node is replaced by its twin, the other one stays
      rcases ht.ready.restart with ⟨t, hrun, hback⟩
      have hdropped : NodeEvent.calls (.restart :: rest) = NodeEvent.calls rest := rfl
      simp only [Node.answers, hrun, hdropped]
      exact ih (hback.trans ht) hrest

/-- A node that was opened is ready. -/
theorem ready_of_open {h h' : Host} {node : Node} (hopen : exec (Node.open c) h = (.ok node, h'))
    (hbackups : restores = true → h.logging.Own ∧
      (c.storeFile = c.storePath ∨ h'.files.FolderAt h'.workDir c.storePath.parent)) :
    Ready c restores ⟨node, h'⟩ := by
  have hserves := Host.serves_of_open hopen hbackups
  rcases open_steps hopen with ⟨⟨store, secret, rfl, hstore, hsecret⟩, -⟩
  refine ⟨rfl, ?_, ?_, hsecret, ?_⟩
  · simp only [hstore]
  · simp only [hstore]
  · simp only [hstore]
    exact hserves

/-- A node is opened, and is the only user of its files from then on. Whatever calls are made, and
wherever the node is closed and opened again between them, the answers are those of the calls
without restarts, and the same tables are left; those of the node are there. Only a restored backup
asks for more, as its file is read and removed: log files are others, and the folder of the store's
file is a folder. -/
theorem restarts_change_nothing {h h' : Host} {node : Node}
    (hopen : exec (Node.open c) h = (.ok node, h')) (events : List NodeEvent)
    (hbackups : (∃ call, .call call ∈ events ∧ call.Restores) → h.logging.Own ∧
      (c.storeFile = c.storePath ∨ h'.files.FolderAt h'.workDir c.storePath.parent)) :
    (answers events ⟨node, h'⟩).1 = (answers (NodeEvent.calls events) ⟨node, h'⟩).1 ∧
    (∀ p tables, (answers events ⟨node, h'⟩).2.host.Holds p tables ↔
      (answers (NodeEvent.calls events) ⟨node, h'⟩).2.host.Holds p tables) ∧
    (∃ tables, (answers events ⟨node, h'⟩).2.host.Holds c.storeFile tables ∧ tables.Complete) ∧
    ∃ tables, (answers events ⟨node, h'⟩).2.host.Holds c.secretPath tables ∧
      tables.seeds ≠ none := by
  obtain ⟨restores, hbackups, hrestores⟩ : ∃ restores : Bool,
      (restores = true → h.logging.Own ∧
        (c.storeFile = c.storePath ∨ h'.files.FolderAt h'.workDir c.storePath.parent)) ∧
      ∀ call, .call call ∈ events → call.Restores → restores = true := by
    by_cases hany : ∃ call, .call call ∈ events ∧ call.Restores
    · exact ⟨true, fun _ => hbackups hany, fun _ _ _ => rfl⟩
    · exact ⟨false, nofun, fun call hmem hcall => absurd ⟨call, hmem, hcall⟩ hany⟩
  -- both runs start from the node that was opened, which is its own twin
  have hready : Ready c restores ⟨node, h'⟩ := ready_of_open hopen hbackups
  have hself : Twins c restores ⟨node, h'⟩ ⟨node, h'⟩ := ⟨hready, hready, .refl h'⟩
  rcases hself.answers hrestores with ⟨hanswers, hend⟩
  refine ⟨hanswers, fun p tables => hend.alike.holds_iff.symm, ?_, hend.ready.host.seeds⟩
  rcases hend.ready.host.store with ⟨tables, hold, hcomplete, -⟩
  exact ⟨tables, hold, hcomplete⟩

/-- A node in a folder of its own. -/
def plainConfig : Config := { storageDir := ⟨.root, ["node"]⟩ }

/-- Calls that succeed and calls that are rejected, with restarts between them. -/
def plainEvents : List NodeEvent :=
  [.call (.store (.saveSetting "indexer_url" "127.0.0.1:50001")), .restart,
    .call (.store (.saveSetting "indexer_url" none)),
    .call (.store (.loadSetting "indexer_url")), .restart,
    .call (.store (.savePeer (.text "no key") (.text "127.0.0.1:9735"))),
    .call (.store (.loadSetting "proxy_endpoint")), .restart,
    .call (.restorePhrase ⟨.root, ["backup"]⟩ "password"), .call .isInitialized]

/-- The node that is opened there. -/
def plainNode : Node where
  config := plainConfig
  store := { path := plainConfig.storeFile }
  secret := Host.secretOf plainConfig

/-- What the calls answer without restarts they answer with them. -/
theorem plainEvents_answered :
    ∃ h', exec (Node.open plainConfig) Host.bare = (.ok plainNode, h') ∧
      Host.bare.logging.Own ∧ plainConfig.storeFile = plainConfig.storePath ∧
      (answers plainEvents ⟨plainNode, h'⟩).1 =
        [.ok (.store .done), .error (.database TableName.settings.noValue),
          .ok (.store (.setting (some (.text "127.0.0.1:50001")))),
          .error (.invalidPeer (.given (.badHex "public_key" "no key"))),
          .ok (.store (.setting none)), .error .notInitialized, .ok (.truth false)] := by
  have hnode : (exec (Node.open plainConfig) Host.bare).1 = .ok plainNode := by decide +kernel
  have hopen : exec (Node.open plainConfig) Host.bare =
      (.ok plainNode, (exec (Node.open plainConfig) Host.bare).2) := Prod.ext hnode rfl
  have hown : Host.bare.logging.Own := nofun
  have hplain : plainConfig.storeFile = plainConfig.storePath := by decide +kernel
  refine ⟨_, hopen, hown, hplain, ?_⟩
  rw [(restarts_change_nothing hopen plainEvents fun _ => ⟨hown, Or.inl hplain⟩).1]
  decide +kernel

end Node

end NodeStore
