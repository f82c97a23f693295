import NodeStore.Proofs.Node.Publication

/-! # Starts converge

On a host that holds contents a start that succeeds makes of them what `Contents.started` says, and
every host holds contents once a node could be opened on it. So starts one after the other go
through `Contents.started` again and again, which settles with the second of them.

* `Holding.run`: a migration;
* `start_contents`: a start;
* `starts_converge`: the files after every start, and the third start after two others. -/

namespace NodeStore

open Op

namespace Node

variable {c : Config} {w : Place} {fails : Bool} {x : Contents} {s s' : NodeState}

/-! ## The settings -/

/-- The contents apart from the table of settings. -/
def HasRest (c : Config) (w : Place) (fails : Bool) (x : Contents) (h : Host) : Prop :=
  (h.HasFiles c w fails x.files ∧ h.HasMap c w x.container) ∧ h.HasChannels c w x.channels

theorem legible_hasRest (hc : c.Usual w) (fails : Bool) (x : Contents) :
    Legible c w x.texts KeepsChannels (HasRest c w fails x) where
  toKeptByStore := (keptByStore_hasMap hc).and keptByStore_hasChannels
  saves := allowsSaves_keepsChannels
  storage _ hh := hh.1.1.storage
  reads _ hh key hkey := congrArg textAt (hh.1.1.setting key hkey)

/-- The texts of the settings' files are copied. -/
theorem Holding.migrateSettings (hc : c.Usual w) (hs : Holding c w fails x s)
    (hout : s.node.store.outages = {}) :
    ∃ r s', exec (Migration.migrateSettings c.storageDir Migration.settingKeys {}) s =
        (.ok r, s') ∧ Holding c w fails x.migrated s' ∧ s'.node.store.outages = {} := by
  rcases hs.of.host with ⟨hfiles, hmap, htables⟩
  have hstart : Migrating c w (HasRest c w fails x) x.settings s :=
    ⟨⟨hs.of.1, hs.of.2, hs.of.3, ⟨hfiles, hmap⟩, htables.imp fun _ ht => ht.2⟩,
      htables.imp fun _ ht => ht.1, hout, hs.cached⟩
  rcases migrateSettings_ok (legible_hasRest hc fails x) (fun _ hk => hk) hstart {} with
    ⟨r, s', hrun, hs'⟩
  rcases hs'.of.host with ⟨⟨hfiles', hmap'⟩, hchannels'⟩
  exact ⟨r, s', hrun, ⟨⟨hs'.of.1, hs'.of.2, hs'.of.3, hfiles', hmap', hs'.rows.and hchannels'⟩,
    hs'.cached⟩, hs'.outages⟩

/-! ## The channel map -/

/-- Saves of channel ids do not touch what is known of settings. -/
theorem keeps_migrateChannels_cache (cache : ConfigCache Cell) (dir : Path) :
    Keeps (fun s => s.node.store.cache = cache) (Migration.migrateChannels dir) := by
  have hhost : ∀ {α : Type} (op : HostM α),
      Keeps (fun s : NodeState => s.node.store.cache = cache) (onHost op) := fun _ _ hs => hs
  have hpairs : ∀ pairs, Keeps (fun s : NodeState => s.node.store.cache = cache)
      (Migration.savePairs pairs) := by
    intro pairs
    induction pairs with
    | nil => exact keeps_pure ()
    | cons p rest ih =>
      refine keeps_bind ?_ fun _ => ih
      intro s hs
      exact Store.keeps_saveChannelId_cache cache p.1 p.2 (s.node.store.start s.host)
        (StoreHandle.start_cache.trans hs)
  unfold Migration.migrateChannels
  refine keeps_bind (keeps_isFound (fun _ _ _ => hhost _) _ _) fun found => ?_
  split
  · refine keeps_bind (keeps_readFile _) fun bytes => ?_
    split
    · exact keeps_throw _
    · refine keeps_bind (hpairs _) fun _ => ?_
      exact keeps_bind (hhost _) fun _ => keeps_bind (hhost _) fun _ => keeps_pure _
  · exact keeps_pure 0

/-- The path of the file of the channel map leads to its place. -/
theorem resolve_channelFile {h : Host} (hfolder : h.HasFolder w c.protocolDataDir) :
    h.files.resolve h.workDir c.channelFile = .ok (c.channelPlace w) := by
  rw [hfolder.workDir, c.channelPlace_eq]
  exact plainName_channelFile.resolve hfolder.resolves hfolder.folder

/-- Without a channel map nothing is moved, and at most a failure is noted. -/
theorem Holding.migrateChannels_none (hc : c.Usual w) (hs : Holding c w fails x s)
    (hmap : x.channelMap = none) :
    ∃ answer s', exec (Migration.migrateChannels c.protocolDataDir) s = (answer, s') ∧
      Holding c w fails x s' ∧ ∀ e, answer = .error e → e.isStore = true := by
  have hfind := FileTree.find?_of_resolve (resolve_channelFile hs.of.host.files.protocol)
  rcases exec_isFound hfind Migration.channelFile with ⟨l, hfound⟩
  have hs₁ := hs.emit hc l
  have hcontainer : s.host.files.entry? (c.channelPlace w) = x.container := hs.of.host.container
  unfold Migration.migrateChannels
  rw [show c.protocolDataDir / Migration.channelFile = c.channelFile from rfl,
    exec_bind_of_ok hfound, hcontainer]
  cases he : x.container with
  | none => exact ⟨.ok 0, _, rfl, hs₁, by simp⟩
  | some e =>
    -- something was found, but it is no channel map
    have hread := exec_readFile c.channelFile { s with host := s.host.emit l }
    have hbytes := FileTree.read_toOption (resolve_channelFile hs₁.of.host.files.protocol)
    rw [show (s.host.emit l).files.entry? (c.channelPlace w) = x.container from
      hs₁.of.host.container] at hbytes
    unfold Contents.channelMap at hmap
    rw [← hbytes] at hmap
    simp only [Option.isSome_some, if_true]
    cases hfile : (s.host.emit l).files.read (s.host.emit l).workDir c.channelFile with
    | error fault =>
      rw [hfile] at hread
      rw [exec_bind_of_error hread]
      refine ⟨_, _, rfl, hs₁, ?_⟩
      rintro e he
      obtain rfl := Except.error.inj he
      rfl
    | ok b =>
      rw [hfile] at hread hmap
      rw [exec_bind_of_ok hread]
      cases hdecode : ChannelMap.decode b with
      | ok m => simp [Except.toOption, hdecode] at hmap
      | error fault =>
        refine ⟨_, _, rfl, hs₁, ?_⟩
        rintro e he
        obtain rfl := Except.error.inj he
        rfl

/-- A channel map is moved. -/
theorem Holding.migrateChannels_some (hc : c.Usual w) (hs : Holding c w fails x s)
    (hout : s.node.store.outages = {}) {m : ChannelMap} (hmap : x.channelMap = some m) :
    ∃ n s', exec (Migration.migrateChannels c.protocolDataDir) s = (.ok n, s') ∧
      Holding c w fails (x.moved fails) s' := by
  rcases Contents.of_channelMap hmap with ⟨b, hcontainer, hdecode⟩
  rcases hs.of.host with ⟨hfiles, hmapped, htables⟩
  have hdir := hfiles.storage.workDir
  have hres := resolve_channelFile hfiles.protocol
  rw [hdir] at hres
  have hfile : s.host.files.entry? (c.channelPlace w) = some (.file b) := hmapped.trans hcontainer
  have hb : b ≠ [] := by
    rintro rfl
    exact absurd hdecode nofun
  -- the table of channel ids, and the file
  have hmoving : Moving c w b fails x.channels s :=
    ⟨⟨hs.of.1, hs.of.2, hs.of.3, hdir, hfiles.storage, hfiles.logs, hres, hfile, hfiles.removal⟩,
      htables.imp fun _ ht => ht.2⟩
  have hnone : s.node.store.outages.savedBefore m.entries.length = none := by
    rw [hout]
    rfl
  rcases migrateChannels_ok hb hmoving hdecode hnone with ⟨s', hrun, hchannels, hleft⟩
  -- everything else stays
  have hrest := (keeps_migrateChannels (keptByMoving_hasFiles hc)).after
    ⟨hs.of.1, hs.of.2, hs.of.3, hfiles, htables.imp fun _ ht => ht.1⟩ hrun
  have hcache := (keeps_migrateChannels_cache _ _).after rfl hrun
  have hmoved : x.moved fails =
      { x with
        channels := Table.upsertAll (m.entries.map Store.cellsOf) x.channels
        container := if fails then x.container else none } := by
    unfold Contents.moved
    rw [hmap]
  rw [hmoved]
  refine ⟨_, s', hrun,
    ⟨hrest.1, hrest.2, hrest.3, hrest.host.1, ?_, hrest.host.2.and hchannels⟩, ?_⟩
  · rw [← hcontainer] at hleft
    exact hleft
  · intro key known hknown
    rw [hcache] at hknown
    exact hs.cached key known hknown

/-- A channel map is moved if there is one, and at most a failure is noted. -/
theorem Holding.migrateChannels (hc : c.Usual w) (hs : Holding c w fails x s)
    (hout : s.node.store.outages = {}) :
    ∃ answer s', exec (Migration.migrateChannels c.protocolDataDir) s = (answer, s') ∧
      Holding c w fails (x.moved fails) s' ∧ ∀ e, answer = .error e → e.isStore = true := by
  cases hmap : x.channelMap with
  | none =>
    have hsame : x.moved fails = x := by
      unfold Contents.moved
      rw [hmap]
    rw [hsame]
    exact hs.migrateChannels_none hc hmap
  | some m =>
    rcases hs.migrateChannels_some hc hout hmap with ⟨n, s', hrun, hs'⟩
    exact ⟨_, s', hrun, hs', by simp⟩

/-! ## Migrations -/

/-- A migration copies the texts of the settings' files, and moves the channel map. -/
theorem Holding.run (hc : c.Usual w) (hs : Holding c w fails x s)
    (hout : s.node.store.outages = {}) :
    ∃ r s', exec (Migration.run c.storageDir c.protocolDataDir) s = (.ok r, s') ∧
      Holding c w fails (x.migrated.moved fails) s' := by
  rcases hs.migrateSettings hc hout with ⟨r, s₁, hsettings, hs₁, hout₁⟩
  rcases hs₁.migrateChannels hc hout₁ with ⟨answer, s₂, hchannels, hs₂, hstore⟩
  rw [exec_run_of_folder hs.of.host.files.storage, exec_bind_of_ok hsettings]
  rcases exec_attempt hchannels hstore Migration.channelFile (fun n => { r with channelIds := n })
    (Migration.MigrationReport.fail r Migration.channelFile) with
    ⟨n, -, hrun⟩ | ⟨e, l, -, hrun⟩
  · exact ⟨_, s₂, hrun, hs₂⟩
  · exact ⟨_, _, hrun, hs₂.emit hc l⟩

/-! ## Starts -/

/-- The rows of published settings are texts. -/
def HasTexts (t : Table (Cell × Cell)) : Prop :=
  ∀ key ∈ Publication.keys, ∀ value, t.valueOf? (.text key) = some value →
    ∃ text, value = .text text

/-- What a start that succeeded has made of the contents that were held once the node was open. -/
theorem start_contents (hc : c.Usual w) {h h' : Host} {node : Node}
    (hstart : exec (Node.start c) h = (.ok node, h')) :
    ∃ opened h₁, exec (Node.open c) h = (.ok opened, h₁) ∧
      ∀ x, h₁.HasContents c w fails x → HasTexts (x.started fails).settings ∧
        Of c (Host.HasContents c w fails (x.started fails)) ⟨node, h'⟩ := by
  rcases start_ok hstart with ⟨opened, h₁, r, s₁, r', hopen, hmigrate, hsync⟩
  refine ⟨opened, h₁, hopen, ?_⟩
  intro x hx
  rcases open_ok hopen with ⟨hconfig, hstore, hsecret, hfirst⟩
  have hs : Holding c w fails x ⟨opened, h₁⟩ :=
    ⟨⟨hconfig, by rw [hstore], hsecret, hx⟩, cached_of_new hstore⟩
  rcases hs.run hc (by rw [hstore]) with ⟨report, s₂, hmigration, hs₂⟩
  rcases migrate_first hfirst hmigrate with ⟨s₃, hrun, hkept⟩
  rw [hconfig, hmigration, Prod.mk.injEq] at hrun
  rcases hrun with ⟨-, rfl⟩
  have hs₁ := hkept _ (fun _ _ _ _ hs => hs.emit hc _)
    (fun _ _ _ hs => ⟨⟨hs.of.1, hs.of.2, hs.of.3, hs.of.4⟩, hs.cached⟩) hs₂
  exact hs₁.sync hc hsync

/-- The rows of published settings are texts, and their files have exactly these texts. -/
def Published (c : Config) (w : Place) (h : Host) : Prop :=
  ∀ key ∈ Publication.keys, ∀ value, h.setting c key = some value →
    ∃ text, value = .text text ∧
      h.files.entry? (c.settingPlace w key) = some (.file (Utf8.encode text))

theorem published_of_started {h : Host} (hh : h.HasContents c w fails (x.started fails))
    (htexts : HasTexts (x.started fails).settings) : Published c w h := by
  intro key hkey value hvalue
  have hrows : h.HasSettings c w (x.started fails).settings := hh.tables.imp fun _ ht => ht.1
  rw [hrows.setting key] at hvalue
  rcases htexts key hkey value hvalue with ⟨text, rfl⟩
  refine ⟨text, rfl, ?_⟩
  rw [hh.files.setting key hkey, Contents.started_files x fails hkey, hvalue]

/-- Whatever was on the host, after a start that succeeded it holds what a start makes of
contents. -/
theorem start_any (hc : c.Usual w) {h h' : Host} {node : Node} (hdir : h.workDir = w)
    (hlogs : h.logging.Own) (hstart : exec (Node.start c) h = (.ok node, h')) :
    ∃ x : Contents, HasTexts (x.started h.removalFails).settings ∧
      Of c (Host.HasContents c w h.removalFails (x.started h.removalFails)) ⟨node, h'⟩ := by
  rcases start_contents hc hstart with ⟨opened, h₁, hopen, hwork⟩
  rcases open_contents hdir hlogs hopen with ⟨x, hx⟩
  exact ⟨x, hwork x hx⟩

/-- A start on a host that holds contents. -/
theorem start_held (hc : c.Usual w) {h h' : Host} {node : Node}
    (hh : h.HasContents c w fails x) (hstart : exec (Node.start c) h = (.ok node, h')) :
    Of c (Host.HasContents c w fails (x.started fails)) ⟨node, h'⟩ := by
  rcases start_contents hc hstart with ⟨opened, h₁, hopen, hwork⟩
  exact (hwork x ((keeps_open_contents hc).after hh hopen)).2

/-! ## Starts one after the other -/

/-- Nothing has happened to the files that were left. Logs may have been set up anew. -/
structure Untouched (left h : Host) : Prop where
  files : h.files = left.files
  workDir : h.workDir = left.workDir
  removal : h.removalFails = left.removalFails
  logs : h.logging.Own

/-- On the files that were left a start succeeds, and is followed by a close. -/
def Runs (c : Config) (left after : Host) : Prop :=
  ∃ h node h', Untouched left h ∧ exec (Node.start c) h = (.ok node, h') ∧
    after = (exec close ⟨node, h'⟩).2.host

theorem Untouched.hasContents {left h : Host} (hu : Untouched left h)
    (hh : left.HasContents c w fails x) : h.HasContents c w fails x := by
  rcases hh with ⟨⟨-, hremoval, hstorage, hprotocol, hsetting⟩, hmap, hdir, tables, hold, ht⟩
  have hfolder : ∀ {p}, left.HasFolder w p → h.HasFolder w p := fun hfolder =>
    ⟨hu.workDir.trans hfolder.workDir, hu.files ▸ hfolder.resolves, hu.files ▸ hfolder.folder⟩
  refine ⟨⟨hu.logs, hu.removal.trans hremoval, hfolder hstorage, hfolder hprotocol,
    hu.files ▸ hsetting⟩, ?_, hu.workDir.trans hdir, tables, ?_, ht⟩
  · unfold Host.HasMap
    rw [hu.files]
    exact hmap
  · unfold Host.Holds
    rw [hu.files, hu.workDir]
    exact hold

theorem close_contents (hc : c.Usual w) {node : Node} {h : Host}
    (hs : Of c (Host.HasContents c w fails x) ⟨node, h⟩) :
    (exec close ⟨node, h⟩).2.host.HasContents c w fails x :=
  (keeps_close_of_store (keptByStore_hasContents hc) allowsOpening_keepsTables.same _ hs).host

/-- A first run makes sure that contents are held. -/
theorem Runs.first (hc : c.Usual w) {left after : Host} (hdir : left.workDir = w)
    (hrun : Runs c left after) :
    ∃ x : Contents,
      after.HasContents c w left.removalFails (x.started left.removalFails) := by
  rcases hrun with ⟨h, node, h', hu, hstart, rfl⟩
  rcases start_any hc (hu.workDir.trans hdir) hu.logs hstart with ⟨x, -, hs⟩
  rw [hu.removal] at hs
  exact ⟨x, close_contents hc hs⟩

/-- A run on contents that are held. -/
theorem Runs.next (hc : c.Usual w) {left after : Host} (hh : left.HasContents c w fails x)
    (hrun : Runs c left after) : after.HasContents c w fails (x.started fails) := by
  rcases hrun with ⟨h, node, h', hu, hstart, rfl⟩
  exact close_contents hc (start_held hc (hu.hasContents hh) hstart)

/-- Starts of nodes whose stores have their usual names. After every start that succeeds the rows
of published settings are texts, and their files have exactly these texts. Where three starts
succeed one after the other, each followed by a close, the third leaves the tables of settings and
channel ids as the second left them, ids included, and all that is at the places of legacy
files. -/
theorem starts_converge (hc : c.Usual w) :
    (∀ h h' node, h.workDir = w → h.logging.Own → exec (Node.start c) h = (.ok node, h') →
      Published c w h') ∧
    ∀ h₀ h₁ h₂ h₃, h₀.workDir = w → Runs c h₀ h₁ → Runs c h₁ h₂ → Runs c h₂ h₃ →
      ∃ settings channels, h₂.HasSettings c w settings ∧ h₃.HasSettings c w settings ∧
        h₂.HasChannels c w channels ∧ h₃.HasChannels c w channels ∧
        (∀ key ∈ Publication.keys,
          h₃.files.entry? (c.settingPlace w key) = h₂.files.entry? (c.settingPlace w key)) ∧
        h₃.files.entry? (c.channelPlace w) = h₂.files.entry? (c.channelPlace w) := by
  constructor
  · intro h h' node hdir hlogs hstart
    rcases start_any hc hdir hlogs hstart with ⟨x, htexts, hs⟩
    exact published_of_started hs.host htexts
  · intro h₀ h₁ h₂ h₃ hdir hfirst hsecond hthird
    rcases hfirst.first hc hdir with ⟨x, hh₁⟩
    have hh₂ := hsecond.next hc hh₁
    have hh₃ := hthird.next hc hh₂
    -- with the second run the contents are settled
    rw [(Contents.settled_started_started x h₀.removalFails).started] at hh₃
    refine ⟨_, _, hh₂.tables.imp fun _ ht => ht.1, hh₃.tables.imp fun _ ht => ht.1,
      hh₂.tables.imp fun _ ht => ht.2, hh₃.tables.imp fun _ ht => ht.2, ?_,
      hh₃.container.trans hh₂.container.symm⟩
    intro key hkey
    rw [hh₃.files.setting key hkey, hh₂.files.setting key hkey]

/-- The host after a run. -/
def afterRun (c : Config) (h : Host) : Host :=
  match exec (Node.start c) h with
  | (.ok node, h') => (exec close ⟨node, h'⟩).2.host
  | (.error _, h') => h'

theorem runs_afterRun {h : Host} (hlogs : h.logging.handlers.isEmpty = true)
    (hok : (exec (Node.start c) h).1.isOk = true) : Runs c h (afterRun c h) := by
  have hown : h.logging.Own := by
    intro handler hmem
    rw [List.isEmpty_iff.1 hlogs] at hmem
    simp at hmem
  unfold afterRun
  rcases hstart : exec (Node.start c) h with ⟨r, h'⟩
  rw [hstart] at hok
  cases r with
  | error e => simp [Except.isOk, Except.toBool] at hok
  | ok node => exact ⟨h, node, h', ⟨rfl, rfl, rfl, hown⟩, hstart, rfl⟩

/-- A machine with a setting that has blanks around it, a folder and a file without text where
settings are, and a channel map. -/
def untidyHost : Host :=
  { Host.bare with
    files :=
      { entries :=
          [(["node"], .folder), (["node", ".ldk"], .folder),
            (["node", "lnstore.db"], .database
              { settings :=
                  some ⟨[⟨4, (.text "indexer_url", .text " 127.0.0.1:50001\r")⟩], none⟩ }),
            (["node", "proxy_endpoint"], .folder), (["node", "bitcoin_network"], .file [0xff]),
            (["node", ".ldk", "channel_ids"], .file ChannelMap.repeatedId)] } }

/-- The second start still changes the setting, and the third one leaves it. -/
theorem third_start_changes_nothing :
    legacyConfig.Usual [] ∧ untidyHost.workDir = [] ∧
    ∃ h₁ h₂ h₃, Runs legacyConfig untidyHost h₁ ∧ Runs legacyConfig h₁ h₂ ∧
      Runs legacyConfig h₂ h₃ ∧
      h₁.setting legacyConfig "indexer_url" = some (.text " 127.0.0.1:50001\r") ∧
      h₂.setting legacyConfig "indexer_url" = some (.text "127.0.0.1:50001") ∧
      h₃.setting legacyConfig "indexer_url" = some (.text "127.0.0.1:50001") := by
  have husual : legacyConfig.Usual [] := Config.usual_of_names [] rfl rfl (by decide +kernel)
  let h₁ := afterRun legacyConfig untidyHost
  let h₂ := afterRun legacyConfig h₁
  have hruns : (exec (Node.start legacyConfig) untidyHost).1.isOk = true ∧
      h₁.logging.handlers.isEmpty = true ∧
      h₁.setting legacyConfig "indexer_url" = some (.text " 127.0.0.1:50001\r") ∧
      (exec (Node.start legacyConfig) h₁).1.isOk = true ∧ h₂.logging.handlers.isEmpty = true ∧
      h₂.setting legacyConfig "indexer_url" = some (.text "127.0.0.1:50001") ∧
      (exec (Node.start legacyConfig) h₂).1.isOk = true := by decide +kernel
  rcases hruns with ⟨hok, hlogs₁, hbefore, hok₁, hlogs₂, hafter, hok₂⟩
  have hfirst : Runs legacyConfig untidyHost h₁ := runs_afterRun rfl hok
  have hsecond : Runs legacyConfig h₁ h₂ := runs_afterRun hlogs₁ hok₁
  have hthird : Runs legacyConfig h₂ (afterRun legacyConfig h₂) := runs_afterRun hlogs₂ hok₂
  rcases (starts_converge husual).2 untidyHost h₁ h₂ _ rfl hfirst hsecond hthird with
    ⟨settings, channels, hrows₂, hrows₃, -⟩
  refine ⟨husual, rfl, h₁, h₂, _, hfirst, hsecond, hthird, hbefore, hafter, ?_⟩
  rw [hrows₃.setting, ← hrows₂.setting, hafter]

end Node

end NodeStore
