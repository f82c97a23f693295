import NodeStore.Proofs.Alike
import NodeStore.Proofs.Node.SettingFiles
import NodeStore.Proofs.SecretStore.Runs
import NodeStore.Proofs.Store.Footprints

/-! # The stored seed and the rest of a node

The seed is in a file in the storage folder, next to the store, the published settings, legacy
files and logs. Whatever else a node does spares it: other files are written and removed, and a
relational store, even in the same file, leaves the table of seeds (`Tables.SparesSeeds`).

* `Host.Spares`: what happens to a host while nobody writes to the database of a path;
* `kept_seeded`: what a node does apart from saves and restorations keeps the stored seed;
* `open_holding`: an open node has a secret store that holds what was stored last. -/

namespace NodeStore

open Op

/-! ## Sparing a database -/

namespace FileTree

/-- All folders stay, and the database at a place, if there is one. No new one is made there. -/
structure Spares (place : Place) (t t' : FileTree) : Prop where
  folder : ∀ q, t.entry? q = some .folder → t'.entry? q = some .folder
  database : ∀ d, t'.entry? place = some (.database d) ↔ t.entry? place = some (.database d)

variable {P : Place → Prop} {t t' t'' : FileTree} {place q : Place}

theorem Alike.spares (h : Alike P t t') : t.Spares place t' where
  folder _ hq := h.entry? id hq
  database _ := ⟨h.symm.entry? id, h.entry? id⟩

theorem MadeFolders.spares (h : MadeFolders t t') : t.Spares place t' where
  folder _ hq := h.entry? hq
  database d := by
    constructor
    · intro hd
      rcases h place with hsame | ⟨-, hfolder⟩
      · rw [← hsame]
        exact hd
      · have hboth := hfolder.symm.trans hd
        simp at hboth
    · exact h.entry?

/-- Writing at another place, where no folder is. -/
theorem spares_put {e : FileEntry} (hne : q ≠ place) (hq : t.entry? q ≠ some .folder) :
    t.Spares place (t.put q e) where
  folder r hr := by
    rw [entry?_put_ne ?_, hr]
    rintro rfl
    exact hq hr
  database d := by rw [entry?_put_ne (Ne.symm hne)]

/-- Removing a file of bytes. -/
theorem spares_erase {b : Bytes} (hq : t.entry? q = some (.file b)) :
    t.Spares place (t.erase q) := by
  have hother : ∀ {r e}, t.entry? r = some e → e ≠ .file b → r ≠ q := by
    rintro r e hr he rfl
    exact he (Option.some.inj (hr.symm.trans hq))
  constructor
  · intro r hr
    rw [entry?_erase_ne (hother hr nofun), hr]
  · intro d
    constructor
    · intro hd
      by_cases hplace : place = q
      · rw [hplace, entry?_erase_self (ne_root_of_entry hq nofun)] at hd
        simp at hd
      · rwa [entry?_erase_ne hplace] at hd
    · intro hd
      rw [entry?_erase_ne (hother hd nofun), hd]

end FileTree

namespace Host

variable {h h' h'' : Host} {p : Path} {v : Vault} {last : Option Stored}

/-- The database of a path is as before, if it was there, and was not made otherwise. -/
structure Spares (p : Path) (h h' : Host) : Prop where
  cipher : h'.cipher = h.cipher
  place : p.placeFrom h'.workDir = p.placeFrom h.workDir
  holds : ∀ tables, h.Holds p tables → h'.Holds p tables
  made : ∀ tables, h'.files.entry? (p.placeFrom h'.workDir) = some (.database tables) →
    h.files.entry? (p.placeFrom h.workDir) = some (.database tables)

theorem spares_entropy (h : Host) (entropy : Entropy) : h.Spares p { h with entropy } :=
  ⟨rfl, rfl, fun _ hold => hold, fun _ hentry => hentry⟩

theorem spares_of_files (hcipher : h'.cipher = h.cipher) (hdir : h'.workDir = h.workDir)
    (hfiles : h.files.Spares (p.placeFrom h.workDir) h'.files) : h.Spares p h' where
  cipher := hcipher
  place := by rw [hdir]
  holds := by
    rintro tables ⟨hres, hentry⟩
    rw [Holds, hdir]
    exact ⟨FileTree.resolve_of_folders hfiles.folder hres, (hfiles.database tables).2 hentry⟩
  made tables hentry := by
    rw [hdir] at hentry
    exact (hfiles.database tables).1 hentry

theorem spares_emit (h : Host) (l : LogLine) : h.Spares p (h.emit l) :=
  spares_of_files rfl rfl
    (alike_emit (P := fun _ => True) (fun _ _ _ _ => trivial) l).files.spares

/-! ## What is stored -/

/-- The database of a path holds the seed that was stored last; if none was, its table of seeds is
new, or there is no such table. -/
def HasSeed (p : Path) (v : Vault) (h : Host) : Option Stored → Prop
  | none => ∀ tables t, h.files.entry? (p.placeFrom h.workDir) = some (.database tables) →
      tables.seeds = some t → t.Stores v none
  | some stored => h.FileHas p fun tables =>
      ∃ t, tables.seeds = some t ∧ t.Stores v (some stored)

theorem HasSeed.spared (hs : h.HasSeed p v last) (hspares : h.Spares p h') :
    h'.HasSeed p v last := by
  cases last with
  | none => exact fun tables t hentry => hs tables t (hspares.made tables hentry)
  | some stored =>
    rcases hs with ⟨tables, hold, hstores⟩
    exact ⟨tables, hspares.holds tables hold, hstores⟩

/-- A database with a table of seeds holds what was stored last. -/
theorem HasSeed.table {tables : Tables} (hs : h.HasSeed p v last) (hold : h.Holds p tables)
    (hseeds : tables.seeds ≠ none) : ∃ t, tables.seeds = some t ∧ t.Stores v last := by
  cases last with
  | none =>
    rcases Option.ne_none_iff_exists'.1 hseeds with ⟨t, ht⟩
    exact ⟨t, ht, hs tables t hold.2 ht⟩
  | some stored =>
    rcases hs with ⟨tables', hold', hstores⟩
    have hboth := hold.2.symm.trans hold'.2
    obtain rfl : tables = tables' := by simpa using hboth
    exact hstores

end Host

/-- The table of seeds stays, or a new one is made. -/
def Tables.SparesSeeds (old new : Tables) : Prop :=
  new.seeds = old.seeds ∨ old.seeds = none ∧ ∃ t, new.seeds = some t ∧ t.rows = [] ∧
    t.nextId = SecretStore.phraseId

theorem allows_sparesSeeds : Allows Tables.SparesSeeds where
  same _ := Or.inl rfl
  createMissing t := by
    cases hseeds : t.seeds with
    | none => exact Or.inr ⟨hseeds, {}, by rw [Tables.createMissing, hseeds]; rfl, rfl, rfl⟩
    | some seeds => exact Or.inl (by rw [Tables.createMissing, hseeds]; rfl)
  createSeeds t := by
    cases hseeds : t.seeds with
    | none =>
      exact Or.inr
        ⟨hseeds, { lastId := some 0 }, by rw [Tables.createSeeds, hseeds]; rfl, rfl, rfl⟩
    | some seeds => exact Or.inl (by rw [Tables.createSeeds, hseeds]; rfl)
  channels _ _ := Or.inl rfl

theorem allowsSaves_sparesSeeds : AllowsSaves Tables.SparesSeeds where
  same _ := Or.inl rfl
  settings _ _ := Or.inl rfl

/-- The host has a cipher, and the seed that was stored last. -/
structure Host.Seeded (c : Config) (cipher : TokenCipher) (last : Option Stored) (h : Host) :
    Prop where
  sameCipher : h.cipher = cipher
  seed : h.HasSeed c.secretPath ⟨cipher, c.iterations⟩ last

variable {c : Config} {cipher : TokenCipher} {last : Option Stored}

theorem Host.Seeded.spared {h h' : Host} (hs : h.Seeded c cipher last)
    (hspares : h.Spares c.secretPath h') : h'.Seeded c cipher last :=
  ⟨hspares.cipher.trans hs.sameCipher, hs.seed.spared hspares⟩

/-- Changes of tables that spare the seeds keep what is stored. -/
theorem keptByStore_seeded :
    KeptByStore c Tables.SparesSeeds (Host.Seeded c cipher last) where
  emit h l hs := hs.spared (h.spares_emit l)
  tables := by
    rintro h p place old new hp hdb hR ⟨hcipher, hseed⟩
    refine ⟨hcipher, ?_⟩
    cases last with
    | none =>
      intro tables t hentry ht
      by_cases hplace : c.secretPath.placeFrom h.workDir = place
      · -- the tables are those that were put there
        have hroot : place ≠ [] := by
          rintro rfl
          exact Host.databaseAt_ne_folder hdb (FileTree.entry?_root _)
        have hput := (FileTree.entry?_put_self hroot (.database new)).symm.trans
          (hplace ▸ hentry)
        obtain rfl : new = tables := by simpa using hput
        rcases hR with hsame | ⟨-, t', ht', hrows, hnext⟩
        · rcases (Host.databaseAt_ok hdb).2.2 with hold | ⟨rfl, -⟩
          · exact hseed old t (hplace ▸ hold) (hsame ▸ ht)
          · rw [hsame] at ht
            simp at ht
        · obtain rfl : t' = t := Option.some.inj (ht'.symm.trans ht)
          exact ⟨hrows, hnext⟩
      · exact hseed tables t ((FileTree.entry?_put_ne hplace _).symm.trans hentry) ht
    | some stored =>
      have hkept := Host.keptByStore_fileHas (c := c) (R := Tables.SparesSeeds)
        (p := c.secretPath)
        (P := fun tables => ∃ t, tables.seeds = some t ∧
          t.Stores ⟨cipher, c.iterations⟩ (some stored))
        (by
          rintro old new (hsame | ⟨hnone, -⟩) ⟨t, ht, hstores⟩
          · exact ⟨t, hsame.trans ht, hstores⟩
          · simp [hnone] at ht)
      exact hkept.tables h p place old new hp hdb hR hseed

/-- The file of the secret store has a name that no published setting has. -/
theorem secretPlace_ne (hname : c.secretName = SecretHandle.defaultName) (workDir : Place)
    {key : String} (hkey : key ∈ Publication.keys) :
    (c.settingFile key).placeFrom workDir ≠ c.secretPath.placeFrom workDir := by
  have hplain : FileTree.PlainName SecretHandle.defaultName := by decide +kernel
  have hother : ∀ key ∈ Publication.keys, key ≠ SecretHandle.defaultName := by decide +kernel
  intro heq
  rw [Config.settingFile, (plainName_of_published hkey).placeFrom, Config.secretPath, hname,
    hplain.placeFrom] at heq
  have hnames := List.append_cancel_left heq
  exact hother key hkey (List.head_eq_of_cons_eq hnames)

/-- Opening a node keeps what is stored. -/
theorem keptByOpening_seeded :
    KeptByOpening c Tables.SparesSeeds (Host.Seeded c cipher last) where
  toKeptByStore := keptByStore_seeded
  allows := allows_sparesSeeds
  folders _ _ hmade hs := hs.spared (Host.spares_of_files rfl rfl hmade.spares)

/-- All that a node does apart from saves and restorations keeps what is stored. -/
theorem kept_seeded (hname : c.secretName = SecretHandle.defaultName) :
    Kept c Tables.SparesSeeds (Host.Seeded c cipher last) where
  toKeptByOpening := keptByOpening_seeded
  publish := by
    intro h key text place hkey hres hfolder hs
    refine hs.spared (Host.spares_of_files rfl rfl (FileTree.spares_put ?_ hfolder))
    rw [FileTree.place_eq_of_resolve hres]
    exact secretPlace_ne hname h.workDir hkey
  remove _ _ _ _ hfile hs :=
    hs.spared (Host.spares_of_files rfl rfl (FileTree.spares_erase hfile))

/-! ## An open node -/

/-- An operation that only looks at the table draws random bytes at most, and logs. -/
theorem SecretHandle.run_look {α : Type} {op : SecretStore → SecretM α}
    (hlook : ∀ store u, (exec (op store) u).2.seeds = u.seeds) (s : SecretHandle) (h : Host) :
    ∃ entropy ls, (exec (s.run op) h).2 = ({ h with entropy } : Host).emitAll ls := by
  rw [exec_run_eq]
  have hseeds := hlook (s.store h) (s.start h)
  generalize exec (op (s.store h)) (s.start h) = result at hseeds
  rcases result with ⟨r, u⟩
  refine ⟨u.entropy, u.log, ?_⟩
  have hback : s.writeBack u.seeds { h with entropy := u.entropy } =
      { h with entropy := u.entropy } := by
    unfold writeBack
    split
    · rfl
    · rename_i hopen
      cases hdb : h.databaseAt s.path with
      | error fault =>
        have hdb' : Host.databaseAt { h with entropy := u.entropy } s.path = .error fault := hdb
        rw [hdb']
      | ok found =>
        have hdb' : Host.databaseAt { h with entropy := u.entropy } s.path = .ok found := hdb
        have hsame : u.seeds = found.2.seeds := by
          rw [hseeds]
          simp only [start, hopen, hdb, Bool.false_eq_true, if_false]
        rw [hdb']
        exact if_pos hsame
  simp only [hback]

namespace Node

variable {h h' : Host} {node : Node}

/-- Looking at the seed changes nothing that matters to it. -/
theorem keeps_look {α : Type} {op : SecretStore → SecretM α}
    (hlook : ∀ store u, (exec (op store) u).2.seeds = u.seeds) :
    Keeps (Of c (Host.Seeded c cipher last)) (onSecret op) := by
  unfold onSecret
  refine keeps_get_bind fun s hs => ?_
  rw [exec_onHost]
  refine ⟨hs.config, hs.storePath, hs.secretPath, ?_⟩
  rcases SecretHandle.run_look hlook s.node.secret s.host with ⟨entropy, ls, hrun⟩
  simp only [hrun]
  apply Host.emitAll_keeps keptByStore_seeded.emit
  exact hs.host.spared (s.host.spares_entropy entropy)

/-- The secret store of an open node is open, and has its table. -/
theorem open_secret (hopen : exec (Node.open c) h = (.ok node, h')) :
    node.secret = { path := c.secretPath, iterations := c.iterations } ∧
      ∃ tables, h'.Holds c.secretPath tables ∧ tables.seeds ≠ none := by
  rcases open_steps hopen with ⟨-, h₁, h₂, h₃, h₄, -, -, -, hsecret, rfl⟩
  rcases SecretHandle.open_ok hsecret with ⟨hhandle, tables, hold⟩
  exact ⟨hhandle, tables.createSeeds, hold.emit _, nofun⟩

/-- An open node has a secret store that holds what was stored last. -/
theorem open_holding (hcipher : cipher.Lawful) (hs : h.Seeded c cipher last)
    (hopen : exec (Node.open c) h = (.ok node, h')) :
    node.secret = { path := c.secretPath, iterations := c.iterations } ∧
      node.secret.Holding ⟨h', last⟩ := by
  have hs' := (keeps_open keptByOpening_seeded).after hs hopen
  rcases open_secret hopen with ⟨hhandle, tables, hold, hseeds⟩
  rcases hs'.seed.table hold hseeds with ⟨t, ht, hstores⟩
  have hvault : (⟨h'.cipher, c.iterations⟩ : Vault) = ⟨cipher, c.iterations⟩ := by
    rw [hs'.sameCipher]
  rw [hhandle]
  exact ⟨rfl, by rw [hs'.sameCipher]; exact hcipher, tables, t, hold, ht, hvault ▸ hstores⟩

end Node

/-- What an open secret store holds is stored on its host. -/
theorem SecretHandle.Holding.seeded {s : SecretHandle} {tr : Trace} (hh : s.Holding tr)
    (hs : s = { path := c.secretPath, iterations := c.iterations }) :
    tr.host.Seeded c tr.host.cipher tr.last := by
  subst hs
  rcases hh.table with ⟨tables, t, hold, ht, hstores⟩
  refine ⟨rfl, ?_⟩
  cases hlast : tr.last with
  | none =>
    intro tables' t' hentry ht'
    have hboth := hold.2.symm.trans hentry
    obtain rfl : tables = tables' := by simpa using hboth
    obtain rfl : t = t' := Option.some.inj (ht.symm.trans ht')
    exact hlast ▸ hstores
  | some stored => exact ⟨tables, hold, t, ht, hlast ▸ hstores⟩

end NodeStore
