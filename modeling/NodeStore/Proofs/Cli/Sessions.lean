import NodeStore.Proofs.Cli.Seed
import NodeStore.Proofs.Node.Deployments
import NodeStore.Proofs.Node.Reopening

/-! # A seed over many commands

Commands are carried out one after the other on one host with one configuration, and in between
anything may happen that spares the database of the seed (`Leads`): a command line sets up its log
before its command is carried out, for one. The seed that a command has stored is the one that later
commands find, until a restoration succeeds (`stored_seed_is_kept`). A restoration is not refused,
and its phrase takes the place of the seed (`restoration_replaces_seed`). -/

namespace NodeStore.Cli

open Op
open SecretHandle (Trace)

/-- What comes of a host and its seed by commands of some kind, and by whatever else happens while
nobody else writes to the database of the seed. -/
inductive Leads (c : Config) (P : Host → Command → Prop) (tr : Trace) : Trace → Prop where
  | refl : Leads c P tr tr
  | command {tr' : Trace} (cmd : Command) : Leads c P tr tr' → P tr'.host cmd →
      Leads c P tr (cmd.carryOut c tr')
  | other {tr' : Trace} {host : Host} : Leads c P tr tr' → tr'.host.Spares c.secretPath host →
      Leads c P tr ⟨host, tr'.last⟩

/-- The command is no restoration, or one that fails. -/
def Restoreless (c : Config) (h : Host) (cmd : Command) : Prop :=
  ∀ password, cmd = .restore password → cmd.stores c h = none

variable {c : Config} {P : Host → Command → Prop} {cipher : TokenCipher} {tr tr' : Trace}
  {h : Host} {stored : Stored}

/-! ## Runs -/

theorem Leads.seeded (hname : c.secretName = SecretHandle.defaultName) (hcipher : cipher.Lawful)
    (hs : tr.host.Seeded c cipher tr.last) (hlead : Leads c P tr tr') :
    tr'.host.Seeded c cipher tr'.last := by
  induction hlead with
  | refl => exact hs
  | command cmd _ _ ih => exact Command.seeded_carryOut hname hcipher ih cmd
  | other _ hspares ih => exact ih.spared hspares

/-- Once a seed is stored only a restoration stores another one. -/
theorem stores_eq_none (hcipher : cipher.Lawful) (hs : h.Seeded c cipher (some stored))
    {cmd : Command} (hcmd : Restoreless c h cmd) :
    cmd.stores c h = none := by
  cases cmd with
  | init given password =>
    rw [Command.stores, Command.init_refused hcipher hs]
    cases (exec (Node.open c) h).1 <;> rfl
  | restore password => exact hcmd password rfl
  | _ => rfl

theorem Leads.last (hname : c.secretName = SecretHandle.defaultName) (hcipher : cipher.Lawful)
    (hs : tr.host.Seeded c cipher tr.last) (hlast : tr.last = some stored)
    (hlead : Leads c (Restoreless c) tr tr') : tr'.last = some stored := by
  induction hlead with
  | refl => exact hlast
  | command cmd hlead hcmd ih =>
    have hs' := hlead.seeded hname hcipher hs
    rw [ih] at hs'
    rw [Command.carryOut, stores_eq_none hcipher hs' hcmd, Option.none_or, ih]
  | other _ _ ih => exact ih

/-! ## A machine with a backup -/

open Deployment (rootConfig)

/-- A storage folder with a store, the database of a seed, and a file with a sealed phrase. -/
def backupHost (tables : Tables) (backup : Bytes) : Host :=
  { Host.bare with
    files := ⟨[(["node"], .folder), (["node", ".ldk"], .folder),
      (["node", "lnstore.db"], .database (Tables.createMissing {})),
      (["node", "rln_db"], .database tables), (["node", "mnemonic"], .file backup)]⟩ }

theorem rootConfig_secretPath : rootConfig.secretPath = ⟨.root, ["node", "rln_db"]⟩ := by
  decide +kernel

section

variable {tables : Tables} {backup : Bytes}

theorem resolve_storageDir :
    (backupHost tables backup).files.resolve (backupHost tables backup).workDir
      rootConfig.storageDir = .ok ["node"] := by
  have hplain : FileTree.PlainName "node" := by decide +kernel
  have hpath : rootConfig.storageDir = Path.mk .root [] / "node" :=
    (hplain.div (Path.mk .root [])).symm
  have hroot : (backupHost tables backup).files.entry? [] = some .folder := rfl
  rw [hpath]
  exact hplain.resolve rfl hroot

theorem resolve_backupHost {name : String} (hname : FileTree.PlainName name) :
    (backupHost tables backup).files.resolve (backupHost tables backup).workDir
      (rootConfig.storageDir / name) = .ok ["node", name] := by
  have hfolder : (backupHost tables backup).files.entry? ["node"] = some .folder := rfl
  exact hname.resolve resolve_storageDir hfolder

theorem holds_backupHost :
    (backupHost tables backup).Holds rootConfig.secretPath tables := by
  have hplain : FileTree.PlainName rootConfig.secretName := by decide +kernel
  have hplace : rootConfig.secretPath.placeFrom (backupHost tables backup).workDir =
      ["node", "rln_db"] := hplain.placeFrom rootConfig.storageDir _
  rw [Host.Holds, hplace]
  exact ⟨resolve_backupHost hplain, rfl⟩

/-- The files of the storage folder may be others from one command to the next. -/
theorem spares_backupHost (hcipher : h.cipher = .fernet)
    (hold : h.Holds rootConfig.secretPath tables) (backup : Bytes) :
    h.Spares rootConfig.secretPath (backupHost tables backup) where
  cipher := hcipher.symm
  place := by
    rw [rootConfig_secretPath]
    rfl
  holds := by
    intro tables' hold'
    have hboth := hold.2.symm.trans hold'.2
    obtain rfl : tables = tables' := by simpa using hboth
    exact holds_backupHost
  made := by
    intro tables' hentry
    have hboth := holds_backupHost.2.symm.trans hentry
    obtain rfl : tables = tables' := by simpa using hboth
    exact hold.2

theorem open_backupHost (hseeds : tables.seeds ≠ none) (backup : Bytes) :
    ∃ node opened, exec (Node.open rootConfig) (backupHost tables backup) = (.ok node, opened) ∧
      opened.files.resolve opened.workDir (rootConfig.storageDir / SecretHandle.phraseFile) =
        .ok ["node", "mnemonic"] ∧
      opened.files.entry? ["node", "mnemonic"] = some (.file backup) := by
  have hown : (backupHost tables backup).logging.Own := by simp [Logging.Own, backupHost, Host.bare]
  have hstorePath : rootConfig.storeFile = rootConfig.storePath := by decide +kernel
  have hstore : (backupHost tables backup).Holds rootConfig.storeFile
      (Tables.createMissing {}) := by
    have hplain : FileTree.PlainName rootConfig.storeName := by decide +kernel
    have hplace : rootConfig.storePath.placeFrom (backupHost tables backup).workDir =
        ["node", "lnstore.db"] := hplain.placeFrom rootConfig.storageDir _
    rw [hstorePath, Host.Holds, hplace]
    exact ⟨resolve_backupHost hplain, rfl⟩
  have hstorage : (backupHost tables backup).files.FolderAt (backupHost tables backup).workDir
      rootConfig.storageDir := ⟨resolve_storageDir, rfl⟩
  have hprotocol : (backupHost tables backup).files.FolderAt (backupHost tables backup).workDir
      rootConfig.protocolDataDir := by
    have hplain : FileTree.PlainName ".ldk" := by decide +kernel
    have hplace : rootConfig.protocolDataDir.placeFrom (backupHost tables backup).workDir =
        ["node", ".ldk"] := hplain.placeFrom rootConfig.storageDir _
    rw [FileTree.FolderAt, hplace]
    exact ⟨resolve_backupHost hplain, rfl⟩
  have hserves : (backupHost tables backup).Serves rootConfig true {} :=
    ⟨⟨fun _ => hown, hstorage, hprotocol, Or.inr (Or.inl hstorePath)⟩,
      ⟨_, hstore, .ofNothing (Tables.complete_createMissing {})⟩,
      ⟨tables, holds_backupHost, hseeds⟩⟩
  rcases hserves.exec_open with ⟨opened, hopen, -, halike⟩
  refine ⟨_, opened, hopen, ?_, ?_⟩
  · rw [halike.workDir]
    exact halike.files.resolve_iff.2 (resolve_backupHost SecretHandle.plainName_phraseFile)
  · rw [halike.files.entry?_eq]
    · rfl
    · intro hlog
      exact absurd (hlog rfl) (by decide)

end

theorem bare_no_seed (tables : Tables) :
    Host.bare.files.entry? (rootConfig.secretPath.placeFrom Host.bare.workDir) ≠
      some (.database tables) := by
  have hnone : Host.bare.files.entry? (rootConfig.secretPath.placeFrom Host.bare.workDir) = none :=
    rfl
  simp [hnone]

theorem seeded_bare : Host.bare.Seeded rootConfig .fernet none :=
  ⟨rfl, fun tables _ hentry => absurd hentry (bare_no_seed tables)⟩

theorem derives_rootConfig (cipher : TokenCipher) :
    (⟨cipher, rootConfig.iterations⟩ : Vault).Derives "p" :=
  Vault.derives_ofString (by change (1 : Int) ≤ rootConfig.iterations; decide)
    (by change rootConfig.iterations ≤ _; decide) (by decide)

/-- A first initialization with a phrase that is given. -/
def firstInit : Command :=
  .init (some SecretHandle.typedPhrase) "p"

/-- On a machine with nothing on it the phrase is stored. -/
theorem stores_firstInit :
    firstInit.stores rootConfig Host.bare = some ⟨"p", SecretHandle.typedPhrase⟩ := by
  have hok : (exec (Node.open rootConfig) Host.bare).1.isOk = true := by decide +kernel
  rcases hopen : exec (Node.open rootConfig) Host.bare with ⟨r, h₁⟩
  rw [hopen] at hok
  cases r with
  | error e => simp [Except.isOk, Except.toBool] at hok
  | ok node =>
    rcases Node.open_holding TokenCipher.fernet_lawful seeded_bare hopen with
      ⟨hsecret, hheld⟩
    have hderives : (node.secret.store h₁).vault.Derives "p" := by
      rw [hsecret]
      exact derives_rootConfig h₁.cipher
    have hclosed : node.secret.closed = false := by rw [hsecret]
    have hparse : (SeedPhrase.parse? SecretHandle.typedPhrase).isSome = true := by
      rw [SecretHandle.parse_typedPhrase]
      rfl
    have hanswer := Command.exec_initWork_given (s := ⟨node, h₁⟩) hheld hclosed hderives (by decide)
      hparse
    have hnode : exec (firstInit.node rootConfig) Host.bare = (.ok node, h₁) := hopen
    rcases hwork : exec firstInit.work ⟨node, h₁⟩ with ⟨r, s⟩
    have hr : r = (exec firstInit.work ⟨node, h₁⟩).1 := by rw [hwork]
    rw [firstInit, hanswer] at hr
    rw [firstInit, Command.stores, ← firstInit, Command.exec_onNode_of_ok hnode hwork, hr]
    rfl

/-- The machine after the first initialization. -/
def afterInit : Trace :=
  firstInit.carryOut rootConfig ⟨Host.bare, none⟩

theorem last_afterInit : afterInit.last = some ⟨"p", SecretHandle.typedPhrase⟩ := by
  rw [afterInit, Command.carryOut, stores_firstInit, Option.some_or]

theorem seeded_afterInit : afterInit.host.Seeded rootConfig .fernet afterInit.last :=
  Command.seeded_carryOut rfl TokenCipher.fernet_lawful seeded_bare firstInit

/-! ## The stored seed -/

/-- A machine without a database of the seed, where commands are carried out one after the other
and nobody else writes to that database. The seed that a command has stored is kept by all later
commands but restorations that succeed.

* A secret store at the path of the configuration gets it with its password, whatever has become of
  the other files.
* If a node can be opened, the password unlocks it, and an initialization is refused.
* A command that is no restoration stores no other seed. -/
theorem stored_seed_is_kept {start : Host} {cmd : Command}
    (hname : c.secretName = SecretHandle.defaultName) (hcipher : start.cipher.Lawful)
    (hnew : ∀ tables,
      start.files.entry? (c.secretPath.placeFrom start.workDir) ≠ some (.database tables))
    (hbefore : Leads c (fun _ _ => True) ⟨start, none⟩ tr)
    (hstored : cmd.stores c tr.host = some stored)
    (hafter : Leads c (Restoreless c) (cmd.carryOut c tr) tr') :
    ∃ kept, SeedPhrase.parse? stored.phrase = some kept ∧
      (∃ opened, exec (SecretHandle.open c.secretPath c.iterations) tr'.host =
          (.ok { path := c.secretPath, iterations := c.iterations }, opened) ∧
        (exec (SecretHandle.run { path := c.secretPath, iterations := c.iterations } fun store =>
          store.get stored.password) opened).1 = .ok kept) ∧
      (∀ node opened, exec (Node.open c) tr'.host = (.ok node, opened) →
        ((Command.unlock stored.password).run c tr'.host).1 =
            ⟨Reply.line s!"✓ Unlocked ({(Text.words kept).length}-word seed)", .done⟩ ∧
          ∀ given password, ((Command.init given password).run c tr'.host).1 =
            ⟨"", .refused "Node has already been initialized"⟩) ∧
      ∀ cmd' : Command, (∀ password, cmd' ≠ .restore password) →
        cmd'.stores c tr'.host = none := by
  have hstart : start.Seeded c start.cipher none :=
    ⟨rfl, fun tables t hentry => absurd hentry (hnew tables)⟩
  have hs := Command.seeded_carryOut hname hcipher (hbefore.seeded hname hcipher hstart) cmd
  have hlast : (cmd.carryOut c tr).last = some stored := by
    rw [Command.carryOut, hstored, Option.some_or]
  have hs' := hafter.seeded hname hcipher hs
  rw [hafter.last hname hcipher hs hlast] at hs'
  rcases Command.open_gets hs' with ⟨kept, opened, hparse, hopen, hget⟩
  refine ⟨kept, hparse, ⟨opened, hopen, hget⟩, ?_, ?_⟩
  · intro node opened hnode
    constructor
    · rcases Command.unlock_opens hcipher hs' with ⟨kept', hparse', hunlock⟩
      obtain rfl : kept = kept' := Option.some.inj (hparse.symm.trans hparse')
      rw [hnode] at hunlock
      have hrun : ((Command.unlock stored.password).run c tr'.host).1 =
          Command.outcome (exec (Command.onNode (.unlock stored.password) c) tr'.host).1 := rfl
      rw [hrun, hunlock]
      rfl
    · intro given password
      have hrefused := Command.init_refused hcipher hs' given password
      rw [hnode] at hrefused
      have hrun : ((Command.init given password).run c tr'.host).1 =
          Command.outcome (exec (Command.onNode (.init given password) c) tr'.host).1 := rfl
      rw [hrun, hrefused]
      rfl
  · intro cmd' hcmd'
    exact stores_eq_none hcipher hs' fun password heq => absurd heq (hcmd' password)

/-- A phrase stays after a setting was saved and a second initialization was refused. -/
theorem first_seed_stays :
    rootConfig.secretName = SecretHandle.defaultName ∧ Host.bare.cipher.Lawful ∧
      (∀ tables, Host.bare.files.entry? (rootConfig.secretPath.placeFrom Host.bare.workDir) ≠
        some (.database tables)) ∧
      Leads rootConfig (fun _ _ => True) ⟨Host.bare, none⟩ ⟨Host.bare, none⟩ ∧
      firstInit.stores rootConfig Host.bare = some ⟨"p", SecretHandle.typedPhrase⟩ ∧
      ∃ tr', Leads rootConfig (Restoreless rootConfig)
          (firstInit.carryOut rootConfig ⟨Host.bare, none⟩) tr' ∧
        ((Command.unlock "p").run rootConfig tr'.host).1 =
          ⟨Reply.line "✓ Unlocked (12-word seed)", .done⟩ ∧
        ((Command.init none "q").run rootConfig tr'.host).1 =
          ⟨"", .refused "Node has already been initialized"⟩ := by
  have hcipher : Host.bare.cipher.Lawful := TokenCipher.fernet_lawful
  have hbegun : Leads rootConfig (Restoreless rootConfig) afterInit afterInit := .refl
  have hsaved := hbegun.command (.saveSetting "indexer_url" "127.0.0.1:50001" true) nofun
  have hagain := hsaved.command (.init none "q") nofun
  -- a machine on which a node can be opened
  have hs := hagain.seeded rfl hcipher seeded_afterInit
  rw [hagain.last rfl hcipher seeded_afterInit last_afterInit] at hs
  rcases hs.seed with ⟨tables, hold, t, hseeds, -⟩
  have hleads := hagain.other (spares_backupHost hs.sameCipher hold [])
  have hne : tables.seeds ≠ none := by simp [hseeds]
  rcases open_backupHost hne [] with ⟨node, opened, hopen, -⟩
  obtain ⟨kept, hparse, -, hanswers, -⟩ :=
    stored_seed_is_kept rfl hcipher bare_no_seed .refl stores_firstInit hleads
  rcases hanswers node opened hopen with ⟨hunlock, hrefused⟩
  obtain rfl : SecretHandle.keptPhrase = kept :=
    Option.some.inj (SecretHandle.parse_typedPhrase.symm.trans hparse)
  have hwords : (Text.words SecretHandle.keptPhrase).length = 12 := by decide +kernel
  rw [hwords] at hunlock
  exact ⟨rfl, hcipher, bare_no_seed, .refl, stores_firstInit, _, hleads, hunlock,
    hrefused none "q"⟩

/-- Another phrase. -/
def backupPhrase : String :=
  "abandon abandon abandon abandon abandon abandon abandon abandon abandon abandon abandon actual"

/-- A restoration is carried out although a seed is stored, and after it the password gets another
phrase. -/
theorem restoration_replaces_seed :
    Host.bare.cipher.Lawful ∧
      firstInit.stores rootConfig Host.bare = some ⟨"p", SecretHandle.typedPhrase⟩ ∧
      ∃ tr, Leads rootConfig (fun _ _ => True)
          (firstInit.carryOut rootConfig ⟨Host.bare, none⟩) tr ∧
        ((Command.restore "p").run rootConfig tr.host).1 =
          ⟨Reply.line "✓ Mnemonic migrated to database", .done⟩ ∧
        ∃ opened, exec (SecretHandle.open rootConfig.secretPath rootConfig.iterations)
            ((Command.restore "p").run rootConfig tr.host).2 =
            (.ok { path := rootConfig.secretPath, iterations := rootConfig.iterations }, opened) ∧
          (exec (SecretHandle.run
            { path := rootConfig.secretPath, iterations := rootConfig.iterations } fun store =>
              store.get "p") opened).1 = .ok backupPhrase ∧
          SeedPhrase.parse? SecretHandle.typedPhrase ≠ some backupPhrase := by
  have hcipher : Host.bare.cipher.Lawful := TokenCipher.fernet_lawful
  have hbegun : Leads rootConfig (fun _ _ => True) afterInit afterInit := .refl
  have hs := seeded_afterInit
  rw [last_afterInit] at hs
  rcases hs.seed with ⟨tables, hold, t, hseeds, -⟩
  -- the backup is sealed on the side under the same password
  let vault : Vault := ⟨.fernet, rootConfig.iterations⟩
  have hlawful : vault.cipher.Lawful := hcipher
  have hwords : SeedPhrase.wordsOf backupPhrase = List.replicate 11 "abandon" ++ ["actual"] := by
    decide +kernel
  have hparse : SeedPhrase.parse? backupPhrase = some backupPhrase :=
    (SeedPhrase.parse?_of_wordsOf hwords (by decide +kernel)).trans
      (congrArg some (by decide +kernel))
  obtain ⟨sealedText, f, hseal⟩ :=
    (derives_rootConfig .fernet).exists_encrypt 0 backupPhrase (Entropy.ofBytes [])
  rw [← Vault.exec_sealPhrase hparse] at hseal
  have hbackup : SecretHandle.FileOpens vault "p" (Utf8.encode sealedText) backupPhrase :=
    SecretHandle.fileOpens_of_sealPhrase hlawful hparse hseal
  generalize Utf8.encode sealedText = backup at hbackup
  have hspares := spares_backupHost hs.sameCipher hold backup
  have hs₁ := hs.spared hspares
  have hne : tables.seeds ≠ none := by simp [hseeds]
  rcases open_backupHost hne backup with ⟨node, opened, hopen, hres, hfile⟩
  have hphrase := Command.restoration_ok hcipher hs₁ hopen hres hfile hbackup
  have hs₂ := Command.seeded_restore hcipher hs₁ "p"
  have hanswer := Command.onNode_restore rootConfig "p" (backupHost tables backup)
  rw [Command.stores, hphrase] at hs₂
  rw [hphrase] at hanswer
  rcases hrun : exec (Command.onNode (.restore "p") rootConfig) (backupHost tables backup) with
    ⟨r, restored⟩
  rw [hrun] at hs₂ hanswer
  obtain rfl : r = .ok .restored := hanswer
  have hcommand := Command.run_of_onNode rfl hrun
  rcases Command.open_gets hs₂ with ⟨kept, opened', hparse', hopen', hget⟩
  obtain rfl : backupPhrase = kept := Option.some.inj (hparse.symm.trans hparse')
  have hother : SeedPhrase.parse? SecretHandle.typedPhrase ≠ some backupPhrase := by
    rw [SecretHandle.parse_typedPhrase]
    decide
  refine ⟨hcipher, stores_firstInit, _, hbegun.other hspares, ?_, opened', ?_, hget, hother⟩
  · rw [hcommand]
    rfl
  · rw [hcommand]
    exact hopen'

end NodeStore.Cli
