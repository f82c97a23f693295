import NodeStore.Proofs.Cli.Commands
import NodeStore.Proofs.Node.StoredSeed
import NodeStore.Proofs.SecretStore.Restoration

/-! # What a command makes of the seed

A seed is stored by an initialization, which is refused if there is one already, and by a
restoration, which is not (`Command.stores`). The other commands leave what is stored.

* `seeded_carryOut`: after a command the host has the seed that was stored last;
* `init_refused`, `unlock_opens`: what is answered while a seed is stored;
* `restoration_ok`: what is restored, also then. -/

namespace NodeStore.Cli

open Op
open SecretHandle (Trace Use)

namespace Command

/-! ## What commands store -/

/-- What an initialization has stored, by its answer. -/
def initialSeed (given : Option String) (password : RawText) : Except Failure Reply → Option Stored
  | .ok (.initialized new) => some ⟨password, new.getD (given.getD "")⟩
  | _ => none

/-- Opens a node and restores the phrase in its storage folder. -/
def restoration (c : Config) (password : RawText) : HostM String := do
  let node ← Node.open c
  node.secret.restore c.storageDir password

/-- What a command stores on a host, if it stores a seed. -/
def stores (c : Config) (h : Host) : Command → Option Stored
  | init given password => initialSeed given password (exec (onNode (.init given password) c) h).1
  | restore password =>
    (exec (restoration c password) h).1.toOption.map fun phrase => ⟨password, phrase⟩
  | _ => none

/-- Carries a command out; the seed that it stores is the last one from then on. -/
def carryOut (c : Config) (tr : Trace) (cmd : Command) : Trace :=
  ⟨(cmd.run c tr.host).2, (cmd.stores c tr.host).or tr.last⟩

variable {c : Config} {cipher : TokenCipher} {last : Option Stored} {h h' : Host} {s s' : NodeState}
  {given : Option String} {password : RawText} {r : Except Failure Reply}

/-- What the secret store of a node holds is stored on the host once the node is closed. -/
theorem seeded_close {node : Node} {stored : Option Stored}
    (hof : Node.Of c (Host.Seeded c cipher last) ⟨node, h⟩)
    (hsecret : node.secret = { path := c.secretPath, iterations := c.iterations })
    (hcipher : h'.cipher = h.cipher) (hheld : node.secret.Holding ⟨h', stored⟩) :
    (exec Node.close ⟨node, h'⟩).2.host.Seeded c cipher stored := by
  have hs := hheld.seeded hsecret
  rw [show (Trace.mk h' stored).host.cipher = cipher from hcipher.trans hof.host.sameCipher] at hs
  exact (Node.keeps_close keptByOpening_seeded ⟨node, h'⟩
    ⟨hof.config, hof.storePath, hof.secretPath, hs⟩).host

/-! ## Initialization -/

/-- A phrase that is given is chosen. -/
theorem exec_phraseToStore_given {phrase : String} (hgiven : phrase ≠ "") (s : NodeState) :
    exec (phraseToStore (some phrase)) s = (.ok phrase, s) := by
  unfold phraseToStore
  split
  · contradiction
  · rename_i heq
    exact absurd (Option.some.inj heq) hgiven
  · rename_i heq
    rw [Option.some.inj heq]
    rfl

/-- Choosing the phrase draws random bytes at most. A new phrase is one that is told. -/
theorem exec_phraseToStore (given : Option String) (s : NodeState) :
    ∃ r entropy, exec (phraseToStore given) s = (r, { s with host := { s.host with entropy } }) ∧
      ∀ stored, r = .ok stored →
        (if (given.getD "").isEmpty then some stored else none).getD (given.getD "") = stored := by
  have hnew : ∃ r entropy, exec (Node.onHost newPhrase) s =
      (r, { s with host := { s.host with entropy } }) := ⟨_, _, rfl⟩
  rcases hnew with ⟨r, entropy, hnew⟩
  match given with
  | none => exact ⟨r, entropy, hnew, fun stored _ => rfl⟩
  | some phrase =>
    by_cases hempty : phrase = ""
    · subst hempty
      exact ⟨r, entropy, hnew, fun stored _ => rfl⟩
    · refine ⟨.ok phrase, s.host.entropy, exec_phraseToStore_given hempty s, ?_⟩
      rintro stored hstored
      have hphrase : phrase.isEmpty = false := by simpa [String.isEmpty_iff] using hempty
      simp only [Option.getD_some, hphrase, Bool.false_eq_true, if_false, Option.getD_none]
      exact Except.ok.inj hstored

/-- The check of an initialization fails exactly if a seed is stored, and changes nothing that
matters to it. -/
theorem exec_check (hh : s.node.secret.Holding ⟨s.host, last⟩)
    (hopen : s.node.secret.closed = false) :
    ∃ h₁, exec (Node.onSecret fun _ => SecretStore.checkUninitialized) s =
        (if last.isSome then .error .alreadyInitialized else .ok (), { s with host := h₁ }) ∧
      h₁.cipher = s.host.cipher ∧ s.node.secret.Holding ⟨h₁, last⟩ := by
  have hlook := hh.look hopen fun _ u =>
    SecretStore.keeps_checkUninitialized (I := (·.seeds = u.seeds)) u rfl
  have hcipher := SecretHandle.run_cipher s.node.secret
    (fun _ => SecretStore.checkUninitialized) s.host
  have hcheck := Node.exec_onSecret (fun _ => SecretStore.checkUninitialized) s
  rcases hh.table with ⟨tables, t, hold, hseeds, hstores⟩
  obtain ⟨h₁, hrun, -⟩ :=
    SecretHandle.exec_run hopen hold fun _ => SecretStore.checkUninitialized
  rw [SecretStore.exec_checkUninitialized (s.node.secret.store s.host) rfl hseeds hstores] at hrun
  rw [Trace.after_none, hrun] at hlook
  rw [hrun] at hcipher hcheck
  exact ⟨h₁, hcheck, hcipher, hlook⟩

/-- The work of an initialization. It is refused if a seed is stored; otherwise the store holds
what it has stored, or nothing if it failed. -/
theorem initWork (hh : s.node.secret.Holding ⟨s.host, last⟩) (hopen : s.node.secret.closed = false)
    (hwork : exec (work (.init given password)) s = (r, s')) :
    s'.node = s.node ∧ s'.host.cipher = s.host.cipher ∧
      s.node.secret.Holding ⟨s'.host, (initialSeed given password r).or last⟩ ∧
      (last.isSome = true → r = .error .alreadyInitialized) := by
  rcases exec_check hh hopen with ⟨h₁, hcheck, hcipher, hlook⟩
  unfold work at hwork
  cases hlast : last with
  | some stored =>
    simp only [hlast, Option.isSome_some, if_true] at hcheck
    rw [exec_bind_of_error hcheck, Prod.mk.injEq] at hwork
    rcases hwork with ⟨rfl, rfl⟩
    exact ⟨rfl, hcipher, hlast ▸ hlook, fun _ => rfl⟩
  | none =>
    simp only [hlast, Option.isSome_none, Bool.false_eq_true, if_false] at hcheck
    rw [exec_bind_of_ok hcheck] at hwork
    rcases exec_phraseToStore given { s with host := h₁ } with ⟨r₁, entropy, hphrase, hsame⟩
    -- random bytes do not matter to what is stored
    have hheld : s.node.secret.Holding ⟨{ h₁ with entropy }, none⟩ := by
      rcases hlook.table with ⟨tables₁, t₁, hold₁, hseeds₁, hstores₁⟩
      exact hlook.of_table rfl hold₁ hseeds₁ (hlast ▸ hstores₁)
    cases r₁ with
    | error e =>
      rw [exec_bind_of_error hphrase, Prod.mk.injEq] at hwork
      rcases hwork with ⟨rfl, rfl⟩
      exact ⟨rfl, hcipher, hheld, nofun⟩
    | ok stored =>
      rw [exec_bind_of_ok hphrase] at hwork
      have hsaved := hheld.save hopen password stored
      have hcipher' := SecretHandle.run_cipher s.node.secret
        (fun store => store.save password stored) { h₁ with entropy }
      have hsave := Node.exec_onSecret (fun store => store.save password stored)
        { s with host := { h₁ with entropy } }
      rcases hrun' : exec (s.node.secret.run fun store => store.save password stored)
        { h₁ with entropy } with ⟨r₂, h₂⟩
      simp only [hrun'] at hsave hcipher'
      cases r₂ with
      | error e =>
        rw [Use.carryOut, Trace.after_error hrun'] at hsaved
        rw [exec_bind_of_error hsave, Prod.mk.injEq] at hwork
        rcases hwork with ⟨rfl, rfl⟩
        exact ⟨rfl, hcipher'.trans hcipher, hsaved, nofun⟩
      | ok done =>
        rw [Use.carryOut, Trace.after_ok hrun'] at hsaved
        rw [exec_bind_of_ok hsave, exec_pure, Prod.mk.injEq] at hwork
        rcases hwork with ⟨rfl, rfl⟩
        refine ⟨rfl, hcipher'.trans hcipher, ?_, nofun⟩
        rw [initialSeed, hsame stored rfl]
        exact hsaved

/-- A phrase that is given is stored if none is. -/
theorem exec_initWork_given (hh : s.node.secret.Holding ⟨s.host, none⟩)
    (hopen : s.node.secret.closed = false)
    (hderives : (s.node.secret.store s.host).vault.Derives password) {phrase : String}
    (hgiven : phrase ≠ "") (hparse : (SeedPhrase.parse? phrase).isSome) :
    (exec (work (.init (some phrase) password)) s).1 = .ok (.initialized none) := by
  rcases exec_check hh hopen with ⟨h₁, hcheck, -, hheld⟩
  have hphrase := exec_phraseToStore_given hgiven { s with host := h₁ }
  have hsave := Node.exec_onSecret (fun store => store.save password phrase) { s with host := h₁ }
  rcases hheld.table with ⟨tables, t, hold, hseeds, -⟩
  obtain ⟨h₂, hrun, -⟩ := SecretHandle.exec_run hopen hold fun store => store.save password phrase
  rw [(SecretStore.save_ok_iff (s.node.secret.store h₁) password phrase
    (s := { seeds := tables.seeds, entropy := h₁.entropy }) rfl hseeds).2
    ⟨⟨hderives.pos, hderives.le, hderives.usable⟩, hparse⟩] at hrun
  rw [hrun] at hsave
  have hphrase' : phrase.isEmpty = false := by simpa [String.isEmpty_iff] using hgiven
  unfold work
  rw [exec_bind_of_ok hcheck, exec_bind_of_ok hphrase, exec_bind_of_ok hsave]
  simp only [exec_pure, Option.getD_some, hphrase', Bool.false_eq_true, if_false]

/-- An initialization finds the seed that is stored, or stores one. -/
theorem seeded_init (hcipher : cipher.Lawful) (hs : h.Seeded c cipher last)
    (given : Option String) (password : RawText) :
    (exec (onNode (.init given password) c) h).2.Seeded c cipher
      ((stores c h (.init given password)).or last) := by
  rw [stores]
  rcases hopen : exec (node (.init given password) c) h with ⟨r, h₁⟩
  cases r with
  | error e =>
    rw [exec_onNode_of_error hopen]
    exact (Node.keeps_open keptByOpening_seeded).after hs hopen
  | ok node =>
    have hof := (Node.opens_open keptByOpening_seeded h hs).2 node h₁ hopen
    rcases Node.open_holding hcipher hs hopen with ⟨hsecret, hheld⟩
    rcases hwork : exec (work (.init given password)) ⟨node, h₁⟩ with ⟨r, s⟩
    have hclosed : node.secret.closed = false := by rw [hsecret]
    rcases initWork (s := ⟨node, h₁⟩) hheld hclosed hwork with ⟨hnode, hsame, hheld', -⟩
    rcases s with ⟨node', h₂⟩
    obtain rfl : node' = node := hnode
    rw [exec_onNode_of_ok hopen hwork]
    exact seeded_close hof hsecret hsame hheld'

/-- Once a seed is stored an initialization is refused, if the node can be opened. -/
theorem init_refused {stored : Stored} (hcipher : cipher.Lawful)
    (hs : h.Seeded c cipher (some stored)) (given : Option String) (password : RawText) :
    (exec (onNode (.init given password) c) h).1 =
      (exec (Node.open c) h).1.bind fun _ => .error .alreadyInitialized := by
  rcases hopen : exec (node (.init given password) c) h with ⟨r, h₁⟩
  have hopen' : exec (Node.open c) h = (r, h₁) := hopen
  rw [hopen']
  cases r with
  | error e =>
    rw [exec_onNode_of_error hopen]
    rfl
  | ok node =>
    rcases Node.open_holding hcipher hs hopen with ⟨hsecret, hheld⟩
    rcases hwork : exec (work (.init given password)) ⟨node, h₁⟩ with ⟨r, s⟩
    have hclosed : node.secret.closed = false := by rw [hsecret]
    rcases initWork (s := ⟨node, h₁⟩) hheld hclosed hwork with ⟨-, -, -, hrefused⟩
    rw [exec_onNode_of_ok hopen hwork]
    exact hrefused rfl

/-! ## Restoration -/

/-- The work of a restoration is one of the secret store. -/
theorem exec_restoreWork (password : RawText) (s : NodeState) :
    exec (work (.restore password)) s =
      ((exec (s.node.secret.restore s.node.config.storageDir password) s.host).1.map
          fun _ => .restored,
        { s with
          host := (exec (s.node.secret.restore s.node.config.storageDir password) s.host).2 }) := by
  have hrestore : exec (Node.restorePhrase s.node.config.storageDir password) s =
      ((exec (s.node.secret.restore s.node.config.storageDir password) s.host).1,
        { s with
          host := (exec (s.node.secret.restore s.node.config.storageDir password) s.host).2 }) :=
    rfl
  unfold work
  rw [exec_get_bind, exec_bind, exec_discard, hrestore]
  cases (exec (s.node.secret.restore s.node.config.storageDir password) s.host).1 with
  | error e => rfl
  | ok phrase => rfl

/-- A restoration from the command line answers what the restoration on a new node does. -/
theorem onNode_restore (c : Config) (password : RawText) (h : Host) :
    (exec (onNode (.restore password) c) h).1 =
      (exec (restoration c password) h).1.map fun _ => .restored := by
  unfold restoration
  rw [exec_bind]
  rcases hopen : exec (node (.restore password) c) h with ⟨r, h₁⟩
  have hopen' : exec (Node.open c) h = (r, h₁) := hopen
  rw [hopen']
  cases r with
  | error e =>
    rw [exec_onNode_of_error hopen]
    rfl
  | ok node =>
    rw [exec_onNode_of_ok hopen (exec_restoreWork password _), (Node.open_ok hopen').1]

/-- A restoration that succeeds stores the phrase that it restores; one that fails leaves what is
stored. -/
theorem seeded_restore (hcipher : cipher.Lawful) (hs : h.Seeded c cipher last)
    (password : RawText) :
    (exec (onNode (.restore password) c) h).2.Seeded c cipher
      ((stores c h (.restore password)).or last) := by
  rw [stores, restoration, exec_bind]
  rcases hopen : exec (node (.restore password) c) h with ⟨r, h₁⟩
  have hopen' : exec (Node.open c) h = (r, h₁) := hopen
  rw [hopen']
  cases r with
  | error e =>
    rw [exec_onNode_of_error hopen]
    exact (Node.keeps_open keptByOpening_seeded).after hs hopen
  | ok node =>
    have hof := (Node.opens_open keptByOpening_seeded h hs).2 node h₁ hopen
    rcases Node.open_holding hcipher hs hopen with ⟨hsecret, hheld⟩
    have hclosed : node.secret.closed = false := by rw [hsecret]
    have hrestored := hheld.restore hclosed c.storageDir password
    have hsame := hheld.restore_cipher hclosed c.storageDir password
    rw [exec_onNode_of_ok hopen (exec_restoreWork password _)]
    rw [Use.carryOut] at hrestored
    rcases hrun : exec (node.secret.restore c.storageDir password) h₁ with ⟨r, h₂⟩
    have hconfig : node.config = c := hof.config
    simp only [hrun] at hsame
    simp only [hconfig, hrun]
    cases r with
    | error e =>
      rw [Trace.after_error hrun] at hrestored
      exact seeded_close hof hsecret hsame hrestored
    | ok phrase =>
      rw [Trace.after_ok hrun] at hrestored
      exact seeded_close hof hsecret hsame hrestored

/-- A phrase that can be opened is restored, whatever is stored. -/
theorem restoration_ok (hcipher : cipher.Lawful) (hs : h.Seeded c cipher last) {node : Node}
    {place : Place} {b : Bytes} {phrase : String}
    (hopen : exec (Node.open c) h = (.ok node, h'))
    (hres : h'.files.resolve h'.workDir (c.storageDir / SecretHandle.phraseFile) = .ok place)
    (hfile : h'.files.entry? place = some (.file b))
    (hopens : SecretHandle.FileOpens ⟨cipher, c.iterations⟩ password b phrase) :
    (exec (restoration c password) h).1 = .ok phrase := by
  rcases Node.open_holding hcipher hs hopen with ⟨hsecret, hheld⟩
  have hs' := (Node.keeps_open keptByOpening_seeded).after hs hopen
  have hvault : (node.secret.store h').vault = ⟨cipher, c.iterations⟩ := by
    rw [hsecret, SecretHandle.store, hs'.sameCipher]
  rw [← hvault] at hopens
  have hclosed : node.secret.closed = false := by rw [hsecret]
  obtain ⟨h₂, hrestore⟩ := hheld.exec_restore hclosed hres hfile hopens
  unfold restoration
  rw [exec_bind_of_ok hopen, hrestore]

/-! ## Other commands -/

/-- The work of a command that stores no seed. -/
theorem keeps_otherWork (hname : c.secretName = SecretHandle.defaultName) {cmd : Command}
    (hinit : ∀ given password, cmd ≠ .init given password)
    (hrestore : ∀ password, cmd ≠ .restore password) :
    Keeps (Node.Of c (Host.Seeded c cipher last)) cmd.work := by
  have hkept : Kept c Tables.SparesSeeds (Host.Seeded c cipher last) := kept_seeded hname
  have hstore : ∀ {α : Type} {op : StoreM α} {name : Option TableName}, Store.WritesOnly name op →
      name ≠ some .seeds → Keeps (Node.Of c (Host.Seeded c cipher last)) (Node.onStore op) :=
    fun hop hother =>
      Node.keeps_onStore hkept.toKeptByStore fun u => Or.inl ((hop.sameBut u).seeds hother)
  cases cmd with
  | init given password => exact absurd rfl (hinit given password)
  | restore password => exact absurd rfl (hrestore password)
  | unlock password =>
    refine keeps_bind (Node.keeps_look fun store u => ?_) fun _ => keeps_pure _
    exact SecretStore.keeps_getPhrase (I := (·.seeds = u.seeds)) u rfl
  | migrate => exact keeps_get_bind fun _ hs => hs
  | showSetting key =>
    exact keeps_bind (Node.keeps_loadSetting hkept.toKeptByOpening key) fun _ => keeps_pure _
  | saveSetting key value publishes =>
    exact keeps_saveSettingWork hkept allowsSaves_sparesSeeds key value publishes
  | publish => exact keeps_bind (Node.keeps_sync hkept) fun _ => keeps_pure _
  | listPeers => exact keeps_bind (hstore Store.writesOnly_loadPeers nofun) fun _ => keeps_pure _
  | removePeer key =>
    exact keeps_bind (hstore (Store.writesOnly_deletePeer _) nofun) fun _ => keeps_pure _
  | revoke id => exact keeps_bind (hstore (Store.writesOnly_revoke _) nofun) fun _ => keeps_pure _
  | listRevoked =>
    exact keeps_bind (hstore Store.writesOnly_loadRevoked nofun) fun _ => keeps_pure _

/-- A command leaves the host with the seed that was stored last. -/
theorem seeded_carryOut {tr : Trace} (hname : c.secretName = SecretHandle.defaultName)
    (hcipher : cipher.Lawful) (hs : tr.host.Seeded c cipher tr.last) (cmd : Command) :
    (cmd.carryOut c tr).host.Seeded c cipher (cmd.carryOut c tr).last := by
  have hkept : Kept c Tables.SparesSeeds (Host.Seeded c cipher tr.last) := kept_seeded hname
  have hother : (∀ given password, cmd ≠ .init given password) →
      (∀ password, cmd ≠ .restore password) → (cmd.run c tr.host).2.Seeded c cipher tr.last :=
    fun hinit hrestore => keeps_run (keeps_onNode hkept.toKeptByOpening
      (opens_node hkept allowsSaves_sparesSeeds cmd) (keeps_otherWork hname hinit hrestore)) hs
  cases cmd with
  | init given password => exact seeded_init hcipher hs given password
  | restore password => exact seeded_restore hcipher hs password
  | _ => exact hother nofun nofun

/-! ## Answers -/

/-- Unlocking opens the stored seed, if the node can be opened. -/
theorem unlock_opens {stored : Stored} (hcipher : cipher.Lawful)
    (hs : h.Seeded c cipher (some stored)) :
    ∃ kept, SeedPhrase.parse? stored.phrase = some kept ∧
      (exec (onNode (.unlock stored.password) c) h).1 =
        (exec (Node.open c) h).1.map fun _ => .unlocked (Text.words kept).length := by
  rcases hopen : exec (node (.unlock stored.password) c) h with ⟨r, h₁⟩
  have hopen' : exec (Node.open c) h = (r, h₁) := hopen
  rw [hopen']
  cases r with
  | error e =>
    rcases hs.seed with ⟨tables, -, t, -, kept, sealedText, hparse, -⟩
    rw [exec_onNode_of_error hopen]
    exact ⟨kept, hparse, rfl⟩
  | ok node =>
    rcases Node.open_holding hcipher hs hopen with ⟨hsecret, hheld⟩
    have hclosed : node.secret.closed = false := by rw [hsecret]
    rcases hheld.table with ⟨tables, t, hold, hseeds, hstores⟩
    obtain ⟨h₂, hrun, -⟩ :=
      SecretHandle.exec_run hclosed hold fun store => store.get stored.password
    rcases SecretStore.exec_get_some (node.secret.store h₁)
      (s := { seeds := tables.seeds, entropy := h₁.entropy }) rfl hseeds hstores with
      ⟨kept, hparse, hget⟩
    rw [hget] at hrun
    have hgot := Node.exec_onSecret (fun store => store.get stored.password) ⟨node, h₁⟩
    rw [hrun] at hgot
    have hwork : exec (work (.unlock stored.password)) ⟨node, h₁⟩ =
        (.ok (.unlocked (Text.words kept).length), ⟨node, h₂⟩) := by
      unfold work
      rw [exec_bind_of_ok hgot]
      rfl
    rw [exec_onNode_of_ok hopen hwork]
    exact ⟨kept, hparse, rfl⟩

/-- A secret store that is opened at the path of the configuration gets the stored seed, whether or
not a node can be opened. -/
theorem open_gets {stored : Stored} (hs : h.Seeded c cipher (some stored)) :
    ∃ kept opened, SeedPhrase.parse? stored.phrase = some kept ∧
      exec (SecretHandle.open c.secretPath c.iterations) h =
        (.ok { path := c.secretPath, iterations := c.iterations }, opened) ∧
      (exec (SecretHandle.run { path := c.secretPath, iterations := c.iterations } fun store =>
        store.get stored.password) opened).1 = .ok kept := by
  rcases hs.seed with ⟨tables, hold, t, hseeds, hstores⟩
  rcases SecretHandle.exec_open_again c.iterations hold hseeds with ⟨opened, hopen, hold', hsame⟩
  have hvault : (⟨cipher, c.iterations⟩ : Vault) = ⟨opened.cipher, c.iterations⟩ := by
    rw [hsame, hs.sameCipher]
  obtain ⟨h₂, hrun, -⟩ := SecretHandle.exec_run
    (s := { path := c.secretPath, iterations := c.iterations }) rfl hold' fun store =>
      store.get stored.password
  rcases SecretStore.exec_get_some
    (SecretHandle.store { path := c.secretPath, iterations := c.iterations } opened)
    (s := { seeds := tables.seeds, entropy := opened.entropy }) rfl hseeds (hvault ▸ hstores) with
    ⟨kept, hparse, hget⟩
  rw [hget] at hrun
  exact ⟨kept, opened, hparse, hopen, by rw [hrun]⟩

end Command

end NodeStore.Cli
