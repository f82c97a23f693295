import NodeStore.Proofs.Cli.Sessions
import NodeStore.Proofs.SeedPhrase.Generated
import NodeStore.Proofs.Text.Escape

/-!
# New phrases

A new phrase is the phrase of the bytes that the source of randomness yields next. An
initialization without a phrase stores a new one and tells it. What is told is the phrase itself,
since it has no terminal escapes in it, and it is what the password gets later on.

* `init_tells_what_it_stores`: the told phrase is stored under the password;
* `accepted_iff_generated`: what is accepted, what is generated, and what an initialization tells.
-/

namespace NodeStore

open Op

namespace Vault

/-- A new phrase is the phrase of the next bytes. -/
theorem exec_newPhrase {strength : Nat} (h : strength ∈ SeedPhrase.strengths) (source : Entropy) :
    exec (newPhrase strength) source =
      (.ok (SeedPhrase.ofEntropy (source.take (strength / 8)).1),
        (source.take (strength / 8)).2) := by
  unfold newPhrase
  rw [if_pos (by simpa using h)]
  rfl

end Vault

/-! ## Random bytes -/

namespace SecretHandle

theorem start_entropy (s : SecretHandle) (h : Host) : (s.start h).entropy = h.entropy := by
  unfold start
  split
  · rfl
  · split <;> rfl

theorem writeBack_entropy (s : SecretHandle) (seeds : Option (Table Cell)) (h : Host) :
    (s.writeBack seeds h).entropy = h.entropy := by
  unfold writeBack
  split
  · rfl
  · split
    · split <;> rfl
    · rfl

/-- An operation takes its random bytes from the host. -/
theorem run_entropy {α : Type} (s : SecretHandle) (op : SecretStore → SecretM α) (h : Host) :
    (exec (s.run op) h).2.entropy = (exec (op (s.store h)) (s.start h)).2.entropy := by
  rw [exec_run_eq]
  generalize exec (op (s.store h)) (s.start h) = result
  rcases Host.emitAll_eq (s.writeBack result.2.seeds { h with entropy := result.2.entropy })
    result.2.log with ⟨files, log, heq, -⟩
  rw [heq]
  exact writeBack_entropy ..

end SecretHandle

/-- No random bytes are taken when a node is opened. -/
theorem keptByOpening_entropy (c : Config) (e : Entropy) :
    KeptByOpening c (fun _ _ => True) fun h => h.entropy = e where
  emit _ _ hh := hh
  tables _ _ _ _ _ _ _ _ hh := hh
  allows := allows_all
  folders _ _ _ hh := hh

namespace Cli

open Deployment (rootConfig)

variable {c : Config} {cipher : TokenCipher} {h h' : Host} {s : NodeState} {given : Option String}
  {password : RawText} {phrase : String}

theorem exec_newPhrase (h : Host) :
    exec newPhrase h = (.ok (SeedPhrase.ofEntropy (h.entropy.take 16).1),
      { h with entropy := (h.entropy.take 16).2 }) := by
  have hstrength : 128 ∈ SeedPhrase.strengths := by decide
  have hdraw := Vault.exec_newPhrase hstrength h.entropy
  have hunfold : exec newPhrase h = ((exec (Vault.newPhrase (128 : Nat)) h.entropy).1,
      { h with entropy := (exec (Vault.newPhrase (128 : Nat)) h.entropy).2 }) := rfl
  rw [hunfold, hdraw]

/-- Without a phrase, or with an empty one, a new one is chosen. -/
theorem exec_phraseToStore_new (hgiven : given.getD "" = "") (s : NodeState) :
    exec (phraseToStore given) s = (.ok (SeedPhrase.ofEntropy (s.host.entropy.take 16).1),
      { s with host := { s.host with entropy := (s.host.entropy.take 16).2 } }) := by
  have hnew : exec (Node.onHost newPhrase) s =
      ((exec newPhrase s.host).1, { s with host := (exec newPhrase s.host).2 }) := rfl
  rw [exec_newPhrase] at hnew
  match given with
  | none => exact hnew
  | some phrase =>
    obtain rfl : phrase = "" := hgiven
    exact hnew

namespace Command

/-- The check of an initialization takes no random bytes. -/
theorem check_entropy (s : NodeState) :
    (exec (Node.onSecret fun _ => SecretStore.checkUninitialized) s).2.host.entropy =
      s.host.entropy := by
  have hkeeps := SecretStore.keeps_checkUninitialized (I := (·.entropy = s.host.entropy))
    (s.node.secret.start s.host) (SecretHandle.start_entropy ..)
  rw [Node.exec_onSecret]
  exact (SecretHandle.run_entropy s.node.secret (fun _ => SecretStore.checkUninitialized)
    s.host).trans hkeeps

/-- A phrase of sixteen bytes is its own kept form. -/
theorem parse?_newPhrase (e : Entropy) :
    SeedPhrase.parse? (SeedPhrase.ofEntropy (e.take 16).1) =
      some (SeedPhrase.ofEntropy (e.take 16).1) := by
  apply SeedPhrase.parse?_ofEntropy
  rw [Vault.length_take]
  decide

/-- Where no seed is stored, a new phrase is saved, and told if that succeeds. -/
theorem exec_initWork_new (hh : s.node.secret.Holding ⟨s.host, none⟩)
    (hopen : s.node.secret.closed = false) (hgiven : given.getD "" = "") (password : RawText)
    (hphrase : phrase = SeedPhrase.ofEntropy (s.host.entropy.take 16).1) :
    ∃ (store : SecretStore) (u : SecretState) (t : Table Cell),
      store.vault = (s.node.secret.store s.host).vault ∧ u.outage = none ∧ u.seeds = some t ∧
      (exec (work (.init given password)) s).1 =
        (exec (store.save password phrase) u).1.map fun _ => .initialized (some phrase) := by
  have hentropy := check_entropy s
  rcases exec_check hh hopen with ⟨h₁, hcheck, hcipher, hheld⟩
  rw [hcheck] at hentropy
  have hchosen := exec_phraseToStore_new hgiven { s with host := h₁ }
  rw [show h₁.entropy = s.host.entropy from hentropy, ← hphrase] at hchosen
  have hsave := Node.exec_onSecret (fun store => store.save password phrase)
    { s with host := { h₁ with entropy := (s.host.entropy.take 16).2 } }
  rcases hheld.table with ⟨tables, t, hold, hseeds, -⟩
  have hold' : Host.Holds { h₁ with entropy := (s.host.entropy.take 16).2 } s.node.secret.path
      tables := hold
  obtain ⟨h₂, hrun, -⟩ := SecretHandle.exec_run hopen hold' fun store => store.save password phrase
  rw [hrun] at hsave
  refine ⟨s.node.secret.store { h₁ with entropy := (s.host.entropy.take 16).2 },
    { seeds := tables.seeds, entropy := (s.host.entropy.take 16).2 }, t, ?_, rfl, hseeds, ?_⟩
  · simp only [SecretHandle.store, hcipher]
  · unfold work
    rw [exec_bind_of_ok hcheck, exec_bind_of_ok hchosen, exec_bind, hsave]
    cases (exec (SecretStore.save (s.node.secret.store _) password phrase) _).1 with
    | error e => rfl
    | ok done => simp [hgiven, Except.map]

/-- An initialization without a phrase succeeds if no seed is stored, a node can be opened, and keys
are derived from the password. If none are, it fails and tells why. -/
theorem onNode_init_new (hcipher : cipher.Lawful) (hs : h.Seeded c cipher none) {node : Node}
    (hopen : exec (Node.open c) h = (.ok node, h')) (hgiven : given.getD "" = "")
    (password : RawText) :
    (Vault.Derives ⟨cipher, c.iterations⟩ password →
      (exec (onNode (.init given password) c) h).1 =
        .ok (.initialized (some (SeedPhrase.ofEntropy (h.entropy.take 16).1)))) ∧
    (¬ Vault.Derives ⟨cipher, c.iterations⟩ password →
      ∃ failure, Vault.KeyFault ⟨cipher, c.iterations⟩ password failure ∧
        (exec (onNode (.init given password) c) h).1 = .error failure) := by
  rcases Node.open_holding hcipher hs hopen with ⟨hsecret, hheld⟩
  have hopened := (Node.keeps_open keptByOpening_seeded).after hs hopen
  have hentropy : h'.entropy = h.entropy :=
    (Node.keeps_open (keptByOpening_entropy c h.entropy)).after rfl hopen
  have hclosed : node.secret.closed = false := by rw [hsecret]
  obtain ⟨store, u, t, hvault, houtage, hseeds, hanswer⟩ :=
    exec_initWork_new (s := ⟨node, h'⟩) hheld hclosed hgiven password rfl
  rw [show (NodeState.mk node h').host.entropy = h.entropy from hentropy] at hanswer
  have hvault' : store.vault = ⟨cipher, c.iterations⟩ := by
    rw [hvault, hsecret, SecretHandle.store, hopened.sameCipher]
  have hparse := parse?_newPhrase h.entropy
  have hnode : exec (Command.node (.init given password) c) h = (.ok node, h') := hopen
  rcases hwork : exec (work (.init given password)) ⟨node, h'⟩ with ⟨r, left⟩
  rw [hwork] at hanswer
  rw [exec_onNode_of_ok hnode hwork, ← hvault']
  simp only at hanswer ⊢
  rw [hanswer]
  constructor
  · intro hderives
    rw [(SecretStore.save_ok_iff store password _ houtage hseeds).2 ⟨hderives, by rw [hparse]; rfl⟩]
    rfl
  · intro hnone
    rcases Vault.exists_keyFault hnone with ⟨failure, hbytes, hfault⟩
    refine ⟨failure, hfault, ?_⟩
    rw [SecretStore.save_without_key hparse hbytes]
    rfl

end Command

/-! ## What is told and what is stored -/

/-- A secret store that is opened at the path of the configuration gets a phrase with a
password. -/
def Gets (c : Config) (h : Host) (password : RawText) (phrase : String) : Prop :=
  ∃ opened, exec (SecretHandle.open c.secretPath c.iterations) h =
      (.ok { path := c.secretPath, iterations := c.iterations }, opened) ∧
    (exec (SecretHandle.run { path := c.secretPath, iterations := c.iterations } fun store =>
      store.get password) opened).1 = .ok phrase

theorem gets_of_seeded (hs : h.Seeded c cipher (some ⟨password, phrase⟩))
    (hkept : SeedPhrase.parse? phrase = some phrase) : Gets c h password phrase := by
  rcases Command.open_gets hs with ⟨kept, opened, hparse, hopen, hget⟩
  obtain rfl : phrase = kept := Option.some.inj (hkept.symm.trans hparse)
  exact ⟨opened, hopen, hget⟩

/-- A generated phrase is told letter by letter. -/
theorem line_ofEntropy (entropy : Bytes) :
    Reply.line ("  Mnemonic: " ++ SeedPhrase.ofEntropy entropy) =
      "  Mnemonic: " ++ SeedPhrase.ofEntropy entropy ++ "\n" := by
  have hfront : '\x1b' ∉ "  Mnemonic: ".toList := by decide
  have hplain : ∀ ch ∈ ("  Mnemonic: " ++ SeedPhrase.ofEntropy entropy).toList, ch ≠ '\x1b' := by
    rintro ch hch rfl
    rw [String.toList_append] at hch
    rcases List.mem_append.1 hch with hch | hch
    · exact hfront hch
    · rcases SeedPhrase.mem_ofEntropy hch with ⟨hlow, -⟩ | hspace
      · exact absurd hlow (by decide)
      · exact absurd hspace (by decide)
  rw [Reply.line, Text.withoutEscapes_eq hplain]

/-- An initialization without a phrase tells the phrase that it stores: the password gets it from a
store that is opened afterwards, also after further commands none of which restores a backup. -/
theorem init_tells_what_it_stores (hcipher : cipher.Lawful) (hs : h.Seeded c cipher none)
    (hderives : Vault.Derives ⟨cipher, c.iterations⟩ password) {node : Node}
    (hopen : exec (Node.open c) h = (.ok node, h')) (hgiven : given.getD "" = "")
    (hphrase : phrase = SeedPhrase.ofEntropy (h.entropy.take 16).1) :
    ((Command.init given password).run c h).1 =
        ⟨Reply.line "✓ Node initialized" ++ ("  Mnemonic: " ++ phrase ++ "\n") ++
          Reply.line "  ⚠️  Write these words down - they cannot be recovered!", .done⟩ ∧
      Gets c ((Command.init given password).run c h).2 password phrase ∧
      (c.secretName = SecretHandle.defaultName → ∀ tr, Leads c (Restoreless c)
          ⟨((Command.init given password).run c h).2, some ⟨password, phrase⟩⟩ tr →
        Gets c tr.host password phrase) := by
  have hanswer := (Command.onNode_init_new hcipher hs hopen hgiven password).1 hderives
  have hstored := Command.seeded_init hcipher hs given password
  rw [← hphrase] at hanswer
  rw [Command.stores, hanswer, Command.initialSeed, Option.getD_some, Option.some_or] at hstored
  -- a generated phrase is kept as it is, so what is stored is what is told
  have hkept : SeedPhrase.parse? phrase = some phrase := by
    rw [hphrase]
    exact Command.parse?_newPhrase h.entropy
  have hrun : (Command.init given password).run c h =
      (Command.outcome (exec (Command.onNode (.init given password) c) h).1,
        (exec (Command.onNode (.init given password) c) h).2) := rfl
  rw [hrun]
  refine ⟨?_, gets_of_seeded hstored hkept, ?_⟩
  · rw [hanswer, Command.outcome, Reply.text, hphrase, line_ofEntropy]
  · intro hname tr hleads
    have hs' := hleads.seeded hname hcipher hstored
    rw [hleads.last hname hcipher hstored rfl] at hs'
    exact gets_of_seeded hs' hkept

/-! ## Accepted and generated phrases -/

/-- Phrases that are accepted are phrases that are generated.

* For entropy of a size that a strength allows, a phrase of three words for each 32 bits is
  generated, and it is accepted and kept as it is.
* A text in ASCII is accepted if it is a generated phrase up to blanks and capitals, and any other
  one is no phrase.
* An initialization without a phrase tells the phrase that the password gets afterwards, also after
  further commands none of which restores a backup. Under a password that no keys are derived from
  it tells no phrase. -/
theorem accepted_iff_generated :
    (∀ strength ∈ SeedPhrase.strengths, ∀ entropy : Bytes, entropy.length = strength / 8 →
      (∀ source : Entropy, (source.take (strength / 8)).1 = entropy →
        (exec (Vault.newPhrase strength) source).1 = .ok (SeedPhrase.ofEntropy entropy)) ∧
      (Text.words (SeedPhrase.ofEntropy entropy)).length = strength * 3 / 32 ∧
      Vault.parsePhrase (SeedPhrase.ofEntropy entropy) = .ok (SeedPhrase.ofEntropy entropy)) ∧
    (∀ phrase : String, (∀ ch ∈ phrase.toList, ch.toNat < 128) →
      ((∃ entropy : Bytes, entropy.length ∈ [16, 20, 24, 28, 32] ∧
          SeedPhrase.collapsed phrase = SeedPhrase.ofEntropy entropy) →
        Vault.parsePhrase phrase = .ok (SeedPhrase.collapsed phrase)) ∧
      ((¬ ∃ entropy : Bytes, entropy.length ∈ [16, 20, 24, 28, 32] ∧
          SeedPhrase.collapsed phrase = SeedPhrase.ofEntropy entropy) →
        Vault.parsePhrase phrase = .error .invalidMnemonic)) ∧
    (∀ (c : Config) (h h' : Host) (node : Node) (given : Option String) (password : RawText),
      h.cipher.Lawful → h.Seeded c h.cipher none → exec (Node.open c) h = (.ok node, h') →
      given.getD "" = "" →
      (Vault.Derives ⟨h.cipher, c.iterations⟩ password →
        ∃ phrase, phrase = SeedPhrase.ofEntropy (h.entropy.take 16).1 ∧
          ((Command.init given password).run c h).1 =
            ⟨Reply.line "✓ Node initialized" ++ ("  Mnemonic: " ++ phrase ++ "\n") ++
              Reply.line "  ⚠️  Write these words down - they cannot be recovered!", .done⟩ ∧
          Gets c ((Command.init given password).run c h).2 password phrase ∧
          (c.secretName = SecretHandle.defaultName → ∀ tr, Leads c (Restoreless c)
              ⟨((Command.init given password).run c h).2, some ⟨password, phrase⟩⟩ tr →
            Gets c tr.host password phrase)) ∧
      (¬ Vault.Derives ⟨h.cipher, c.iterations⟩ password →
        ∃ failure, Vault.KeyFault ⟨h.cipher, c.iterations⟩ password failure ∧
          ((Command.init given password).run c h).1 = ⟨"", .crashed failure⟩)) := by
  refine ⟨?_, ?_, ?_⟩
  · intro strength hstrength entropy hlen
    have hbits : strength = 8 * entropy.length := by
      have hall : ∀ n ∈ SeedPhrase.strengths, n = 8 * (n / 8) := by decide
      rw [hlen]
      exact hall strength hstrength
    have hsize : entropy.length ∈ SeedPhrase.entropySizes := by
      rw [hlen]
      exact List.mem_map_of_mem hstrength
    refine ⟨?_, ?_, ?_⟩
    · rintro source rfl
      rw [Vault.exec_newPhrase hstrength]
    · rw [SeedPhrase.length_words_ofEntropy, ← hbits]
      rfl
    · rw [Vault.parsePhrase, SeedPhrase.parse?_ofEntropy hsize]
  · intro phrase hascii
    have hiff : ∀ kept, SeedPhrase.parse? phrase = some kept ↔ _ := fun kept =>
      SeedPhrase.parse?_eq_some_iff hascii
    constructor
    · intro hgenerated
      have hparse := (hiff _).2 ⟨rfl, hgenerated⟩
      rw [Vault.parsePhrase, hparse]
    · intro hother
      cases hparse : SeedPhrase.parse? phrase with
      | none => rw [Vault.parsePhrase, hparse]
      | some kept => exact absurd ((hiff kept).1 hparse).2 hother
  · intro c h h' node given password hcipher hs hopen hgiven
    refine ⟨fun hderives =>
      ⟨_, rfl, init_tells_what_it_stores hcipher hs hderives hopen hgiven rfl⟩, fun hnone => ?_⟩
    rcases (Command.onNode_init_new hcipher hs hopen hgiven password).2 hnone with
      ⟨failure, hfault, hanswer⟩
    have hrun : ((Command.init given password).run c h).1 =
        Command.outcome (exec (Command.onNode (.init given password) c) h).1 := rfl
    have hstore : failure.isStore = false := by rw [Failure.isStore, hfault.kind?]
    refine ⟨failure, hfault, ?_⟩
    rw [hrun, hanswer, Command.outcome, hstore]
    rfl

/-- Entropy of zeros, its phrase typed with a capital word and more blanks, and an initialization
on a machine with nothing on it, whose source yields zeros. -/
theorem told_phrase_is_gotten :
    128 ∈ SeedPhrase.strengths ∧ (List.replicate 16 (0 : UInt8)).length = 128 / 8 ∧
    SeedPhrase.ofEntropy (List.replicate 16 0) = SecretHandle.keptPhrase ∧
    Vault.parsePhrase (SeedPhrase.ofEntropy (List.replicate 16 0)) =
      .ok SecretHandle.keptPhrase ∧
    (∀ ch ∈ SecretHandle.typedPhrase.toList, ch.toNat < 128) ∧
    SeedPhrase.collapsed SecretHandle.typedPhrase =
      SeedPhrase.ofEntropy (List.replicate 16 0) ∧
    Vault.parsePhrase SecretHandle.typedPhrase =
      .ok (SeedPhrase.collapsed SecretHandle.typedPhrase) ∧
    ∃ node h', exec (Node.open rootConfig) Host.bare = (.ok node, h') ∧
      Host.bare.cipher.Lawful ∧ Host.bare.Seeded rootConfig Host.bare.cipher none ∧
      Vault.Derives ⟨Host.bare.cipher, rootConfig.iterations⟩ "p" ∧
      ((Command.init none "p").run rootConfig Host.bare).1.shown =
        Reply.line "✓ Node initialized" ++ ("  Mnemonic: " ++ SecretHandle.keptPhrase ++ "\n") ++
          Reply.line "  ⚠️  Write these words down - they cannot be recovered!" ∧
      Gets rootConfig ((Command.init none "p").run rootConfig Host.bare).2 "p"
        SecretHandle.keptPhrase := by
  obtain ⟨hgenerated, haccepted, hinit⟩ := accepted_iff_generated
  have hstrength : 128 ∈ SeedPhrase.strengths := by decide
  have hlen : (List.replicate 16 (0 : UInt8)).length = 128 / 8 := by decide
  have hzeros : SeedPhrase.ofEntropy (List.replicate 16 0) = SecretHandle.keptPhrase := by
    decide +kernel
  have hletters : SecretHandle.typedPhrase.toList.all fun ch => ch.toNat < 128 := by
    decide +kernel
  have hascii : ∀ ch ∈ SecretHandle.typedPhrase.toList, ch.toNat < 128 := by
    simpa using hletters
  have hcollapsed : SeedPhrase.collapsed SecretHandle.typedPhrase =
      SeedPhrase.ofEntropy (List.replicate 16 0) := by
    rw [hzeros]
    decide +kernel
  have hparsed := (hgenerated 128 hstrength _ hlen).2.2
  have htyped := (haccepted SecretHandle.typedPhrase hascii).1 ⟨_, by decide, hcollapsed⟩
  -- the machine's source yields zeros
  have hsource : (Host.bare.entropy.take 16).1 = List.replicate 16 0 := by decide
  have hok : (exec (Node.open rootConfig) Host.bare).1.isOk = true := by decide +kernel
  rcases hopen : exec (Node.open rootConfig) Host.bare with ⟨r, h'⟩
  rw [hopen] at hok
  cases r with
  | error e => simp [Except.isOk, Except.toBool] at hok
  | ok node =>
    have hderives := derives_rootConfig Host.bare.cipher
    obtain ⟨phrase, hphrase, htold, hgets, -⟩ := (hinit rootConfig Host.bare h' node none "p"
      TokenCipher.fernet_lawful seeded_bare hopen rfl).1 hderives
    rw [hsource, hzeros] at hphrase
    subst hphrase
    exact ⟨hstrength, hlen, hzeros, by rw [hparsed, hzeros], hascii, hcollapsed, htyped, node, h',
      rfl, TokenCipher.fernet_lawful, seeded_bare, hderives, by rw [htold], hgets⟩

end Cli

end NodeStore
