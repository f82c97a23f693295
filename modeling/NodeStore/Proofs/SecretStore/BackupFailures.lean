import NodeStore.Proofs.Opening
import NodeStore.Proofs.SecretStore.Restoration

/-! # How a restoration fails

A restoration by a store that works answers what the file of the backup opens to. What is read
comes from other programs and may be any bytes. That it is no sealed value, that the password is
wrong and that the secret is no phrase are failures of their own. That bytes are no text is not:
neither those of the file nor those of the secret. Nor is it that the password has no key.

* `openFile_of_secret`, `openFile_of_not_sealed`: what the bytes of a file open to;
* `restoration_ends`: how a restoration ends. -/

namespace NodeStore

open Op

namespace Vault

variable {v : Vault} {password : RawText} {text token : String} {salt key message b : Bytes}

/-! ## The bytes of a file -/

/-- What the bytes of a backup's file open to. -/
def openFile (v : Vault) (password : RawText) (b : Bytes) : Except Failure String := do
  let text ← (Utf8.decode b).mapError .notText
  v.openPhrase password (Text.withLineFeeds text)

/-- A secret under the password: the bytes that a sealed value opens to. -/
def HoldsSecret (v : Vault) (password : RawText) (b message : Bytes) : Prop :=
  ∃ text salt token key, Utf8.encode text = b ∧ IsSealed (Text.withLineFeeds text) salt token ∧
    v.key password salt = .ok key ∧ v.cipher.openToken? key token = some message

/-- All that is decoded is text: the bytes of the file, and those of its secret. -/
def IsTextual (v : Vault) (password : RawText) (b : Bytes) : Prop :=
  Utf8.IsText b ∧ ∀ message, v.HoldsSecret password b message → Utf8.IsText message

/-- The bytes are those of a sealed value. -/
def IsSealedFile (b : Bytes) : Prop :=
  ∃ text salt token, Utf8.encode text = b ∧ IsSealed (Text.withLineFeeds text) salt token

theorem openFile_of_text (v : Vault) (password : RawText) (text : String) :
    v.openFile password (Utf8.encode text) = v.openPhrase password (Text.withLineFeeds text) := by
  unfold openFile
  rw [Utf8.decode_encode, mapError_ok, ok_bind]

theorem openFile_of_not_isText (h : ¬ Utf8.IsText b) :
    ∃ fault, v.openFile password b = .error (.notText fault) := by
  rcases Utf8.not_isText_iff.1 h with ⟨fault, hdecode⟩
  refine ⟨fault, ?_⟩
  unfold openFile
  rw [hdecode, mapError_error]
  rfl

/-- A text that is no sealed value. -/
theorem openFile_of_not_sealed (h : ∀ salt token, ¬ IsSealed (Text.withLineFeeds text) salt token) :
    ∃ fault, v.openFile password (Utf8.encode text) = .error (.invalidRecord fault) := by
  rw [openFile_of_text]
  cases hparts : parts (Text.withLineFeeds text) with
  | error fault => exact ⟨fault, openPhrase_of_parts_error hparts⟩
  | ok found =>
    rcases found with ⟨salt, token⟩
    obtain ⟨token, rfl⟩ := token_of_parts hparts
    exact absurd (parts_eq_ok_iff.1 hparts) (h salt token)

/-- A sealed value whose token does not open. -/
theorem openFile_refused (hsealed : IsSealed (Text.withLineFeeds text) salt token)
    (hkey : v.key password salt = .ok key) (hopen : v.cipher.openToken? key token = none) :
    v.openFile password (Utf8.encode text) = .error .wrongPassword := by
  rw [openFile_of_text, openPhrase_of_key (parts_eq_ok_iff.2 hsealed) hkey, hopen]

/-- A sealed value is opened with a key first. -/
theorem openFile_without_key (h : IsSealedFile b) (hderives : ¬ v.Derives password) :
    ∃ failure, v.KeyFault password failure ∧ v.openFile password b = .error failure := by
  rcases h with ⟨text, salt, token, rfl, hsealed⟩
  cases hkey : v.key password salt with
  | ok key => exact absurd (derives_of_key hkey) hderives
  | error failure =>
    refine ⟨failure, keyFault_of_key hkey, ?_⟩
    rw [openFile_of_text, openPhrase_of_key_error (parts_eq_ok_iff.2 hsealed) hkey]

/-- A secret that is a text is the phrase, or it is corrupt. -/
theorem openFile_of_secret {plain : String}
    (h : v.HoldsSecret password b (Utf8.encode plain)) :
    v.openFile password b =
      match SeedPhrase.parse? plain with
      | some phrase => .ok phrase
      | none => .error .corruptSecret := by
  rcases h with ⟨text, salt, token, key, rfl, hsealed, hkey, hopen⟩
  rw [openFile_of_text, openPhrase_of_key (parts_eq_ok_iff.2 hsealed) hkey, hopen]
  cases hparse : SeedPhrase.parse? plain <;> simp only [Utf8.decode_encode, hparse]

theorem openFile_of_secret_not_isText (h : v.HoldsSecret password b message)
    (htext : ¬ Utf8.IsText message) : ∃ fault, v.openFile password b = .error (.notText fault) := by
  rcases h with ⟨text, salt, token, key, rfl, hsealed, hkey, hopen⟩
  rcases Utf8.not_isText_iff.1 htext with ⟨fault, hdecode⟩
  refine ⟨fault, ?_⟩
  rw [openFile_of_text, openPhrase_of_key (parts_eq_ok_iff.2 hsealed) hkey, hopen]
  simp only [hdecode]

/-- Whoever has the password can seal any bytes. -/
theorem holdsSecret_joined (hcipher : v.cipher.Lawful) {vector : Bytes}
    (hsalt : salt.length = saltSize) (hvector : vector.length = vectorSize)
    (hkey : v.key password salt = .ok key) (time : Nat) (message : Bytes) :
    v.HoldsSecret password
      (Utf8.encode (joined salt (v.cipher.sealToken key time vector message))) message := by
  have hlength := length_key hkey
  have hparts : parts ("" ++ joined salt (v.cipher.sealToken key time vector message) ++ "" :
      String) = .ok (salt, v.cipher.sealToken key time vector message) :=
    parts_joined hsalt (hcipher.token_ne_empty time message hlength hvector)
      (hcipher.token_chars time message hlength hvector) (by simp) (by simp)
  refine ⟨_, salt, _, key, rfl, ?_, hkey, hcipher.openToken?_sealToken time message hlength hvector⟩
  rw [SecretHandle.withLineFeeds_joined hcipher hkey hvector, ← parts_eq_ok_iff]
  simpa using hparts

theorem openFile_of_not_isTextual (h : ¬ v.IsTextual password b) :
    ∃ fault, v.openFile password b = .error (.notText fault) := by
  by_cases htext : Utf8.IsText b
  · obtain ⟨message, hsecret, hmessage⟩ :
        ∃ message, v.HoldsSecret password b message ∧ ¬ Utf8.IsText message := by
      simpa [IsTextual, htext] using h
    exact openFile_of_secret_not_isText hsecret hmessage
  · exact openFile_of_not_isText htext

end Vault

namespace SecretHandle

variable {s : SecretHandle} {h : Host} {tables : Tables} {t : Table Cell} {v : Vault}
  {password : RawText} {b : Bytes}

/-! ## Restorations -/

/-- The kinds of failure that a restoration is to end with. -/
def restorationKinds : List FailureKind :=
  [.notInitialized, .invalidRecord, .wrongPassword, .corruptSecret]

/-- A phrase, or a failure of one of the kinds. -/
def EndsAsIntended (answer : Except Failure String) : Prop :=
  ∀ e, answer = .error e → ∃ kind ∈ restorationKinds, e.kind? = some kind

theorem endsAsIntended_ok (phrase : String) : EndsAsIntended (.ok phrase) := nofun

theorem endsAsIntended_error {e : Failure} {kind : FailureKind} (hkind : e.kind? = some kind)
    (hmem : kind ∈ restorationKinds) : EndsAsIntended (.error e) := by
  rintro _ ⟨⟩
  exact ⟨kind, hmem, hkind⟩

/-- A failure that callers do not tell apart is none of those intended. -/
theorem not_endsAsIntended {e : Failure} (h : e.kind? = none) : ¬ EndsAsIntended (.error e) := by
  intro hends
  rcases hends _ rfl with ⟨kind, -, hkind⟩
  rw [h] at hkind
  exact absurd hkind nofun

/-- Text opens as intended, if the password has a key where one is asked for. -/
theorem endsAsIntended_of_isTextual (h : v.IsTextual password b)
    (hderives : Vault.IsSealedFile b → v.Derives password) :
    EndsAsIntended (v.openFile password b) := by
  rcases h with ⟨⟨text, rfl⟩, hsecret⟩
  -- the file is no sealed value, or its token does not open, or there is a secret
  by_cases hsealed : ∃ salt token, Vault.IsSealed (Text.withLineFeeds text) salt token
  · rcases hsealed with ⟨salt, token, hsealed⟩
    rcases (hderives ⟨text, salt, token, rfl, hsealed⟩).exists_key salt with ⟨key, hkey⟩
    cases hopen : v.cipher.openToken? key token with
    | none =>
      rw [Vault.openFile_refused hsealed hkey hopen]
      exact endsAsIntended_error rfl (by decide)
    | some message =>
      have hheld : v.HoldsSecret password (Utf8.encode text) message :=
        ⟨text, salt, token, key, rfl, hsealed, hkey, hopen⟩
      rcases hsecret message hheld with ⟨plain, rfl⟩
      rw [Vault.openFile_of_secret hheld]
      cases SeedPhrase.parse? plain with
      | none => exact endsAsIntended_error rfl (by decide)
      | some phrase => exact endsAsIntended_ok phrase
  · simp only [not_exists] at hsealed
    rcases Vault.openFile_of_not_sealed hsealed with ⟨fault, hfile⟩
    rw [hfile]
    exact endsAsIntended_error rfl (by decide)

/-- A file that can be read opens to what is answered. -/
theorem answer_of_read (hopen : s.closed = false) (hold : h.Holds s.path tables)
    (hseeds : tables.seeds = some t) {folder : Path}
    (hread : h.files.read h.workDir (folder / phraseFile) = .ok b) (password : RawText) :
    (exec (s.restore folder password) h).1 = (s.store h).vault.openFile password b := by
  rw [answer_eq hopen hold hseeds, readPhraseFile, exec_get_bind, hread, Vault.openFile]
  -- what the opening does to the text does not matter
  generalize (s.store h).vault.openPhrase password = openText
  simp only
  cases Utf8.decode b <;> rfl

/-- A file that cannot be read counts as none. -/
theorem answer_of_read_error (hopen : s.closed = false) (hold : h.Holds s.path tables)
    (hseeds : tables.seeds = some t) {folder : Path} {fault : FileFault}
    (hread : h.files.read h.workDir (folder / phraseFile) = .error fault)
    (hfault : fault ≠ .embeddedNul) (password : RawText) :
    (exec (s.restore folder password) h).1 = .error .notInitialized := by
  rw [answer_eq hopen hold hseeds]
  have hsystem : fault.isSystem = true := by simpa [FileFault.isSystem] using hfault
  unfold readPhraseFile
  rw [exec_get_bind]
  simp only [hread, hsystem, if_true]
  rfl

/-- A store that works ends a restoration as follows, whatever the password, the number of
iterations and the bytes of the backup's file are.

* Where no file can be read, there is none. (Only a path with a NUL cannot be asked for.)
* The ending is one of those intended exactly if the file is text and so is the secret that it opens
  to, if it does, and keys are derived from the password, if the file is a sealed value.
* Otherwise the failure is that of the decoding, or it says why the password has no key.
* A text that is no sealed value is an invalid record.
* A sealed value whose token does not open means that the password is wrong, and one that opens to a
  text gives the phrase, or is corrupt if that is none. -/
theorem restoration_ends (hopen : s.closed = false) (hold : h.Holds s.path tables)
    (hseeds : tables.seeds = some t) (folder : Path) (password : RawText) :
    (∀ fault, h.files.read h.workDir (folder / phraseFile) = .error fault →
      fault ≠ .embeddedNul →
      (exec (s.restore folder password) h).1 = .error .notInitialized) ∧
    ∀ b, h.files.read h.workDir (folder / phraseFile) = .ok b →
      (EndsAsIntended (exec (s.restore folder password) h).1 ↔
        (s.store h).vault.IsTextual password b ∧
          (Vault.IsSealedFile b → (s.store h).vault.Derives password)) ∧
      (¬ (s.store h).vault.IsTextual password b →
        ∃ fault, (exec (s.restore folder password) h).1 = .error (.notText fault)) ∧
      (Vault.IsSealedFile b → ¬ (s.store h).vault.Derives password →
        ∃ failure, (s.store h).vault.KeyFault password failure ∧
          (exec (s.restore folder password) h).1 = .error failure) ∧
      (∀ text, Utf8.encode text = b →
        (∀ salt token, ¬ Vault.IsSealed (Text.withLineFeeds text) salt token) →
        ∃ fault, (exec (s.restore folder password) h).1 = .error (.invalidRecord fault)) ∧
      (∀ text salt token key, Utf8.encode text = b →
        Vault.IsSealed (Text.withLineFeeds text) salt token →
        (s.store h).vault.key password salt = .ok key → h.cipher.openToken? key token = none →
        (exec (s.restore folder password) h).1 = .error .wrongPassword) ∧
      ∀ plain, (s.store h).vault.HoldsSecret password b (Utf8.encode plain) →
        (exec (s.restore folder password) h).1 =
          match SeedPhrase.parse? plain with
          | some phrase => .ok phrase
          | none => .error .corruptSecret := by
  refine ⟨fun fault hread hfault => answer_of_read_error hopen hold hseeds hread hfault _, ?_⟩
  intro b hread
  rw [answer_of_read hopen hold hseeds hread password]
  refine ⟨⟨?_, fun h => endsAsIntended_of_isTextual h.1 h.2⟩, Vault.openFile_of_not_isTextual,
    Vault.openFile_without_key, ?_, ?_, ?_⟩
  · intro hends
    constructor
    · by_contra hnot
      rcases Vault.openFile_of_not_isTextual hnot with ⟨fault, hfile⟩
      rw [hfile] at hends
      exact not_endsAsIntended rfl hends
    · intro hsealed
      by_contra hnot
      rcases Vault.openFile_without_key hsealed hnot with ⟨failure, hfault, hfile⟩
      rw [hfile] at hends
      exact not_endsAsIntended hfault.kind? hends
  · rintro text rfl hsealed
    exact Vault.openFile_of_not_sealed hsealed
  · rintro text salt token key rfl hsealed hkey hrefused
    exact Vault.openFile_refused hsealed hkey hrefused
  · intro plain hsecret
    rw [Vault.openFile_of_secret hsecret]

/-- A machine with a new store, and some bytes in the file of a backup. -/
def backupHost (b : Bytes) : Host :=
  { Host.bare with
    files := ⟨[(["rln_db"], .database (Tables.createSeeds {})), (["mnemonic"], .file b)]⟩ }

theorem holds_backupHost (b : Bytes) :
    (backupHost b).Holds bareStore.path (Tables.createSeeds {}) := ⟨rfl, rfl⟩

/-- A file whose salt is too short is an invalid record, and ends as intended. -/
theorem short_salt_is_invalid :
    bareStore.closed = false ∧
      (backupHost (Utf8.encode "QUJD$x\n")).Holds bareStore.path (Tables.createSeeds {}) ∧
      (Tables.createSeeds {}).seeds = some { lastId := some 0 } ∧
      EndsAsIntended
        (exec (bareStore.restore ⟨.root, []⟩ "pw") (backupHost (Utf8.encode "QUJD$x\n"))).1 ∧
      ∃ fault, (exec (bareStore.restore ⟨.root, []⟩ "pw")
        (backupHost (Utf8.encode "QUJD$x\n"))).1 = .error (.invalidRecord fault) := by
  have hold := holds_backupHost (Utf8.encode "QUJD$x\n")
  have hparts : Vault.parts (Text.withLineFeeds "QUJD$x\n") = .error (.saltSize 3) := by
    decide +kernel
  have hsealed : ∀ salt token, ¬ Vault.IsSealed (Text.withLineFeeds "QUJD$x\n") salt token := by
    intro salt token hsealed
    have h := Vault.parts_eq_ok_iff.2 hsealed
    rw [hparts] at h
    exact absurd h nofun
  rcases (restoration_ends (s := bareStore) rfl hold rfl ⟨.root, []⟩ "pw").2
    (Utf8.encode "QUJD$x\n") rfl with ⟨hends, -, -, hunsealed, -, -⟩
  refine ⟨rfl, hold, rfl, hends.2 ⟨⟨⟨_, rfl⟩, ?_⟩, ?_⟩, hunsealed _ rfl hsealed⟩
  · rintro message ⟨text, salt, token, key, htext, hother, -⟩
    obtain rfl := Utf8.encode_injective htext
    exact absurd hother (hsealed salt token)
  · rintro ⟨text, salt, token, htext, hother⟩
    obtain rfl := Utf8.encode_injective htext
    exact absurd hother (hsealed salt token)

/-- A file with a byte that no text has, and a file that this byte was sealed in under the
password. -/
theorem stray_byte_is_no_text :
    bareStore.closed = false ∧ 1 ≤ bareStore.iterations ∧
      (∀ b, (backupHost b).Holds bareStore.path (Tables.createSeeds {})) ∧
      (exec (bareStore.restore ⟨.root, []⟩ "pw") (backupHost [0xff])).1 =
        .error (.notText ⟨0xff, 0, 1, .invalidStart⟩) ∧
      ¬ EndsAsIntended (exec (bareStore.restore ⟨.root, []⟩ "pw") (backupHost [0xff])).1 ∧
      ∃ text, (bareStore.store Host.bare).vault.HoldsSecret "pw" (Utf8.encode text) [0xff] ∧
        ¬ EndsAsIntended
          (exec (bareStore.restore ⟨.root, []⟩ "pw") (backupHost (Utf8.encode text))).1 := by
  have hanswer : (exec (bareStore.restore ⟨.root, []⟩ "pw") (backupHost [0xff])).1 =
      .error (.notText ⟨0xff, 0, 1, .invalidStart⟩) := by rfl
  have hstray : ¬ Utf8.IsText [0xff] := Utf8.not_isText_iff.2 ⟨⟨0xff, 0, 1, .invalidStart⟩, rfl⟩
  refine ⟨rfl, by decide, holds_backupHost, hanswer, ?_, ?_⟩
  · rw [hanswer]
    exact not_endsAsIntended rfl
  · -- what the cipher makes of the byte is not computed
    obtain ⟨text, hsecret⟩ : ∃ text,
        (bareStore.store Host.bare).vault.HoldsSecret "pw" (Utf8.encode text) [0xff] := by
      have hsize : (List.replicate 16 (0 : UInt8)).length = 16 := List.length_replicate
      have hderives : (bareStore.store Host.bare).vault.Derives "pw" :=
        derives_bareStore _ (by decide)
      obtain ⟨key, hkey⟩ := hderives.exists_key (List.replicate 16 0)
      have hcipher : (bareStore.store Host.bare).vault.cipher.Lawful := TokenCipher.fernet_lawful
      exact ⟨_, Vault.holdsSecret_joined hcipher hsize hsize hkey 0 [0xff]⟩
    have hopened : (exec (bareStore.restore ⟨.root, []⟩ "pw") (backupHost (Utf8.encode text))).1 =
        (bareStore.store Host.bare).vault.openFile "pw" (Utf8.encode text) :=
      answer_of_read rfl (holds_backupHost _) rfl rfl "pw"
    rcases Vault.openFile_of_secret_not_isText hsecret hstray with ⟨fault, hfile⟩
    refine ⟨text, hsecret, ?_⟩
    rw [hopened, hfile]
    exact not_endsAsIntended rfl

end SecretHandle

end NodeStore
