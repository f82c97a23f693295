import NodeStore.Proofs.Vault
import NodeStore.SecretStore.Basic

/-! # The row of the phrase

The table of seeds holds no row, and gives the id 1 next, or holds one row, which has that id and
opens to the phrase that was stored last (`Table.Stores`). A save that succeeds brings its own
phrase into the table, one that fails changes nothing, and the other operations only look:

* `exec_save`, `save_ok`, `save_error`: what a save leaves;
* `exec_isInitialized_eq`, `exec_get_eq`: what is found in any table;
* `exec_isInitialized`, `exec_checkUninitialized`, `exec_get_none`, `exec_get_some`: what is found
  in one that holds what was stored last. -/

namespace NodeStore

open Op

/-- The password and the phrase of a save. -/
structure Stored where
  password : RawText
  phrase : RawText
deriving DecidableEq

/-- The table holds nothing, or what was stored last. -/
def Table.Stores (v : Vault) (t : Table Cell) : Option Stored → Prop
  | none => t.rows = [] ∧ t.nextId = SecretStore.phraseId
  | some stored => ∃ kept sealedText, SeedPhrase.parse? stored.phrase = some kept ∧
      t.rows = [⟨SecretStore.phraseId, .text sealedText⟩] ∧
      v.openPhrase stored.password sealedText = .ok kept

/-- A new table of seeds holds nothing. -/
theorem Table.stores_new (v : Vault) : Table.Stores v { lastId := some 0 } none :=
  ⟨rfl, rfl⟩

/-- There is at most one row, and it is the row of the phrase. -/
theorem Table.Stores.rows {v : Vault} {t : Table Cell} {last : Option Stored}
    (h : t.Stores v last) :
    t.rows = [] ∨ ∃ data, t.rows = [⟨SecretStore.phraseId, data⟩] := by
  cases last with
  | none => exact Or.inl h.1
  | some stored =>
    rcases h with ⟨-, sealedText, -, hrows, -⟩
    exact Or.inr ⟨_, hrows⟩

/-- The table after a save: what was sealed is in the row of the phrase if there is one, else in a
row of its own. -/
def Table.putPhrase (t : Table Cell) (sealedText : String) : Table Cell :=
  match t.withId? SecretStore.phraseId with
  | some _ => { t with rows := t.rows.map fun r =>
      if r.id = SecretStore.phraseId then ⟨r.id, .text sealedText⟩ else r }
  | none => t.append (.text sealedText)

namespace SecretStore

/-- What a save into a table logs: only a new row is told. -/
def savedLines (t : Table Cell) : List LogLine :=
  match t.withId? phraseId with
  | some _ => []
  | none => [⟨LogLevel.info, subsystem, "Created a new wallet"⟩]

variable {store : SecretStore} {s s' : SecretState} {t : Table Cell} {last : Option Stored}
  {password phrase : RawText}

/-! ## Looking -/

/-- An engine that answers has the table. -/
theorem exec_table (houtage : s.outage = none) (hseeds : s.seeds = some t) (doing : Option String) :
    exec (table doing) s = (.ok t, s) := by
  unfold table
  rw [exec_get_bind]
  simp only [houtage, hseeds, exec_pure]

/-- Asking for the table changes nothing. -/
theorem exec_table_eq (doing : Option String) (s : SecretState) :
    exec (table doing) s = ((exec (table doing) s).1, s) := by
  unfold table
  rw [exec_get_bind]
  cases s.outage with
  | some fault => rfl
  | none => cases s.seeds <;> rfl

/-- The table that is found does not depend on the randomness. -/
theorem exec_table_entropy (doing : Option String) (s : SecretState) (e : Entropy) :
    (exec (table doing) { s with entropy := e }).1 = (exec (table doing) s).1 := by
  unfold table
  rw [exec_get_bind, exec_get_bind]
  cases s.outage with
  | some fault => rfl
  | none => cases s.seeds <;> rfl

/-- A phrase is stored if the row of the phrase is there. -/
theorem exec_isInitialized_eq (houtage : s.outage = none) (hseeds : s.seeds = some t) :
    exec isInitialized s = (.ok (t.withId? phraseId).isSome, s) := by
  unfold isInitialized
  rw [exec_bind_of_ok (exec_table houtage hseeds none), exec_pure]

/-- What is got is what the row of the phrase opens to. -/
theorem exec_get_eq (store : SecretStore) (password : RawText) (houtage : s.outage = none)
    (hseeds : s.seeds = some t) :
    exec (store.get password) s =
      (match t.withId? phraseId with
        | none => .error .notInitialized
        | some row => store.open? password row.data, s) := by
  unfold get
  rw [exec_bind_of_ok (exec_table houtage hseeds none)]
  cases t.withId? phraseId with
  | none => rfl
  | some row => exact exec_liftExcept _ _

theorem exec_isInitialized (store : SecretStore) (houtage : s.outage = none)
    (hseeds : s.seeds = some t) (hstores : t.Stores store.vault last) :
    exec isInitialized s = (.ok last.isSome, s) := by
  rw [exec_isInitialized_eq houtage hseeds]
  cases last with
  | none => simp [Table.withId?, hstores.1]
  | some stored =>
    rcases hstores with ⟨-, sealedText, -, hrows, -⟩
    simp [Table.withId?, hrows]

/-- The check fails once a phrase is stored. -/
theorem exec_checkUninitialized (store : SecretStore) (houtage : s.outage = none)
    (hseeds : s.seeds = some t) (hstores : t.Stores store.vault last) :
    exec checkUninitialized s =
      (if last.isSome then .error .alreadyInitialized else .ok (), s) := by
  unfold checkUninitialized
  rw [exec_bind_of_ok (exec_isInitialized store houtage hseeds hstores)]
  cases last.isSome <;> rfl

/-- Before a save there is no phrase to get. -/
theorem exec_get_none (houtage : s.outage = none) (hseeds : s.seeds = some t)
    (hstores : t.Stores store.vault none) :
    exec (store.get password) s = (.error .notInitialized, s) := by
  rw [exec_get_eq store password houtage hseeds]
  simp [Table.withId?, hstores.1]

/-- After a save its password opens its phrase. -/
theorem exec_get_some (store : SecretStore) {stored : Stored} (houtage : s.outage = none)
    (hseeds : s.seeds = some t) (hstores : t.Stores store.vault (some stored)) :
    ∃ kept, SeedPhrase.parse? stored.phrase = some kept ∧
      exec (store.get stored.password) s = (.ok kept, s) := by
  rcases hstores with ⟨kept, sealedText, hparse, hrows, hopen⟩
  refine ⟨kept, hparse, ?_⟩
  rw [exec_get_eq store stored.password houtage hseeds]
  simp only [Table.withId?, hrows, List.find?_cons, beq_self_eq_true, open?, hopen]

/-! Looking changes nothing, whether or not the engine answers. -/

theorem keeps_table {I : SecretState → Prop} (doing : Option String) : Keeps I (table doing) := by
  intro s hs
  rw [exec_table_eq]
  exact hs

theorem keeps_isInitialized {I : SecretState → Prop} : Keeps I isInitialized :=
  keeps_bind (keeps_table none) fun _ => keeps_pure _

theorem keeps_checkUninitialized {I : SecretState → Prop} : Keeps I checkUninitialized := by
  refine keeps_bind keeps_isInitialized ?_
  intro initialized
  cases initialized
  · exact keeps_pure _
  · exact keeps_throw _

theorem keeps_getPhrase {I : SecretState → Prop} : Keeps I (store.get password) := by
  refine keeps_bind (keeps_table none) ?_
  intro t
  cases t.withId? phraseId with
  | none => exact keeps_throw _
  | some row => exact keeps_liftExcept _

/-! ## Saving -/

/-- Sealing takes from the randomness and changes nothing else. -/
theorem exec_sealPhrase (s : SecretState) :
    exec (store.sealPhrase password phrase) s =
      ((exec (store.vault.sealPhrase store.time password phrase) s.entropy).1,
        { s with
          entropy := (exec (store.vault.sealPhrase store.time password phrase) s.entropy).2 }) :=
  rfl

/-- What a save does with the table that it has found. -/
def putSealed (t : Table Cell) (sealedText : String) : SecretM Unit := do
  match t.withId? phraseId with
  | some _ =>
    setTable { t with rows := t.rows.map fun r =>
      if r.id = phraseId then ⟨r.id, .text sealedText⟩ else r }
  | none =>
    setTable (t.append (.text sealedText))
    log LogLevel.info "Created a new wallet"

theorem save_eq (store : SecretStore) (password phrase : RawText) :
    store.save password phrase = store.sealPhrase password phrase >>= fun sealedText =>
      table (some "Failed to save mnemonic") >>= fun t => putSealed t sealedText := rfl

/-- What was sealed is put into the table. -/
theorem exec_putSealed (t : Table Cell) (sealedText : String) (s : SecretState) :
    exec (putSealed t sealedText) s =
      (.ok (),
        { s with seeds := some (t.putPhrase sealedText), log := s.log ++ savedLines t }) := by
  unfold putSealed Table.putPhrase savedLines
  cases t.withId? phraseId with
  | some row =>
    simp only [List.append_nil]
    rfl
  | none => rfl

/-- A save seals the phrase first, then it asks for the table and puts what it has sealed there. -/
theorem exec_save (store : SecretStore) (password phrase : RawText) (s : SecretState) :
    exec (store.save password phrase) s =
      match exec (store.vault.sealPhrase store.time password phrase) s.entropy with
      | (.error failure, e) => (.error failure, { s with entropy := e })
      | (.ok sealedText, e) =>
        match (exec (table (some "Failed to save mnemonic")) s).1 with
        | .error failure => (.error failure, { s with entropy := e })
        | .ok t => (.ok (), { s with
            seeds := some (t.putPhrase sealedText)
            entropy := e
            log := s.log ++ savedLines t }) := by
  rw [save_eq, exec_bind, exec_sealPhrase]
  rcases exec (store.vault.sealPhrase store.time password phrase) s.entropy with ⟨r, e⟩
  cases r with
  | error failure => rfl
  | ok sealedText =>
    simp only
    rw [exec_bind, exec_table_eq, exec_table_entropy]
    cases (exec (table (some "Failed to save mnemonic")) s).1 with
    | error failure => rfl
    | ok t => exact exec_putSealed t sealedText _

/-- Exactly the phrases are saved, under the passwords that keys are derived from. -/
theorem save_ok_iff (store : SecretStore) (password phrase : RawText) (houtage : s.outage = none)
    (hseeds : s.seeds = some t) : (exec (store.save password phrase) s).1 = .ok () ↔
      store.vault.Derives password ∧ (SeedPhrase.parse? phrase).isSome := by
  rw [exec_save]
  cases hparse : SeedPhrase.parse? phrase with
  | none =>
    rw [Vault.exec_sealPhrase_none hparse]
    simp
  | some kept =>
    rw [Vault.exec_sealPhrase hparse]
    simp only [Option.isSome_some, and_true]
    constructor
    · intro h
      rcases hseal : exec (store.vault.encrypt store.time password kept) s.entropy with ⟨r, e⟩
      cases r with
      | error failure => simp [hseal] at h
      | ok sealedText =>
        rcases Vault.encrypt_ok hseal with ⟨-, key, -, -, -, hkey, -⟩
        exact Vault.derives_of_key hkey
    · intro hderives
      obtain ⟨sealedText, f, hseal⟩ := hderives.exists_encrypt store.time kept s.entropy
      simp [hseal, exec_table houtage hseeds]

/-- Under a password that has no key nothing is saved. -/
theorem save_without_key {kept : String} {failure : Failure}
    (hparse : SeedPhrase.parse? phrase = some kept)
    (hbytes : store.vault.passwordBytes password = .error failure) :
    (exec (store.save password phrase) s).1 = .error failure := by
  have hseal : (exec (store.vault.sealPhrase store.time password phrase) s.entropy).1 =
      .error failure := Vault.exec_sealPhrase_without_key hparse hbytes store.time
  rw [exec_save]
  rcases hrun : exec (store.vault.sealPhrase store.time password phrase) s.entropy with ⟨r, e⟩
  rw [hrun] at hseal
  obtain rfl : r = .error failure := hseal
  rfl

/-- A save that succeeds has sealed its phrase, and leaves the table with what it sealed. -/
theorem save_eq_of_ok (houtage : s.outage = none) (hseeds : s.seeds = some t)
    (h : exec (store.save password phrase) s = (.ok (), s')) :
    ∃ sealedText e,
      exec (store.vault.sealPhrase store.time password phrase) s.entropy = (.ok sealedText, e) ∧
      s' = { s with
        seeds := some (t.putPhrase sealedText), entropy := e, log := s.log ++ savedLines t } := by
  rw [exec_save] at h
  rcases hseal : exec (store.vault.sealPhrase store.time password phrase) s.entropy with ⟨r, e⟩
  cases r with
  | error failure => simp [hseal] at h
  | ok sealedText =>
    simp only [hseal, exec_table houtage hseeds, Prod.mk.injEq, true_and] at h
    exact ⟨sealedText, e, rfl, h.symm⟩

/-- A save that succeeds brings its phrase into the table. -/
theorem save_ok (store : SecretStore) (hcipher : store.vault.cipher.Lawful)
    (houtage : s.outage = none) (hseeds : s.seeds = some t) (hstores : t.Stores store.vault last)
    (h : exec (store.save password phrase) s = (.ok (), s')) :
    ∃ t', s'.seeds = some t' ∧ t'.Stores store.vault (some ⟨password, phrase⟩) := by
  rcases save_eq_of_ok houtage hseeds h with ⟨sealedText, e, hseal, rfl⟩
  rcases Vault.openPhrase_sealPhrase hcipher hseal with ⟨kept, hparse, hopen⟩
  refine ⟨_, rfl, kept, sealedText, hparse, ?_, hopen⟩
  -- the first save makes the row with the next id, which is that of the phrase; a later one
  -- changes the row in place
  cases last with
  | none =>
    rcases hstores with ⟨hrows, hnext⟩
    simp [Table.putPhrase, Table.withId?, Table.append, hrows, hnext]
  | some stored =>
    rcases hstores with ⟨-, old, -, hrows, -⟩
    simp [Table.putPhrase, Table.withId?, hrows]

/-- A save that fails leaves the table as it was. -/
theorem save_error {failure : Failure}
    (h : exec (store.save password phrase) s = (.error failure, s')) : s'.seeds = s.seeds := by
  rw [exec_save] at h
  rcases hseal : exec (store.vault.sealPhrase store.time password phrase) s.entropy with ⟨r, e⟩
  cases r with
  | error failure' =>
    simp only [hseal, Prod.mk.injEq] at h
    rw [← h.2]
  | ok sealedText =>
    cases htable : (exec (table (some "Failed to save mnemonic")) s).1 with
    | error fault =>
      simp only [hseal, htable, Prod.mk.injEq] at h
      rw [← h.2]
    | ok t => simp [hseal, htable] at h

end SecretStore

end NodeStore
