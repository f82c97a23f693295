import NodeStore.Proofs.SecretStore.Runs

/-! # What a save leaves in any table

The table of seeds may have been edited by hand: rows added, changed or removed. A save updates the
row of the phrase, or else adds a row, which gets the id that the table gives next; whoever looks
for a phrase looks at the row of the phrase alone. So a save that succeeds can be lost.

* `Table.withId?_putPhrase`: the row of the phrase after a save;
* `readsBack_of_save`, `lost_of_save`: what is found after a save that succeeded;
* `save_readsBack_iff`: it can be read back exactly if the table takes it (`Table.Takes`).
-/

namespace NodeStore

open Op

namespace Table

variable {t : Table Cell} {sealedText : String}

/-- A phrase that is saved gets into the row of the phrase: the row is there, or its id is next. -/
def Takes (t : Table Cell) : Prop :=
  (t.withId? SecretStore.phraseId).isSome ∨ t.nextId = SecretStore.phraseId

instance (t : Table Cell) : Decidable t.Takes :=
  inferInstanceAs (Decidable ((t.withId? SecretStore.phraseId).isSome ∨
    t.nextId = SecretStore.phraseId))

/-- The row of the phrase after a save. -/
theorem withId?_putPhrase (htakes : t.Takes) (sealedText : String) :
    (t.putPhrase sealedText).withId? SecretStore.phraseId =
      some ⟨SecretStore.phraseId, .text sealedText⟩ := by
  unfold putPhrase
  cases hrow : t.withId? SecretStore.phraseId with
  | some row =>
    have hid : row.id = SecretStore.phraseId := by simpa using List.find?_some hrow
    -- the rows keep their ids, so that the same row is found
    have hsame : ((fun r : Row Cell => r.id == SecretStore.phraseId) ∘ fun r : Row Cell =>
        if r.id = SecretStore.phraseId then (⟨r.id, .text sealedText⟩ : Row Cell) else r) =
        fun r => r.id == SecretStore.phraseId := by
      funext r
      by_cases hr : r.id = SecretStore.phraseId <;> simp [hr]
    unfold withId? at hrow
    simp only [withId?, List.find?_map, hsame, hrow, Option.map_some, if_pos hid]
    rw [hid]
  | none =>
    have hnext : t.nextId = SecretStore.phraseId := by
      rcases htakes with hsome | hnext
      · simp [hrow] at hsome
      · exact hnext
    unfold withId? at hrow
    simp [withId?, append, List.find?_append, hrow, hnext]

/-- A save into a table that does not take the phrase adds a row that nobody looks for. -/
theorem withId?_putPhrase_of_not (htakes : ¬ t.Takes) (sealedText : String) :
    (t.putPhrase sealedText).withId? SecretStore.phraseId = none := by
  have hrow : t.withId? SecretStore.phraseId = none := by
    simpa [Takes] using fun hsome => htakes (Or.inl hsome)
  have hnext : t.nextId ≠ SecretStore.phraseId := fun hnext => htakes (Or.inr hnext)
  unfold putPhrase
  simp only [hrow]
  unfold withId? at hrow
  simp [withId?, append, List.find?_append, hrow, hnext]

/-- A save changes a row in place or adds one. -/
theorem length_putPhrase (t : Table Cell) (sealedText : String) :
    (t.putPhrase sealedText).rows.length =
      t.rows.length + if (t.withId? SecretStore.phraseId).isSome then 0 else 1 := by
  unfold putPhrase
  cases t.withId? SecretStore.phraseId with
  | some row => simp
  | none => simp [append]

end Table

namespace SecretHandle

variable {s : SecretHandle} {h h' : Host} {tables : Tables} {t : Table Cell}
  {password phrase : RawText}

/-- The number of rows in the table of seeds, if a store finds it. -/
def rowCount (s : SecretHandle) (h : Host) : Option Nat :=
  (s.start h).seeds.map fun t => t.rows.length

/-- The phrase of a save is found: the store says that it holds one, the password gets it, and the
next save does not add a row. -/
structure ReadsBack (s : SecretHandle) (h : Host) (password : RawText) (kept : String) : Prop where
  initialized : (exec (s.run fun _ => SecretStore.isInitialized) h).1 = .ok true
  phrase : (exec (s.run fun store => store.get password) h).1 = .ok kept
  rows : ∀ password' phrase' h',
    exec (s.run fun store => store.save password' phrase') h = (.ok (), h') →
    s.rowCount h' = s.rowCount h

/-- No phrase is found under any password, and the next save adds another row. -/
structure Lost (s : SecretHandle) (h : Host) : Prop where
  initialized : (exec (s.run fun _ => SecretStore.isInitialized) h).1 = .ok false
  phrase : ∀ password,
    (exec (s.run fun store => store.get password) h).1 = .error .notInitialized
  rows : ∀ password' phrase' h',
    exec (s.run fun store => store.save password' phrase') h = (.ok (), h') →
    s.rowCount h' = (s.rowCount h).map (· + 1)

theorem rowCount_of_holds (hopen : s.closed = false) (hold : h.Holds s.path tables)
    (hseeds : tables.seeds = some t) : s.rowCount h = some t.rows.length := by
  simp only [rowCount, start, hopen, Bool.false_eq_true, if_false, hold.databaseAt, hseeds,
    Option.map_some]

/-! ## What is found in a table -/

/-- The store says that it holds a phrase if the row of the phrase is there. -/
theorem isInitialized_of_holds (hopen : s.closed = false) (hold : h.Holds s.path tables)
    (hseeds : tables.seeds = some t) :
    (exec (s.run fun _ => SecretStore.isInitialized) h).1 =
      .ok (t.withId? SecretStore.phraseId).isSome := by
  obtain ⟨h', hrun, -⟩ := exec_run hopen hold fun _ => SecretStore.isInitialized
  rw [hrun, SecretStore.exec_isInitialized_eq rfl hseeds]

/-- What is got is what the row of the phrase opens to. -/
theorem get_of_holds (hopen : s.closed = false) (hold : h.Holds s.path tables)
    (hseeds : tables.seeds = some t) (password : RawText) :
    (exec (s.run fun store => store.get password) h).1 =
      match t.withId? SecretStore.phraseId with
      | none => .error .notInitialized
      | some row => (s.store h).open? password row.data := by
  obtain ⟨h', hrun, -⟩ := exec_run hopen hold fun store => store.get password
  have hget := SecretStore.exec_get_eq (s := { seeds := tables.seeds, entropy := h.entropy })
    (s.store h) password rfl hseeds
  cases hrow : t.withId? SecretStore.phraseId with
  | none => simp only [hrun, hget, hrow]
  | some row => simp only [hrun, hget, hrow]

/-- A save that succeeds puts what it has sealed into the table of the file. -/
theorem save_holds (hopen : s.closed = false) (hold : h.Holds s.path tables)
    (hseeds : tables.seeds = some t)
    (hsave : exec (s.run fun store => store.save password phrase) h = (.ok (), h')) :
    ∃ sealedText e,
      exec ((s.store h).vault.sealPhrase h.time password phrase) h.entropy =
        (.ok sealedText, e) ∧
      h'.Holds s.path { tables with seeds := some (t.putPhrase sealedText) } ∧
      (s.store h').vault = (s.store h).vault := by
  obtain ⟨h₁, hrun, hold', -, hcipher, -⟩ :=
    exec_run hopen hold fun store => store.save password phrase
  rcases hop : exec ((s.store h).save password phrase)
    { seeds := tables.seeds, entropy := h.entropy } with ⟨r, u⟩
  rw [hsave, hop, Prod.mk.injEq] at hrun
  rw [hop] at hold'
  rcases hrun with ⟨rfl, rfl⟩
  rcases SecretStore.save_eq_of_ok rfl hseeds hop with ⟨sealedText, e, hseal, rfl⟩
  exact ⟨sealedText, e, hseal, hold', by simp only [store, hcipher]⟩

/-- What a save adds to the number of rows. -/
theorem rowCount_of_save (hopen : s.closed = false) (hold : h.Holds s.path tables)
    (hseeds : tables.seeds = some t)
    (hsave : exec (s.run fun store => store.save password phrase) h = (.ok (), h')) :
    s.rowCount h' = (s.rowCount h).map
      (· + if (t.withId? SecretStore.phraseId).isSome then 0 else 1) := by
  rcases save_holds hopen hold hseeds hsave with ⟨sealedText, e, -, hold', -⟩
  rw [rowCount_of_holds hopen hold hseeds, rowCount_of_holds hopen hold' rfl,
    Table.length_putPhrase, Option.map_some]

/-! ## What is found after a save -/

/-- A phrase that the table took is read back. -/
theorem readsBack_of_save (hopen : s.closed = false) (hcipher : h.cipher.Lawful)
    (hold : h.Holds s.path tables) (hseeds : tables.seeds = some t) (htakes : t.Takes)
    (hsave : exec (s.run fun store => store.save password phrase) h = (.ok (), h')) :
    ∃ kept, SeedPhrase.parse? phrase = some kept ∧ s.ReadsBack h' password kept := by
  rcases save_holds hopen hold hseeds hsave with ⟨sealedText, e, hseal, hold', hvault⟩
  obtain ⟨kept, hparse, hopens⟩ :=
    Vault.openPhrase_sealPhrase (v := (s.store h).vault) hcipher hseal
  have hrow := Table.withId?_putPhrase htakes sealedText
  refine ⟨kept, hparse, ?_, ?_, ?_⟩
  · rw [isInitialized_of_holds hopen hold' rfl, hrow]
    rfl
  · rw [get_of_holds hopen hold' rfl, hrow]
    simp only [SecretStore.open?, hvault, hopens]
  · intro password' phrase' h'' hagain
    rw [rowCount_of_save hopen hold' rfl hagain, hrow]
    simp

/-- A phrase that the table did not take is lost. -/
theorem lost_of_save (hopen : s.closed = false) (hold : h.Holds s.path tables)
    (hseeds : tables.seeds = some t) (htakes : ¬ t.Takes)
    (hsave : exec (s.run fun store => store.save password phrase) h = (.ok (), h')) :
    s.Lost h' := by
  rcases save_holds hopen hold hseeds hsave with ⟨sealedText, e, -, hold', -⟩
  have hrow := Table.withId?_putPhrase_of_not htakes sealedText
  refine ⟨?_, ?_, ?_⟩
  · rw [isInitialized_of_holds hopen hold' rfl, hrow]
    rfl
  · intro other
    rw [get_of_holds hopen hold' rfl, hrow]
  · intro password' phrase' h'' hagain
    rw [rowCount_of_save hopen hold' rfl hagain, hrow]
    simp

/-- A phrase is saved into any table, under a password that keys are derived from. -/
theorem exists_save (hopen : s.closed = false) (hold : h.Holds s.path tables)
    (hseeds : tables.seeds = some t) (hderives : (s.store h).vault.Derives password)
    (hparse : (SeedPhrase.parse? phrase).isSome) :
    ∃ h', exec (s.run fun store => store.save password phrase) h = (.ok (), h') := by
  obtain ⟨h', hrun, -⟩ := exec_run hopen hold fun store => store.save password phrase
  have hsaved := (SecretStore.save_ok_iff (s.store h) password phrase
    (s := { seeds := tables.seeds, entropy := h.entropy }) rfl hseeds).2 ⟨hderives, hparse⟩
  exact ⟨h', by rw [hrun, hsaved]⟩

/-- After a save that succeeded, whatever the table held before: if the table had the row of the
phrase, or gave its id next, the kept form of the phrase is read back with the password and a
second save adds no row. Otherwise the phrase is lost: the store says that it holds none, no
password gets one, and a second save adds another row. -/
theorem save_readsBack_iff (hopen : s.closed = false) (hcipher : h.cipher.Lawful)
    (hold : h.Holds s.path tables) (hseeds : tables.seeds = some t)
    (hsave : exec (s.run fun store => store.save password phrase) h = (.ok (), h')) :
    ∃ kept, SeedPhrase.parse? phrase = some kept ∧
      (s.ReadsBack h' password kept ↔ t.Takes) ∧ (s.Lost h' ↔ ¬ t.Takes) := by
  -- the store cannot say both that it holds a phrase and that it holds none
  have hnotBoth : ∀ kept, s.ReadsBack h' password kept → ¬ s.Lost h' := by
    intro kept hreads hlost
    have hboth := hreads.initialized.symm.trans hlost.initialized
    simp at hboth
  rcases save_holds hopen hold hseeds hsave with ⟨sealedText, e, hseal, -, -⟩
  obtain ⟨kept, hparse, -⟩ := Vault.openPhrase_sealPhrase (v := (s.store h).vault) hcipher hseal
  refine ⟨kept, hparse, ?_⟩
  by_cases htakes : t.Takes
  · obtain ⟨kept', hparse', hreads⟩ := readsBack_of_save hopen hcipher hold hseeds htakes hsave
    obtain rfl : kept' = kept := Option.some.inj (hparse'.symm.trans hparse)
    exact ⟨iff_of_true hreads htakes, iff_of_false (hnotBoth _ hreads) fun hnot => hnot htakes⟩
  · have hlost := lost_of_save hopen hold hseeds htakes hsave
    exact ⟨iff_of_false (fun hreads => hnotBoth _ hreads hlost) htakes, iff_of_true hlost htakes⟩

/-! ## Tables that were edited by hand -/

/-- A machine on which the file of the store holds a table. -/
def hostWith (t : Table Cell) : Host :=
  Host.bare.putTables (bareStore.path.placeFrom Host.bare.workDir) { seeds := some t }

theorem holds_hostWith (t : Table Cell) :
    (hostWith t).Holds bareStore.path { seeds := some t } := by
  have hdb : Host.bare.databaseAt bareStore.path =
      .ok (bareStore.path.placeFrom Host.bare.workDir, {}) := rfl
  exact Host.holds_putTables hdb { seeds := some t }

theorem exists_save_hostWith (t : Table Cell) :
    ∃ h', exec (bareStore.run fun store => store.save "p" typedPhrase) (hostWith t) =
      (.ok (), h') := by
  have hparse : (SeedPhrase.parse? typedPhrase).isSome = true := by
    rw [parse_typedPhrase]
    rfl
  exact exists_save rfl (holds_hostWith t) rfl (derives_bareStore _ (by decide)) hparse

/-- The row of the phrase was given bytes by hand, and another row was added. The save is found. -/
theorem edited_table_reads_back :
    let t : Table Cell := ⟨[⟨1, .blob [0]⟩, ⟨7, .text ""⟩], some 9⟩
    bareStore.closed = false ∧ (hostWith t).cipher.Lawful ∧
    (hostWith t).Holds bareStore.path { seeds := some t } ∧
    ∃ h', exec (bareStore.run fun store => store.save "p" typedPhrase) (hostWith t) =
        (.ok (), h') ∧
      ∃ kept, SeedPhrase.parse? typedPhrase = some kept ∧ bareStore.ReadsBack h' "p" kept := by
  intro t
  obtain ⟨h', hsave⟩ := exists_save_hostWith t
  have hcipher : (hostWith t).cipher.Lawful := TokenCipher.fernet_lawful
  obtain ⟨kept, hparse, hreads, -⟩ := save_readsBack_iff (s := bareStore) rfl hcipher
    (holds_hostWith t) rfl hsave
  have htakes : t.Takes := by decide
  exact ⟨rfl, hcipher, holds_hostWith t, h', hsave, kept, hparse, hreads.2 htakes⟩

/-- The row of the first save was removed by hand. The next save succeeds, and its phrase is lost:
the table does not give the id 1 again. -/
theorem emptied_table_loses_phrase :
    ∃ h', exec (bareStore.run fun store => store.save "p" typedPhrase)
        (hostWith { lastId := some 1 }) = (.ok (), h') ∧
      (exec (bareStore.run fun _ => SecretStore.isInitialized) h').1 = .ok false ∧
      (exec (bareStore.run fun store => store.get "p") h').1 = .error .notInitialized := by
  obtain ⟨h', hsave⟩ := exists_save_hostWith { lastId := some 1 }
  have htakes : ¬ Table.Takes { lastId := some 1 } := by decide
  have hlost := lost_of_save (s := bareStore) rfl (holds_hostWith _) rfl htakes hsave
  exact ⟨h', hsave, hlost.initialized, hlost.phrase "p"⟩

end SecretHandle

end NodeStore
