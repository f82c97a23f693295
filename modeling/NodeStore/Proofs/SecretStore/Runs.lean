import NodeStore.Proofs.SecretStore.Handle

/-! # Runs of a secret store

A secret store is made where there was no file, and is then used in any order: phrases are saved,
got and restored, it is asked whether it holds one, and it is closed and opened again. In between
the machine may do whatever leaves the store's file and the cipher as they are (`Reachable`).

The invariant is `Holding`: the file holds what the last save or restoration that succeeded has
stored. From it, `phrase_of_last_save` tells what the store answers. -/

namespace NodeStore.SecretHandle

open Op

/-- What is done with a secret store. -/
inductive Use where
  | save (password phrase : RawText)
  | get (password : RawText)
  | isInitialized
  | checkUninitialized
  /-- The phrase of a folder's file is moved into the store. -/
  | restore (folder : Path) (password : RawText)
  /-- The store is closed and opened again. -/
  | reopen
deriving DecidableEq

/-- A host, and what was stored last on it by a save or a restoration that succeeded. -/
structure Trace where
  host : Host
  last : Option Stored

/-- What an operation leaves: a new phrase if it has stored one. -/
def Trace.after {α : Type} (tr : Trace) (op : HostM α) (stored : α → Option Stored) : Trace :=
  match exec op tr.host with
  | (.ok a, host) => ⟨host, (stored a).or tr.last⟩
  | (.error _, host) => ⟨host, tr.last⟩

theorem Trace.after_ok {α : Type} {tr : Trace} {op : HostM α} {stored : α → Option Stored} {a : α}
    {host : Host} (h : exec op tr.host = (.ok a, host)) :
    tr.after op stored = ⟨host, (stored a).or tr.last⟩ := by
  rw [Trace.after, h]

theorem Trace.after_error {α : Type} {tr : Trace} {op : HostM α} {stored : α → Option Stored}
    {e : Failure} {host : Host} (h : exec op tr.host = (.error e, host)) :
    tr.after op stored = ⟨host, tr.last⟩ := by
  rw [Trace.after, h]

/-- An operation that stores nothing. -/
theorem Trace.after_none {α : Type} (tr : Trace) (op : HostM α) :
    tr.after op (fun _ => none) = ⟨(exec op tr.host).2, tr.last⟩ := by
  rcases hexec : exec op tr.host with ⟨r, host⟩
  cases r with
  | error e => rw [after_error hexec]
  | ok a => rw [after_ok hexec, Option.none_or]

/-- Uses the store. -/
def Use.carryOut (s : SecretHandle) (tr : Trace) : Use → Trace
  | save password phrase =>
    tr.after (s.run fun store => store.save password phrase) fun _ => some ⟨password, phrase⟩
  | get password => tr.after (s.run fun store => store.get password) fun _ => none
  | isInitialized => tr.after (s.run fun _ => SecretStore.isInitialized) fun _ => none
  | checkUninitialized => tr.after (s.run fun _ => SecretStore.checkUninitialized) fun _ => none
  | restore folder password =>
    tr.after (s.restore folder password) fun phrase => some ⟨password, phrase⟩
  | reopen => tr.after («open» s.path s.iterations) fun _ => none

/-- The traces of a store from the one that its opening left. -/
inductive Reachable (s : SecretHandle) (opened : Host) : Trace → Prop where
  | opened : Reachable s opened ⟨opened, none⟩
  | use {tr : Trace} (u : Use) : Reachable s opened tr → Reachable s opened (u.carryOut s tr)
  /-- Something else happens on the machine. That includes a use that the engine breaks off: it is
  rolled back, so that the file is left as it was and nothing is stored. -/
  | other {tr : Trace} {host : Host} : Reachable s opened tr →
      host.databaseAt s.path = tr.host.databaseAt s.path → host.cipher = tr.host.cipher →
      Reachable s opened ⟨host, tr.last⟩

/-! ## The invariant -/

/-- The file of the store holds what was stored last. -/
structure Holding (s : SecretHandle) (tr : Trace) : Prop where
  lawful : tr.host.cipher.Lawful
  table : ∃ tables t, tr.host.Holds s.path tables ∧ tables.seeds = some t ∧
    t.Stores ⟨tr.host.cipher, s.iterations⟩ tr.last

variable {s : SecretHandle} {tr : Trace}

theorem holding_open {start opened : Host} {path : Path} {iterations : Int}
    (hcipher : start.cipher.Lawful)
    (hnew : start.files.entry? (path.placeFrom start.workDir) = none)
    (hopen : exec («open» path iterations) start = (.ok s, opened)) :
    s = { path, iterations } ∧ s.Holding ⟨opened, none⟩ := by
  rcases exec_open_new hnew hopen with ⟨rfl, hold, hsame⟩
  exact ⟨rfl, by rwa [hsame], _, _, hold, rfl, Table.stores_new _⟩

/-- The invariant on a host with the same cipher. -/
theorem Holding.of_table {host : Host} {last : Option Stored} {tables : Tables} {t : Table Cell}
    (h : s.Holding tr) (hcipher : host.cipher = tr.host.cipher) (hold : host.Holds s.path tables)
    (hseeds : tables.seeds = some t) (hstores : t.Stores ⟨tr.host.cipher, s.iterations⟩ last) :
    s.Holding ⟨host, last⟩ :=
  ⟨by rw [hcipher]; exact h.lawful, tables, t, hold, hseeds, by rwa [hcipher]⟩

/-- An operation that only looks at the table keeps the invariant. -/
theorem Holding.look {α : Type} {op : SecretStore → SecretM α} (h : s.Holding tr)
    (hopen : s.closed = false) (hlook : ∀ store u, (exec (op store) u).2.seeds = u.seeds) :
    s.Holding (tr.after (s.run op) fun _ => none) := by
  rcases h.table with ⟨tables, t, hold, hseeds, hstores⟩
  rcases exec_run hopen hold op with ⟨h', hrun, hold', -, hcipher, -⟩
  rw [hlook] at hold'
  rw [Trace.after_none, hrun]
  exact h.of_table hcipher hold' hseeds hstores

theorem Holding.save (h : s.Holding tr) (hopen : s.closed = false) (password phrase : RawText) :
    s.Holding ((Use.save password phrase).carryOut s tr) := by
  rcases h.table with ⟨tables, t, hold, hseeds, hstores⟩
  obtain ⟨h', hrun, hold', -, hcipher, -⟩ :=
    exec_run hopen hold fun store => store.save password phrase
  rcases hsave : exec ((s.store tr.host).save password phrase)
    { seeds := tables.seeds, entropy := tr.host.entropy } with ⟨r, u⟩
  rw [hsave] at hrun hold'
  cases r with
  | error e =>
    rw [SecretStore.save_error hsave] at hold'
    rw [Use.carryOut, Trace.after_error hrun]
    exact h.of_table hcipher hold' hseeds hstores
  | ok done =>
    obtain ⟨t', hseeds', hstores'⟩ := SecretStore.save_ok (s.store tr.host)
      (s := { seeds := tables.seeds, entropy := tr.host.entropy }) h.lawful rfl hseeds hstores hsave
    rw [Use.carryOut, Trace.after_ok hrun]
    exact h.of_table hcipher hold' hseeds' hstores'

theorem Holding.restore (h : s.Holding tr) (hopen : s.closed = false) (folder : Path)
    (password : RawText) : s.Holding ((Use.restore folder password).carryOut s tr) := by
  rcases h.table with ⟨tables, t, hold, hseeds, hstores⟩
  rcases exec_restore hopen hold folder password with
    ⟨e, h', hrestore, hold', hcipher⟩ | ⟨phrase, h', u, hrestore, hsave, hold', hcipher⟩
  · rw [Use.carryOut, Trace.after_error hrestore]
    exact h.of_table hcipher hold' hseeds hstores
  · obtain ⟨t', hseeds', hstores'⟩ := SecretStore.save_ok (s.store tr.host)
      (s := { seeds := tables.seeds, entropy := tr.host.entropy }) h.lawful rfl hseeds hstores hsave
    rw [Use.carryOut, Trace.after_ok hrestore]
    exact h.of_table hcipher hold' hseeds' hstores'

theorem Holding.restore_cipher (h : s.Holding tr) (hopen : s.closed = false) (folder : Path)
    (password : RawText) :
    (exec (s.restore folder password) tr.host).2.cipher = tr.host.cipher := by
  rcases h.table with ⟨tables, t, hold, hseeds, hstores⟩
  rcases exec_restore hopen hold folder password with
    ⟨e, h', hrestore, -, hcipher⟩ | ⟨phrase, h', u, hrestore, -, -, hcipher⟩
  · rw [hrestore]
    exact hcipher
  · rw [hrestore]
    exact hcipher

theorem Holding.reopen (h : s.Holding tr) : s.Holding (Use.reopen.carryOut s tr) := by
  rcases h.table with ⟨tables, t, hold, hseeds, hstores⟩
  rcases exec_open_again s.iterations hold hseeds with ⟨h', hopen, hold', hcipher⟩
  rw [Use.carryOut, Trace.after_ok hopen]
  exact h.of_table hcipher hold' hseeds hstores

theorem Holding.carryOut (h : s.Holding tr) (hopen : s.closed = false) (u : Use) :
    s.Holding (u.carryOut s tr) := by
  cases u with
  | save password phrase => exact h.save hopen password phrase
  | get password =>
    exact h.look hopen fun store u => SecretStore.keeps_getPhrase (I := (·.seeds = u.seeds)) u rfl
  | isInitialized =>
    exact h.look hopen fun _ u => SecretStore.keeps_isInitialized (I := (·.seeds = u.seeds)) u rfl
  | checkUninitialized =>
    exact h.look hopen fun _ u =>
      SecretStore.keeps_checkUninitialized (I := (·.seeds = u.seeds)) u rfl
  | restore folder password => exact h.restore hopen folder password
  | reopen => exact h.reopen

theorem Holding.other (h : s.Holding tr) {host : Host}
    (hfile : host.databaseAt s.path = tr.host.databaseAt s.path)
    (hcipher : host.cipher = tr.host.cipher) : s.Holding ⟨host, tr.last⟩ := by
  rcases h.table with ⟨tables, t, hold, hseeds, hstores⟩
  have hold' : host.Holds s.path tables := by
    apply Host.holds_of_databaseAt (hfile.trans hold.databaseAt)
    rintro rfl
    simp at hseeds
  exact h.of_table hcipher hold' hseeds hstores

theorem Reachable.holding {opened : Host} (h : s.Reachable opened tr) (hopen : s.closed = false)
    (hinit : s.Holding ⟨opened, none⟩) : s.Holding tr := by
  induction h with
  | opened => exact hinit
  | use u _ ih => exact ih.carryOut hopen u
  | other _ hfile hcipher ih => exact ih.other hfile hcipher

/-- A save of a phrase is the last one from then on, if keys are derived from its password; a save
of another text changes nothing. -/
theorem Holding.last_save (h : s.Holding tr) (hopen : s.closed = false)
    {password : RawText} (hderives : (s.store tr.host).vault.Derives password) (phrase : RawText) :
    ((Use.save password phrase).carryOut s tr).last =
      if (SeedPhrase.parse? phrase).isSome then some ⟨password, phrase⟩ else tr.last := by
  rcases h.table with ⟨tables, t, hold, hseeds, -⟩
  rcases exec_run hopen hold fun store => store.save password phrase with ⟨h', hrun, -⟩
  have hsaved := SecretStore.save_ok_iff (s.store tr.host) password phrase
    (s := { seeds := tables.seeds, entropy := tr.host.entropy }) rfl hseeds
  rw [and_iff_right hderives] at hsaved
  cases hr : (exec ((s.store tr.host).save password phrase)
      { seeds := tables.seeds, entropy := tr.host.entropy }).1 with
  | error e =>
    rw [hr] at hrun hsaved
    rw [Use.carryOut, Trace.after_error hrun, if_neg fun hsome => by simpa using hsaved.2 hsome]
  | ok done =>
    rw [hr] at hrun hsaved
    rw [Use.carryOut, Trace.after_ok hrun, if_pos (hsaved.1 rfl)]
    rfl

/-- Opening the store again stores nothing. -/
theorem last_reopen (s : SecretHandle) (tr : Trace) :
    (Use.reopen.carryOut s tr).last = tr.last := by
  rw [Use.carryOut, Trace.after_none]

/-! ## Answers -/

/-- A store that was made where there was no file, after any uses.

* Its table has no row, or one row, whose id is 1.
* It says that it is initialized exactly when a save or a restoration has succeeded.
* Before that there is no phrase to get.
* After that the password of the last one gets its phrase, in the kept form.
* It can be opened again. -/
theorem phrase_of_last_save {start opened : Host} {path : Path} {iterations : Int}
    (hcipher : start.cipher.Lawful)
    (hnew : start.files.entry? (path.placeFrom start.workDir) = none)
    (hopen : exec («open» path iterations) start = (.ok s, opened)) (hrun : s.Reachable opened tr) :
    (∃ place tables t, tr.host.databaseAt path = .ok (place, tables) ∧ tables.seeds = some t ∧
      (t.rows = [] ∨ ∃ data, t.rows = [⟨1, data⟩])) ∧
    (exec (s.run fun _ => SecretStore.isInitialized) tr.host).1 = .ok tr.last.isSome ∧
    (tr.last = none → ∀ password,
      (exec (s.run fun store => store.get password) tr.host).1 = .error .notInitialized) ∧
    (∀ stored, tr.last = some stored → ∃ kept, SeedPhrase.parse? stored.phrase = some kept ∧
      (exec (s.run fun store => store.get stored.password) tr.host).1 = .ok kept) ∧
    (exec («open» path iterations) tr.host).1 = .ok s := by
  rcases holding_open hcipher hnew hopen with ⟨rfl, hinit⟩
  rcases hrun.holding rfl hinit with ⟨-, tables, t, hold, hseeds, hstores⟩
  -- every answer is that of the operation on the table
  have hanswer : ∀ {α : Type} (op : SecretStore → SecretM α),
      (exec (SecretHandle.run { path, iterations } op) tr.host).1 =
        (exec (op ⟨⟨tr.host.cipher, iterations⟩, tr.host.time⟩)
          { seeds := tables.seeds, entropy := tr.host.entropy }).1 := by
    intro α op
    rcases exec_run (s := { path, iterations }) rfl hold op with ⟨h', hop, -⟩
    rw [hop]
    rfl
  refine ⟨⟨_, tables, t, hold.databaseAt, hseeds, hstores.rows⟩, ?_, ?_, ?_, ?_⟩
  · rw [hanswer, SecretStore.exec_isInitialized
      ⟨⟨tr.host.cipher, iterations⟩, tr.host.time⟩ rfl hseeds hstores]
  · -- the table holds nothing
    intro hnone password
    rw [hnone] at hstores
    rw [hanswer, SecretStore.exec_get_none rfl hseeds hstores]
  · -- the one row opens to the phrase of the last save
    intro stored hsome
    rw [hsome] at hstores
    obtain ⟨kept, hparse, hget⟩ := SecretStore.exec_get_some
      ⟨⟨tr.host.cipher, iterations⟩, tr.host.time⟩
      (s := { seeds := tables.seeds, entropy := tr.host.entropy }) rfl hseeds hstores
    exact ⟨kept, hparse, by rw [hanswer, hget]⟩
  · rcases exec_open_again iterations hold hseeds with ⟨h', hopen', -⟩
    rw [hopen']

/-- A store that is made on a bare machine. -/
def bareStore : SecretHandle where
  path := ⟨.root, ["rln_db"]⟩
  iterations := 1

/-- The store derives keys from every password of characters that is not too long. -/
theorem derives_bareStore (h : Host) {password : String}
    (hsize : (Utf8.encode password).length ≤ Vault.maxCount) :
    (bareStore.store h).vault.Derives password :=
  Vault.derives_ofString (Int.le_refl 1) (by change (1 : Int) ≤ _; decide) hsize

/-- A phrase that is typed with a capital. -/
def typedPhrase : String :=
  "abandon abandon abandon abandon abandon abandon abandon abandon abandon abandon abandon About"

/-- The phrase in the form that is kept. -/
def keptPhrase : String :=
  "abandon abandon abandon abandon abandon abandon abandon abandon abandon abandon abandon about"

theorem parse_typedPhrase : SeedPhrase.parse? typedPhrase = some keptPhrase :=
  (SeedPhrase.parse?_of_wordsOf (by decide +kernel) SeedPhrase.isValid_zeros).trans
    (congrArg some (by decide +kernel))

/-- A stored phrase survives a save that fails and another opening. -/
theorem phrase_survives_failed_save :
    Host.bare.cipher.Lawful ∧
      Host.bare.files.entry? (bareStore.path.placeFrom Host.bare.workDir) = none ∧
      ∃ opened, exec («open» bareStore.path 1) Host.bare = (.ok bareStore, opened) ∧
        ∃ tr, bareStore.Reachable opened tr ∧ tr.last = some ⟨"p", typedPhrase⟩ ∧
          ∃ kept, SeedPhrase.parse? typedPhrase = some kept ∧
            (exec (bareStore.run fun store => store.get "p") tr.host).1 = .ok kept := by
  have hcipher : Host.bare.cipher.Lawful := TokenCipher.fernet_lawful
  have hnew : Host.bare.files.entry? (bareStore.path.placeFrom Host.bare.workDir) = none := by
    decide
  have hopen : exec («open» bareStore.path 1) Host.bare =
      (.ok bareStore, (exec («open» bareStore.path 1) Host.bare).2) := rfl
  -- What the opening left is not computed: the general theorem speaks of it.
  generalize (exec («open» bareStore.path 1) Host.bare).2 = opened at hopen
  rcases holding_open hcipher hnew hopen with ⟨-, hinit⟩
  have hsaved := hinit.save rfl "p" typedPhrase
  have hkept : (SeedPhrase.parse? typedPhrase).isSome = true := by
    rw [parse_typedPhrase]
    rfl
  have hnoPhrase : (SeedPhrase.parse? "no phrase").isSome = false := by decide +kernel
  have hrun₀ : Reachable bareStore opened ⟨opened, none⟩ := .opened
  have hrun₁ := Reachable.use (.save "p" typedPhrase) hrun₀
  have hrun₂ := Reachable.use (.save "q" "no phrase") hrun₁
  have hrun := Reachable.use .reopen hrun₂
  have hlast : (Use.reopen.carryOut bareStore ((Use.save "q" "no phrase").carryOut bareStore
      ((Use.save "p" typedPhrase).carryOut bareStore ⟨opened, none⟩))).last =
      some ⟨"p", typedPhrase⟩ := by
    rw [last_reopen, hsaved.last_save rfl (derives_bareStore _ (by decide)), hnoPhrase,
      if_neg (by decide), hinit.last_save rfl (derives_bareStore _ (by decide)), hkept, if_pos rfl]
  have hanswers := phrase_of_last_save hcipher hnew hopen hrun
  have hget := hanswers.2.2.2.1 ⟨"p", typedPhrase⟩ hlast
  exact ⟨hcipher, hnew, opened, hopen, _, hrun, hlast, hget⟩

end NodeStore.SecretHandle
