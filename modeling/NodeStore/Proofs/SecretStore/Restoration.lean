import NodeStore.Proofs.Frame
import NodeStore.Proofs.Opening
import NodeStore.Proofs.SecretStore.Runs
import NodeStore.Proofs.Text.Line

/-! # A restoration loses no phrase

A restoration stores the phrase of a folder's file (`SecretHandle.takeOver`) and then removes the
file. As long as the phrase is not stored nothing is changed but the randomness that is left
(`takeOver_error`), and the file is removed only from a host whose store opens to its phrase
(`Holding.takeOver_ok`).

* `restore_eq`: a restoration is a taking over and a removal;
* `answer_eq`: what a store that works answers;
* `restoration_loses_nothing`: any restoration, by a store in use or one that was closed. -/

namespace NodeStore

open Op

namespace SecretStore

variable {store : SecretStore} {s s' : SecretState} {password phrase : RawText}

/-- A save that fails has drawn random bytes at most. -/
theorem save_failed {e : Failure} (hrun : exec (store.save password phrase) s = (.error e, s')) :
    ∃ entropy, s' = { s with entropy } := by
  unfold save at hrun
  rw [exec_bind, exec_sealPhrase] at hrun
  rcases hseal : exec (store.vault.sealPhrase store.time password phrase) s.entropy with
    ⟨r, entropy⟩
  rw [hseal] at hrun
  cases r with
  | error failure => exact ⟨entropy, (congrArg Prod.snd hrun).symm⟩
  | ok sealedText =>
    simp only at hrun
    rcases htable : exec (table (some "Failed to save mnemonic")) { s with entropy } with ⟨r, u⟩
    have hu : u = { s with entropy } :=
      (keeps_table (I := fun v => v = { s with entropy }) _).after rfl htable
    cases r with
    | error failure =>
      rw [exec_bind_of_error htable, Prod.mk.injEq] at hrun
      exact ⟨entropy, hrun.2.symm.trans hu⟩
    | ok t =>
      -- once the table was found nothing fails any more
      rw [exec_bind_of_ok htable] at hrun
      split at hrun
      · exact absurd (congrArg Prod.fst hrun) nofun
      · exact absurd (congrArg Prod.fst hrun) nofun

/-- An engine that does not answer saves nothing. -/
theorem save_outage {fault : EngineFault} (houtage : s.outage = some fault) :
    ∃ e, (exec (store.save password phrase) s).1 = .error e := by
  unfold save
  rw [exec_bind, exec_sealPhrase]
  rcases exec (store.vault.sealPhrase store.time password phrase) s.entropy with ⟨r, entropy⟩
  cases r with
  | error failure => exact ⟨failure, rfl⟩
  | ok sealedText =>
    simp only
    have htable : exec (table (some "Failed to save mnemonic")) { s with entropy } =
        (.error (.database (.secret (some "Failed to save mnemonic") fault)),
          { s with entropy }) := by
      unfold table
      rw [exec_get_bind]
      simp only [houtage, exec_throw]
    rw [exec_bind_of_error htable]
    exact ⟨_, rfl⟩

end SecretStore

namespace SecretHandle

variable {s : SecretHandle} {h h' : Host} {tr : Trace} {folder : Path} {password : RawText}
  {phrase : String} {place : Place}

/-- An operation of the secret store writes to its file and to log files. -/
theorem run_frame {α : Type} {P : Place → Prop} (hlogs : h.LogsTo P)
    (hplace : P (s.path.placeFrom h.workDir)) (op : SecretStore → SecretM α) :
    h.Frame P (exec (s.run op) h).2 := by
  rw [exec_run_eq]
  generalize exec (op (s.store h)) (s.start h) = result
  rcases result with ⟨r, u⟩
  have hdrawn : h.Frame P { h with entropy := u.entropy } := ⟨rfl, .refl P _⟩
  have hback : h.Frame P (s.writeBack u.seeds { h with entropy := u.entropy }) := by
    unfold writeBack
    split
    · exact hdrawn
    · cases hdb : Host.databaseAt { h with entropy := u.entropy } s.path with
      | error fault => exact hdrawn
      | ok found =>
        rcases found with ⟨place, tables⟩
        simp only
        split
        · exact hdrawn
        · refine hdrawn.trans (Host.frame_putTables hdb ?_ _)
          rw [(Host.databaseAt_ok hdb).1]
          exact hplace
  exact hback.trans (Host.frame_emitAll (hback.logsTo hlogs) _)

/-- The cipher stays. -/
theorem run_cipher {α : Type} (s : SecretHandle) (op : SecretStore → SecretM α) (h : Host) :
    (exec (s.run op) h).2.cipher = h.cipher := by
  have hframe : h.Frame (fun _ => True) (exec (s.run op) h).2 :=
    run_frame (fun _ _ _ _ => trivial) trivial op
  rw [hframe.same]

/-- A save that fails leaves the host as it was, but for the randomness that is left. -/
theorem run_save_error {phrase : RawText} {e : Failure}
    (hrun : exec (s.run fun store => store.save password phrase) h = (.error e, h')) :
    ∃ entropy, h' = { h with entropy } := by
  rw [exec_run_eq] at hrun
  rcases hsave : exec ((s.store h).save password phrase) (s.start h) with ⟨r, u⟩
  rw [hsave, Prod.mk.injEq] at hrun
  rcases hrun with ⟨rfl, rfl⟩
  rcases SecretStore.save_failed hsave with ⟨entropy, rfl⟩
  refine ⟨entropy, ?_⟩
  have hlog : (s.start h).log = [] := by
    unfold start
    split
    · rfl
    · split <;> rfl
  have hback : s.writeBack (s.start h).seeds { h with entropy } = { h with entropy } := by
    unfold writeBack
    split
    · rfl
    · rename_i hclosed
      cases hdb : Host.databaseAt { h with entropy } s.path with
      | error fault => rfl
      | ok found =>
        have hdb' : h.databaseAt s.path = .ok found := hdb
        simp only [start, hclosed, hdb', if_false, Bool.false_eq_true, if_true]
  simp only [hlog, hback]
  rfl

/-! ## Taking over -/

/-- What a restoration does before it removes the file. -/
def takeOver (s : SecretHandle) (folder : Path) (password : RawText) : HostM String := do
  let sealedText ← readPhraseFile (folder / phraseFile)
  let store := s.store (← get)
  let phrase ← liftM (store.vault.openPhrase password sealedText)
  s.run fun store => store.save password phrase
  Host.say LogLevel.info SecretStore.subsystem "Migrated mnemonic from file to database"
  return phrase

/-- The last step of a restoration. -/
def removePhraseFile (folder : Path) : HostM Unit :=
  removeOld (folder / phraseFile) SecretStore.subsystem "mnemonic" none

/-- A restoration takes the phrase over and then removes the file. -/
theorem restore_eq (s : SecretHandle) (folder : Path) (password : RawText) :
    s.restore folder password = (do
      let phrase ← s.takeOver folder password
      removePhraseFile folder
      return phrase) := by
  unfold restore takeOver removePhraseFile
  simp only [bind_assoc, pure_bind]

/-- A phrase that is not taken over leaves the host as it was, but for the randomness that is
left. -/
theorem takeOver_error {e : Failure}
    (hrun : exec (s.takeOver folder password) h = (.error e, h')) :
    ∃ entropy, h' = { h with entropy } := by
  unfold takeOver at hrun
  cases hread : (exec (readPhraseFile (folder / phraseFile)) h).1 with
  | error fault =>
    rw [exec_bind_of_error (exec_readPhraseFile_of hread), Prod.mk.injEq] at hrun
    exact ⟨h.entropy, hrun.2.symm⟩
  | ok sealedText =>
    rw [exec_bind_of_ok (exec_readPhraseFile_of hread), exec_get_bind] at hrun
    simp only at hrun
    cases hphrase : (s.store h).vault.openPhrase password sealedText with
    | error fault =>
      rw [hphrase, exec_bind_of_error (exec_liftExcept _ _), Prod.mk.injEq] at hrun
      exact ⟨h.entropy, hrun.2.symm⟩
    | ok phrase =>
      rw [hphrase, exec_bind_of_ok (exec_liftExcept _ _)] at hrun
      rcases hsave : exec (s.run fun store => store.save password phrase) h with ⟨r, h₁⟩
      cases r with
      | error fault =>
        rw [exec_bind_of_error hsave, Prod.mk.injEq] at hrun
        rw [← hrun.2]
        exact run_save_error hsave
      | ok done =>
        rw [exec_bind_of_ok hsave] at hrun
        exact absurd (congrArg Prod.fst hrun) nofun

/-- The file of the folder has bytes whose text opens under the password, and what it opens to is
written in the normal form. -/
structure FileOpens (v : Vault) (password : RawText) (b : Bytes) (phrase : String) : Prop where
  opens : ∃ text plain, Utf8.decode b = .ok text ∧
    v.decrypt password (Text.withLineFeeds text) = .ok plain ∧ SeedPhrase.parse? plain = some phrase

theorem fileOpens_of_openPhrase {v : Vault} {b : Bytes} {text : String}
    (hdecode : Utf8.decode b = .ok text)
    (hopen : v.openPhrase password (Text.withLineFeeds text) = .ok phrase) :
    FileOpens v password b phrase := by
  rcases Vault.decrypt_of_openPhrase hopen with ⟨plain, hplain, hparse⟩
  exact ⟨text, plain, hdecode, hplain, hparse⟩

/-- A sealed value has no line endings that reading a file would change. -/
theorem withLineFeeds_joined {v : Vault} (hcipher : v.cipher.Lawful) {salt key vector : Bytes}
    (hkey : v.key password salt = .ok key) (hvector : vector.length = Vault.vectorSize) (time : Nat)
    (message : Bytes) :
    Text.withLineFeeds (Vault.joined salt (v.cipher.sealToken key time vector message)) =
      Vault.joined salt (v.cipher.sealToken key time vector message) := by
  have hwritten : ∀ c, Base64.IsWritten c → c ≠ '\r' := by
    rintro c hc rfl
    exact absurd (Vault.isWritten_spec hc).1 (by decide)
  have htoken := hcipher.token_chars time message (Vault.length_key hkey) hvector
  have hreturns : '\r' ∉ (Vault.joined salt
      (v.cipher.sealToken key time vector message)).toList := by
    intro hmem
    simp only [Vault.joined, String.toList_append, List.mem_append] at hmem
    rcases hmem with (hmem | hmem) | hmem
    · exact hwritten _ (Base64.encodeText_chars hmem) rfl
    · exact absurd hmem (by decide)
    · exact hwritten _ (htoken _ hmem) rfl
  rw [Text.withLineFeeds, Text.unifyNewlines_of_not_mem hreturns, String.ofList_toList]

/-- A sealed phrase that was written to a file opens. -/
theorem fileOpens_of_sealPhrase {v : Vault} (hcipher : v.cipher.Lawful) {time : Nat}
    {phrase : RawText} {kept sealedText : String} {e f : Entropy}
    (hparse : SeedPhrase.parse? phrase = some kept)
    (hseal : exec (v.sealPhrase time password phrase) e = (.ok sealedText, f)) :
    FileOpens v password (Utf8.encode sealedText) kept := by
  rw [Vault.exec_sealPhrase hparse] at hseal
  refine ⟨sealedText, kept, Utf8.decode_encode sealedText, ?_, SeedPhrase.parse?_kept hparse⟩
  have hdecrypt := Vault.decrypt_encrypt hcipher hseal
  rcases Vault.encrypt_ok hseal with ⟨vector, key, plain, -, hvector, hkey, rfl⟩
  rwa [withLineFeeds_joined hcipher hkey hvector]

/-- A phrase that is taken over is that of the file, and has been saved by a store that is open. -/
theorem takeOver_ok (hrun : exec (s.takeOver folder password) h = (.ok phrase, h')) :
    s.closed = false ∧ ∃ place b h₁, h.files.resolve h.workDir (folder / phraseFile) = .ok place ∧
      h.files.entry? place = some (.file b) ∧
      FileOpens (s.store h).vault password b phrase ∧
      exec (s.run fun store => store.save password phrase) h = (.ok (), h₁) ∧
      h' = h₁.emit ⟨LogLevel.info, SecretStore.subsystem,
        "Migrated mnemonic from file to database"⟩ := by
  unfold takeOver at hrun
  rcases exec_bind_ok.1 hrun with ⟨sealedText, h₀, hread, hopened⟩
  obtain rfl : h₀ = h := by
    have hsame := (exec_readPhraseFile (folder / phraseFile) h).1
    rwa [hread] at hsame
  rw [exec_get_bind] at hopened
  rcases exec_bind_ok.1 hopened with ⟨kept, h₂, hphrase, hsaved⟩
  rw [exec_liftExcept, Prod.mk.injEq] at hphrase
  rcases hphrase with ⟨hphrase, rfl⟩
  rcases exec_bind_ok.1 hsaved with ⟨done, h₁, hsave, hsaid⟩
  rcases exec_bind_ok.1 hsaid with ⟨_, h₃, hsay, hend⟩
  simp only [exec_pure, Prod.mk.injEq, Except.ok.injEq] at hend
  rcases hend with ⟨rfl, rfl⟩
  have hanswer : (exec (readPhraseFile (folder / phraseFile)) h₀).1 = .ok sealedText := by
    rw [hread]
  rcases file_of_openPhrase hanswer hphrase with ⟨place, b, hres, hfile⟩
  rcases (exec_readPhraseFile (folder / phraseFile) h₀).2 sealedText hanswer with
    ⟨b', text, hbytes, hdecode, rfl⟩
  obtain rfl : b' = b := by
    rw [FileTree.read_of_file hres hfile] at hbytes
    exact (Except.ok.inj hbytes).symm
  refine ⟨?_, place, b', h₁, hres, hfile, fileOpens_of_openPhrase hdecode hphrase, hsave, ?_⟩
  · cases hclosed : s.closed with
    | false => rfl
    | true =>
      -- a store that is closed does not save
      have houtage : (s.start h₀).outage = some .closed := by
        unfold start
        rw [if_pos hclosed]
      obtain ⟨e, he⟩ : ∃ e, (exec ((s.store h₀).save password kept) (s.start h₀)).1 = .error e :=
        SecretStore.save_outage houtage
      rw [exec_run_eq, he] at hsave
      simp at hsave
  · exact (congrArg Prod.snd hsay).symm

theorem Holding.emit (hh : s.Holding tr) (l : LogLine) : s.Holding ⟨tr.host.emit l, tr.last⟩ := by
  rcases hh.table with ⟨tables, t, hold, hseeds, hstores⟩
  exact hh.of_table rfl (hold.emit l) hseeds hstores

/-- After a phrase was taken over the store opens to it, and its file is as it was. -/
theorem Holding.takeOver_ok (hh : s.Holding tr) (hown : tr.host.logging.Own)
    (hrun : exec (s.takeOver folder password) tr.host = (.ok phrase, h')) :
    s.Holding ⟨h', some ⟨password, phrase⟩⟩ ∧ ∃ place b,
      tr.host.files.resolve tr.host.workDir (folder / phraseFile) = .ok place ∧
      tr.host.files.entry? place = some (.file b) ∧
      FileOpens (s.store tr.host).vault password b phrase ∧
      h'.files.resolve h'.workDir (folder / phraseFile) = .ok place ∧
      h'.files.entry? place = some (.file b) ∧ h'.removalFails = tr.host.removalFails ∧
      h'.logging = tr.host.logging := by
  rcases SecretHandle.takeOver_ok hrun with ⟨hopen, place, b, h₁, hres, hfile, hopens, hsave, rfl⟩
  have hheld := hh.save hopen password phrase
  rw [Use.carryOut, Trace.after_ok hsave] at hheld
  -- what was written is the database, and perhaps a log; the file is neither
  have hlogs : tr.host.LogsTo fun q =>
      tr.host.Logged q ∨ q = s.path.placeFrom tr.host.workDir :=
    tr.host.logsTo_logged.imp fun _ hq => Or.inl hq
  have hsaved := run_frame hlogs (Or.inr rfl) fun store => store.save password phrase
  rw [hsave] at hsaved
  have hframe := hsaved.trans (Host.frame_emit (hsaved.logsTo hlogs)
    ⟨LogLevel.info, SecretStore.subsystem, "Migrated mnemonic from file to database"⟩)
  have hplace : ¬ (tr.host.Logged place ∨ place = s.path.placeFrom tr.host.workDir) := by
    rintro (hlogged | rfl)
    · rw [FileTree.place_eq_of_resolve hres, plainName_phraseFile.placeFrom] at hlogged
      exact Host.not_logged hown (by decide) _ hlogged
    · rcases hh.table with ⟨tables, -, hold, -⟩
      have hboth := hold.2.symm.trans hfile
      simp at hboth
  refine ⟨?_, place, b, hres, hfile, hopens, ?_, ?_, ?_, hframe.logging⟩
  · exact hheld.emit _
  · rw [hframe.workDir]
    exact hframe.files.resolve_iff.2 hres
  · exact (hframe.files.entry place hplace).trans hfile
  · rw [hframe.same]

/-- A store that is open gets what it holds, in the normal form. -/
theorem Holding.get (hh : s.Holding tr) (hopen : s.closed = false)
    (hlast : tr.last = some ⟨password, phrase⟩) (hkept : SeedPhrase.parse? phrase = some phrase) :
    (exec (s.run fun store => store.get password) tr.host).1 = .ok phrase := by
  rcases hh.table with ⟨tables, t, hold, hseeds, hstores⟩
  rw [hlast] at hstores
  rcases exec_run hopen hold fun store => store.get password with ⟨h', hrun, -⟩
  rcases SecretStore.exec_get_some (s.store tr.host)
    (s := { seeds := tables.seeds, entropy := tr.host.entropy }) rfl hseeds hstores with
    ⟨kept, hparse, hget⟩
  obtain rfl : phrase = kept := Option.some.inj (hkept.symm.trans hparse)
  rw [hrun, hget]

/-! ## Removing -/

/-- The file is removed, or stays if removing files fails. -/
theorem exec_removePhraseFile {b : Bytes}
    (hres : h.files.resolve h.workDir (folder / phraseFile) = .ok place)
    (hfile : h.files.entry? place = some (.file b)) :
    ∃ h', exec (removePhraseFile folder) h = (.ok (), h') ∧
      ((h.removalFails = true ∧ ∃ l, h' = h.emit l) ∨
        h.removalFails = false ∧ h' = { h with files := h.files.erase place }) := by
  unfold removePhraseFile removeOld Host.removeFile
  rw [exec_get_bind]
  cases hfails : h.removalFails with
  | true => exact ⟨_, rfl, Or.inl ⟨rfl, _, rfl⟩⟩
  | false =>
    simp only [Bool.false_eq_true, if_false, FileTree.remove_of_file hres hfile]
    exact ⟨_, rfl, Or.inr ⟨trivial, rfl⟩⟩

/-- When the file has been removed, or could not be, the store holds what it held. -/
theorem Holding.removePhraseFile (hh : s.Holding tr) (hown : tr.host.logging.Own) {b : Bytes}
    (hres : tr.host.files.resolve tr.host.workDir (folder / phraseFile) = .ok place)
    (hfile : tr.host.files.entry? place = some (.file b)) :
    ∃ h', exec (removePhraseFile folder) tr.host = (.ok (), h') ∧ s.Holding ⟨h', tr.last⟩ ∧
      h'.files.entry? place = if tr.host.removalFails then some (.file b) else none := by
  rcases exec_removePhraseFile hres hfile with ⟨h', hrun, hend⟩
  refine ⟨h', hrun, ?_⟩
  rcases hend with ⟨hfails, l, rfl⟩ | ⟨hfails, rfl⟩
  · refine ⟨hh.emit l, ?_⟩
    have hname : ¬ tr.host.Logged place := by
      rw [FileTree.place_eq_of_resolve hres, plainName_phraseFile.placeFrom]
      exact Host.not_logged hown (by decide) _
    rw [hfails, if_pos rfl]
    exact ((Host.frame_emit tr.host.logsTo_logged l).files.entry place hname).trans hfile
  · rcases hh.table with ⟨tables, t, hold, hseeds, hstores⟩
    refine ⟨hh.of_table rfl (hold.erase hfile) hseeds hstores, ?_⟩
    rw [hfails]
    exact FileTree.entry?_erase_self (FileTree.ne_root_of_entry hfile (by simp))

/-! ## Restoring -/

/-- A store that works answers what the text of the file opens to. -/
theorem answer_eq {tables : Tables} {t : Table Cell} (hopen : s.closed = false)
    (hold : h.Holds s.path tables) (hseeds : tables.seeds = some t) (folder : Path)
    (password : RawText) :
    (exec (s.restore folder password) h).1 =
      (exec (readPhraseFile (folder / phraseFile)) h).1 >>= fun sealedText =>
        (s.store h).vault.openPhrase password sealedText := by
  rw [restore_eq]
  unfold takeOver
  cases hread : (exec (readPhraseFile (folder / phraseFile)) h).1 with
  | error fault =>
    rw [exec_bind_of_error (exec_bind_of_error (exec_readPhraseFile_of hread))]
    rfl
  | ok sealedText =>
    rw [ok_bind]
    cases hphrase : (s.store h).vault.openPhrase password sealedText with
    | error fault =>
      rw [exec_bind_of_error]
      rw [exec_bind_of_ok (exec_readPhraseFile_of hread), exec_get_bind]
      simp only [hphrase]
      exact exec_bind_of_error (exec_liftExcept _ _)
    | ok phrase =>
      -- what was opened is a phrase, which a store that works saves under the same password
      rcases Vault.openPhrase_ok hphrase with ⟨hparse, hderives⟩
      have hkept : (SeedPhrase.parse? phrase).isSome := by
        rw [hparse]
        rfl
      have hsaved := (SecretStore.save_ok_iff (s.store h) password phrase
        (s := { seeds := tables.seeds, entropy := h.entropy }) rfl hseeds).2 ⟨hderives, hkept⟩
      rcases exec_run hopen hold fun store => store.save password phrase with ⟨h₁, hrun, -⟩
      rw [hsaved] at hrun
      rw [exec_bind_of_ok]
      rotate_left
      · rw [exec_bind_of_ok (exec_readPhraseFile_of hread), exec_get_bind]
        simp only [hphrase]
        rw [exec_bind_of_ok (exec_liftExcept _ _), exec_bind_of_ok hrun,
          exec_bind_of_ok (Host.exec_say ..)]
        rfl
      -- whether or not the file can be removed
      rcases exec_removeOld (P := fun _ => True) (folder / phraseFile) trivial
        (fun _ _ _ => trivial) (fun _ _ => trivial) SecretStore.subsystem "mnemonic" none with
        ⟨h₂, hremoved, -⟩
      unfold removePhraseFile
      rw [exec_bind_of_ok hremoved]
      rfl

/-- A phrase that can be opened is restored. -/
theorem Holding.exec_restore (hh : s.Holding tr) (hopen : s.closed = false) {b : Bytes}
    (hres : tr.host.files.resolve tr.host.workDir (folder / phraseFile) = .ok place)
    (hfile : tr.host.files.entry? place = some (.file b))
    (hopens : FileOpens (s.store tr.host).vault password b phrase) :
    ∃ h', exec (s.restore folder password) tr.host = (.ok phrase, h') := by
  rcases hopens.opens with ⟨text, plain, hdecode, hplain, hparse⟩
  have hread : exec (readPhraseFile (folder / phraseFile)) tr.host =
      (.ok (Text.withLineFeeds text), tr.host) := by
    unfold readPhraseFile
    rw [exec_get_bind, FileTree.read_of_file hres hfile]
    simp only [hdecode, exec_pure]
  have hphrase : (s.store tr.host).vault.openPhrase password (Text.withLineFeeds text) =
      .ok phrase := by
    simp only [Vault.openPhrase, hplain, ok_bind, hparse]
  rcases hh.table with ⟨tables, t, hold, hseeds, -⟩
  have hanswer := answer_eq hopen hold hseeds folder password
  rw [hread, ok_bind, hphrase] at hanswer
  exact ⟨_, Prod.ext hanswer rfl⟩

/-- A store that was made where there was no file, after any uses, open or closed, restores the
phrase of a folder's file.

* If that fails, nothing is changed but the randomness that is left.
* If a phrase is returned, it is in the normal form what the sealed value in the file opens to.
  First it is taken over, which leaves the file as it is; then the file is removed, unless removing
  fails. The password gets the phrase from the store before and after that.
* It does return a phrase if the file opens and the store is open. -/
theorem restoration_loses_nothing {start opened : Host} {path : Path} {iterations : Int}
    (hcipher : start.cipher.Lawful)
    (hnew : start.files.entry? (path.placeFrom start.workDir) = none)
    (hopen : exec («open» path iterations) start = (.ok s, opened)) (hrun : s.Reachable opened tr)
    (hown : tr.host.logging.Own) (folder : Path) (password : RawText) (closed : Bool) :
    (∀ e h', exec (restore { s with closed } folder password) tr.host = (.error e, h') →
      ∃ entropy, h' = { tr.host with entropy }) ∧
    (∀ phrase h', exec (restore { s with closed } folder password) tr.host = (.ok phrase, h') →
      ∃ place b taken, tr.host.files.resolve tr.host.workDir (folder / phraseFile) = .ok place ∧
        tr.host.files.entry? place = some (.file b) ∧
        FileOpens (s.store tr.host).vault password b phrase ∧
        exec (takeOver { s with closed } folder password) tr.host = (.ok phrase, taken) ∧
        taken.files.entry? place = some (.file b) ∧
        (exec (run { s with closed } fun store => store.get password) taken).1 = .ok phrase ∧
        exec (SecretHandle.removePhraseFile folder) taken = (.ok (), h') ∧
        (h'.files.entry? place = if tr.host.removalFails then some (.file b) else none) ∧
        (exec (run { s with closed } fun store => store.get password) h').1 = .ok phrase) ∧
    (closed = false → ∀ place b phrase,
      tr.host.files.resolve tr.host.workDir (folder / phraseFile) = .ok place →
      tr.host.files.entry? place = some (.file b) →
      FileOpens (s.store tr.host).vault password b phrase →
        ∃ h', exec (restore { s with closed } folder password) tr.host = (.ok phrase, h')) := by
  rcases holding_open hcipher hnew hopen with ⟨rfl, hinit⟩
  have hh : SecretHandle.Holding { path, iterations, closed } tr := by
    rcases hrun.holding rfl hinit with ⟨hlawful, htable⟩
    exact ⟨hlawful, htable⟩
  refine ⟨?_, ?_, ?_⟩
  · intro e h' hrestore
    rw [restore_eq] at hrestore
    rcases htaken : exec (takeOver { path, iterations, closed } folder password) tr.host with
      ⟨r, taken⟩
    cases r with
    | error fault =>
      rw [exec_bind_of_error htaken, Prod.mk.injEq] at hrestore
      rw [← hrestore.2]
      exact takeOver_error htaken
    | ok phrase =>
      -- nothing fails once the phrase was taken over
      rcases hh.takeOver_ok hown htaken with ⟨-, place, b, -, -, -, hres, hfile, -⟩
      rcases exec_removePhraseFile hres hfile with ⟨h₁, hremoved, -⟩
      rw [exec_bind_of_ok htaken, exec_bind_of_ok hremoved] at hrestore
      simp at hrestore
  · intro phrase h' hrestore
    rw [restore_eq] at hrestore
    rcases exec_bind_ok.1 hrestore with ⟨phrase', taken, htaken, hrest⟩
    rcases exec_bind_ok.1 hrest with ⟨_, h₁, hremoved, hend⟩
    simp only [exec_pure, Prod.mk.injEq, Except.ok.injEq] at hend
    rcases hend with ⟨rfl, rfl⟩
    rcases SecretHandle.takeOver_ok htaken with ⟨hopened, -⟩
    rcases hh.takeOver_ok hown htaken with
      ⟨hheld, place, b, hres, hfile, hopens, hres', hfile', hfails, hlogging⟩
    have hkept : SeedPhrase.parse? phrase' = some phrase' := by
      rcases hopens.opens with ⟨text, plain, -, -, hparse⟩
      exact SeedPhrase.parse?_kept hparse
    rcases hheld.removePhraseFile (by rwa [hlogging]) hres' hfile' with
      ⟨h₂, hremoved', hheld', hgone⟩
    obtain rfl : h₂ = h₁ := congrArg Prod.snd (hremoved'.symm.trans hremoved)
    rw [hfails] at hgone
    exact ⟨place, b, taken, hres, hfile, hopens, htaken, hfile', hheld.get hopened rfl hkept,
      hremoved, hgone, hheld'.get hopened rfl hkept⟩
  · rintro rfl place b phrase hres hfile hopens
    exact hh.exec_restore rfl hres hfile hopens

/-- The files of a machine with a new store and the file of a backup. -/
def backupFiles (sealedText : String) : FileTree where
  entries := [(["rln_db"], .database (Tables.createSeeds {})),
    (["mnemonic"], .file (Utf8.encode sealedText))]

/-- The phrase of a backup is restored, and its file is gone. -/
theorem backup_is_restored :
    Host.bare.cipher.Lawful ∧
      Host.bare.files.entry? (bareStore.path.placeFrom Host.bare.workDir) = none ∧
      ∃ opened tr, exec («open» bareStore.path 1) Host.bare = (.ok bareStore, opened) ∧
        bareStore.Reachable opened tr ∧ tr.host.logging.Own ∧
        ∃ kept h', SeedPhrase.parse? typedPhrase = some kept ∧
          exec (bareStore.restore ⟨.root, []⟩ "p") tr.host = (.ok kept, h') ∧
          h'.files.entry? ["mnemonic"] = none ∧
          (exec (bareStore.run fun store => store.get "p") h').1 = .ok kept := by
  have hcipher : Host.bare.cipher.Lawful := TokenCipher.fernet_lawful
  have hnew : Host.bare.files.entry? (bareStore.path.placeFrom Host.bare.workDir) = none := by
    decide
  let opened : Host :=
    { Host.bare with files := ⟨[(["rln_db"], .database (Tables.createSeeds {}))]⟩ }
  have hopen : exec («open» bareStore.path 1) Host.bare = (.ok bareStore, opened) := rfl
  obtain ⟨kept, hparse⟩ : ∃ kept, SeedPhrase.parse? typedPhrase = some kept :=
    ⟨_, parse_typedPhrase⟩
  -- the backup is sealed on the side, and what this gives is not computed
  have hderives : (bareStore.store Host.bare).vault.Derives "p" := derives_bareStore _ (by decide)
  obtain ⟨sealedText, f, hseal⟩ := hderives.exists_encrypt 0 kept (Entropy.ofBytes [])
  rw [← Vault.exec_sealPhrase hparse] at hseal
  let host : Host := { Host.bare with files := backupFiles sealedText }
  have hrun : bareStore.Reachable opened ⟨host, none⟩ :=
    .other .opened rfl rfl
  have hown : host.logging.Own := by simp [Logging.Own, host, Host.bare]
  have hopens : FileOpens (bareStore.store host).vault "p" (Utf8.encode sealedText) kept :=
    fileOpens_of_sealPhrase hcipher hparse hseal
  obtain ⟨-, hreturned, hdoes⟩ :=
    restoration_loses_nothing hcipher hnew hopen hrun hown ⟨.root, []⟩ "p" false
  rcases hdoes rfl ["mnemonic"] _ kept rfl rfl hopens with ⟨h', hrestore⟩
  rcases hreturned kept h' hrestore with
    ⟨place, b, taken, hres, -, -, -, -, -, -, hgone, hget⟩
  obtain rfl : place = ["mnemonic"] := Except.ok.inj (hres.symm.trans rfl)
  exact ⟨hcipher, hnew, opened, _, hopen, hrun, hown, kept, h', hparse, hrestore, hgone, hget⟩

end SecretHandle

end NodeStore
