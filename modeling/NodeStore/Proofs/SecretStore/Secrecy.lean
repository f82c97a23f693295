import Mathlib.Data.List.Forall2
import NodeStore.Proofs.SecretStore.Concealment
import NodeStore.Proofs.SecretStore.Readback
import NodeStore.Proofs.SecretStore.Restoration

/-! # Passwords and phrases are not told

A secret store is used twice in the same way, with other passwords and other phrases. As long as
each use ends in the second run as in the first, with a failure of the same kind or with none, it
tells the same: the failures are equal, and so are the lines that are logged. That the passwords can
be written in bytes is needed: of a password that cannot be, a character is told.

A password is met with the sealed texts that it is tried on and those that are sealed under it
(`Use.Meets`, `Meets`). The invariant is that both hosts are the same when sealed phrases are hidden
(`HostsAlike`), which open under the passwords that they are met with or are refused.

* `conceal_run`, `conceal_restore`: one use;
* `nothing_is_told`: two runs. -/

namespace NodeStore

open Op

/-! ## An open secret store -/

namespace SecretHandle

variable {s : SecretHandle} {c : TokenCipher} {A : RawText → String → Prop} {h h' : Host}
  {folder : Path} {password other phrase phrase' : RawText}

/-- Hosts with one cipher that are the same when hidden. -/
structure HostsAlike (s : SecretHandle) (c : TokenCipher) (A : RawText → String → Prop)
    (h h' : Host) : Prop where
  cipher : h.cipher = c
  hidden : h.hide (Vault.veil ⟨c, s.iterations⟩ A) = h'.hide (Vault.veil ⟨c, s.iterations⟩ A)

theorem HostsAlike.store (hh : s.HostsAlike c A h h') : s.store h' = s.store h :=
  (congrArg s.store hh.hidden).symm

theorem HostsAlike.log (hh : s.HostsAlike c A h h') : h.log = h'.log := by
  have hlog := congrArg Host.log hh.hidden
  exact hlog

/-- A database is read as its mark, whatever is in it. -/
theorem HostsAlike.bytes (hh : s.HostsAlike c A h h') (place : Place) :
    (h.files.entry? place).bind FileEntry.bytes? =
      (h'.files.entry? place).bind FileEntry.bytes? := by
  have hread : ∀ h : Host,
      (FileTree.entry? (h.hide (Vault.veil ⟨c, s.iterations⟩ A)).files place).bind
        FileEntry.bytes? = (h.files.entry? place).bind FileEntry.bytes? := by
    intro h
    rw [Host.hide, FileTree.entry?_hide]
    cases h.files.entry? place with
    | none => rfl
    | some e => cases e <;> rfl
  rw [← hread h, hh.hidden, hread h']

theorem HostsAlike.emit (hh : s.HostsAlike c A h h') (l : LogLine) :
    s.HostsAlike c A (h.emit l) (h'.emit l) :=
  ⟨hh.cipher, by rw [← Host.emit_hide, hh.hidden, Host.emit_hide]⟩

/-- What a store conceals is concealed when it runs on its file. -/
theorem conceal_run {α β : Type} (I I' : SecretStore → SecretState → Prop)
    {op : SecretStore → SecretM α} {op' : SecretStore → SecretM β}
    (hop : ∀ store : SecretStore, store.vault = ⟨c, s.iterations⟩ →
      Conceal (SecretStore.LooksAlike (store.vault.veil A)) (I store) (I' store) (op store)
        (op' store)) :
    Conceal (s.HostsAlike c A) (fun h => I (s.store h) (s.start h))
      (fun h => I' (s.store h) (s.start h)) (s.run op) (s.run op') := by
  intro h h' hh hI hI' hends
  have hvault : (s.store h).vault = ⟨c, s.iterations⟩ := by rw [← hh.cipher]; rfl
  have hstart : SecretStore.LooksAlike ((s.store h).vault.veil A) (s.start h) (s.start h') :=
    ⟨by rw [hvault, ← start_hide, hh.hidden, start_hide]⟩
  have hrun := exec_run_eq s op h
  have hrun' := exec_run_eq s op' h'
  rw [hh.store] at hrun' hI'
  rw [hrun, hrun'] at hends
  rcases hop (s.store h) hvault _ _ hstart hI hI' hends with ⟨hfailure, hstates⟩
  refine ⟨by rw [hrun, hrun']; exact hfailure, (run_cipher s op h).trans hh.cipher, ?_⟩
  -- the tables that are written back look alike, and all else that a run does is done alike
  have hleft := hstates.hidden
  rw [hvault] at hleft
  rw [hide_run s op h hleft, hide_run s op' h' (by rw [hh.store]), hh.hidden]

/-! ### Restoring -/

/-- What a restoration does with the phrase that it has opened. -/
def saveOpened (s : SecretHandle) (password : RawText) (phrase : String) : HostM String := do
  s.run fun store => store.save password phrase
  Host.say LogLevel.info SecretStore.subsystem "Migrated mnemonic from file to database"
  return phrase

/-- What a restoration does with the text of the file. -/
def openAndSave (s : SecretHandle) (v : Vault) (password : RawText) (sealedText : String) :
    HostM String := do
  let phrase ← liftM (v.openPhrase password sealedText)
  s.saveOpened password phrase

theorem takeOver_eq (s : SecretHandle) (folder : Path) (password : RawText) (h : Host) :
    exec (s.takeOver folder password) h =
      match (exec (readPhraseFile (folder / phraseFile)) h).1 with
      | .error e => (.error e, h)
      | .ok sealedText => exec (s.openAndSave (s.store h).vault password sealedText) h := by
  unfold takeOver
  cases hread : (exec (readPhraseFile (folder / phraseFile)) h).1 with
  | error e => exact exec_bind_of_error (exec_readPhraseFile_of hread)
  | ok sealedText =>
    rw [exec_bind_of_ok (exec_readPhraseFile_of hread), exec_get_bind]
    rfl

/-- The end of a restoration: the phrase is in the database. -/
theorem exec_saidSaved (phrase : String) (h : Host) :
    exec (do
      Host.say LogLevel.info SecretStore.subsystem "Migrated mnemonic from file to database"
      return phrase) h =
      (.ok phrase, h.emit ⟨LogLevel.info, SecretStore.subsystem,
        "Migrated mnemonic from file to database"⟩) := by
  rw [exec_bind_of_ok (Host.exec_say ..), exec_pure]

/-- Saying so does not fail. -/
theorem failsAs_saidSaved {E : Failure → Prop} (phrase : String) :
    FailsAs (fun _ => True) E (do
      Host.say LogLevel.info SecretStore.subsystem "Migrated mnemonic from file to database"
      return phrase) := by
  intro h _ e h' hrun
  rw [exec_saidSaved] at hrun
  simp at hrun

theorem conceal_saidSaved {I I' : Host → Prop} (phrase phrase' : String) :
    Conceal (s.HostsAlike c A) I I' (do
      Host.say LogLevel.info SecretStore.subsystem "Migrated mnemonic from file to database"
      return phrase) (do
      Host.say LogLevel.info SecretStore.subsystem "Migrated mnemonic from file to database"
      return phrase') := by
  intro h h' hh _ _ _
  rw [exec_saidSaved, exec_saidSaved]
  exact ⟨rfl, hh.emit _⟩

/-- The password of a use is met with a sealed text: it is tried on the text, or the text is sealed
under it. -/
inductive Use.Meets (s : SecretHandle) (h : Host) : Use → RawText → String → Prop where
  /-- The phrase is sealed under the password. -/
  | save {password phrase : RawText} {text : String}
      (hseals : (s.store h).Seals password phrase (s.start h) text) :
      Meets s h (.save password phrase) password text
  /-- The password is tried on what is stored. -/
  | get {password : RawText} {text : String} (hholds : SecretStore.HoldsText (s.start h) text) :
      Meets s h (.get password) password text
  /-- The password is tried on the text of the file. -/
  | file {folder : Path} {password : RawText} {text : String}
      (hread : (exec (readPhraseFile (folder / phraseFile)) h).1 = .ok text) :
      Meets s h (.restore folder password) password text
  /-- What the text of the file opens to is sealed under the password. -/
  | restored {folder : Path} {password : RawText} {text phrase sealedText : String}
      (hread : (exec (readPhraseFile (folder / phraseFile)) h).1 = .ok text)
      (hopens : (s.store h).vault.openPhrase password text = .ok phrase)
      (hseals : (s.store h).Seals password phrase (s.start h) sealedText) :
      Meets s h (.restore folder password) password sealedText

/-- The text that the phrase is sealed as is one that the password is met with. -/
def SealsMet (s : SecretHandle) (A : RawText → String → Prop) (password phrase : RawText)
    (h : Host) : Prop :=
  ∀ text, (s.store h).Seals password phrase (s.start h) text → A password text

theorem conceal_runSave (phrase phrase' : RawText) (hcipher : c.Lawful)
    (hone : Vault.OneKey ⟨c, s.iterations⟩ A)
    (hA : ∀ password text, A password text → Vault.Usable password)
    (husable : Vault.Usable password) (husable' : Vault.Usable other) :
    Conceal (s.HostsAlike c A) (s.SealsMet A password phrase) (s.SealsMet A other phrase')
      (s.run fun store => store.save password phrase)
      (s.run fun store => store.save other phrase') :=
  conceal_run _ _ fun _ hvault => SecretStore.conceal_save phrase phrase' (by rwa [hvault])
    (by rwa [hvault]) hA husable husable'

/-- Saving what was opened fails only as the database does. -/
theorem failsAs_saveOpened {phrase : String} (hparse : SeedPhrase.parse? phrase = some phrase)
    (hderives : Vault.Derives ⟨c, s.iterations⟩ password) :
    FailsAs (fun _ => True) (fun e => e.kind? = some .database) (s.saveOpened password phrase) := by
  refine failsAs_bind ?_ (fun _ _ => trivial) fun _ => failsAs_saidSaved phrase
  intro h _ e h' hrun
  rw [exec_run_eq, Prod.mk.injEq] at hrun
  exact SecretStore.failsAs_save hparse ⟨hderives.pos, hderives.le, hderives.usable⟩ (s.start h)
    trivial e _ (Prod.ext hrun.1 rfl)

/-- One sealed text is opened with two passwords, and what it opens to is saved. -/
theorem conceal_openAndSave (hcipher : c.Lawful) (hone : Vault.OneKey ⟨c, s.iterations⟩ A)
    (hA : ∀ password text, A password text → Vault.Usable password) {sealedText : String}
    (hmet : A password sealedText) (hother : A other sealedText) :
    Conceal (s.HostsAlike c A)
      (fun h => ∀ phrase : String,
        Vault.openPhrase ⟨c, s.iterations⟩ password sealedText = .ok phrase →
          s.SealsMet A password phrase h)
      (fun h => ∀ phrase : String,
        Vault.openPhrase ⟨c, s.iterations⟩ other sealedText = .ok phrase →
          s.SealsMet A other phrase h)
      (s.openAndSave ⟨c, s.iterations⟩ password sealedText)
      (s.openAndSave ⟨c, s.iterations⟩ other sealedText) := by
  have husable := hA _ _ hmet
  have husable' := hA _ _ hother
  have hopens : ∀ password : RawText,
      FailsAs (fun h => ∀ phrase : String,
        Vault.openPhrase ⟨c, s.iterations⟩ password sealedText = .ok phrase →
          s.SealsMet A password phrase h) (fun e => e.kind? ≠ some .database)
        (liftM (Vault.openPhrase ⟨c, s.iterations⟩ password sealedText) : HostM String) :=
    fun _ => failsAs_liftExcept fun _ => Vault.kind_of_openPhrase_error
  -- what opens is a phrase, and it opens under a password that keys are derived from
  have hyields : ∀ password : RawText,
      Yields (fun h => ∀ phrase : String,
        Vault.openPhrase ⟨c, s.iterations⟩ password sealedText = .ok phrase →
          s.SealsMet A password phrase h)
        (liftM (Vault.openPhrase ⟨c, s.iterations⟩ password sealedText) : HostM String)
        fun phrase h => Vault.openPhrase ⟨c, s.iterations⟩ password sealedText = .ok phrase ∧
          s.SealsMet A password phrase h :=
    fun _ => yields_liftExcept fun h hI phrase hopen => ⟨hopen, hI phrase hopen⟩
  have hsaves : ∀ (password : RawText) (phrase : String),
      FailsAs (fun h => Vault.openPhrase ⟨c, s.iterations⟩ password sealedText = .ok phrase ∧
          s.SealsMet A password phrase h) (fun e => e.kind? = some .database)
        (s.saveOpened password phrase) := by
    rintro password phrase h ⟨hopen, -⟩
    rcases Vault.openPhrase_ok hopen with ⟨hparse, hderives⟩
    exact failsAs_saveOpened hparse hderives h trivial
  refine (conceal_liftExcept ?_).bind (hopens password) (hopens other) (hyields password)
    (hyields other) (hsaves password) (hsaves other) (fun e e' he he' heq => he (heq.trans he')) ?_
  · intro _ _ _ _ e e'
    exact Vault.openPhrase_failures_eq hone hmet hother husable husable'
  · -- both open: the phrases are saved, and after that nothing fails
    intro phrase phrase'
    refine Conceal.bind_last (fun h h' hh hI hI' => ?_) (fun _ => failsAs_saidSaved phrase)
      (fun _ => failsAs_saidSaved phrase') fun _ _ => conceal_saidSaved phrase phrase'
    exact conceal_runSave phrase phrase' hcipher hone hA husable husable' h h' hh hI.2 hI'.2

theorem conceal_takeOver (hcipher : c.Lawful) (hone : Vault.OneKey ⟨c, s.iterations⟩ A)
    (hA : ∀ password text, A password text → Vault.Usable password) :
    Conceal (s.HostsAlike c A)
      (fun h => ∀ p text, (Use.restore folder password).Meets s h p text → A p text)
      (fun h => ∀ p text, (Use.restore folder other).Meets s h p text → A p text)
      (s.takeOver folder password) (s.takeOver folder other) := by
  intro h h' hh hmet hmet' hends
  have hvault : (s.store h).vault = ⟨c, s.iterations⟩ := by rw [← hh.cipher]; rfl
  have hread : (exec (readPhraseFile (folder / phraseFile)) h').1 =
      (exec (readPhraseFile (folder / phraseFile)) h).1 := by
    rw [← readPhraseFile_hide, ← hh.hidden, readPhraseFile_hide]
  rw [takeOver_eq, takeOver_eq, hread, hh.store, hvault] at hends ⊢
  cases hr : (exec (readPhraseFile (folder / phraseFile)) h).1 with
  | error e => exact ⟨rfl, hh⟩
  | ok sealedText =>
    rw [hr] at hends
    have hr' := hread.trans hr
    refine conceal_openAndSave hcipher hone hA (hmet _ _ (.file hr)) (hmet' _ _ (.file hr')) h h' hh
      (fun phrase hopens text hseals => ?_) (fun phrase hopens text hseals => ?_) hends
    · exact hmet _ _ (.restored hr (by rwa [hvault]) hseals)
    · exact hmet' _ _ (.restored hr' (by rwa [hh.store, hvault]) hseals)

theorem HostsAlike.removePhraseFile (hh : s.HostsAlike c A h h') (folder : Path) :
    ∃ t t', exec (removePhraseFile folder) h = (.ok (), t) ∧
      exec (removePhraseFile folder) h' = (.ok (), t') ∧ s.HostsAlike c A t t' := by
  unfold SecretHandle.removePhraseFile
  rcases exec_removeOld (P := fun h => h.cipher = c) (folder / phraseFile) hh.cipher
    (fun _ _ => id) (fun _ _ => hh.cipher) SecretStore.subsystem "mnemonic" none with
    ⟨t, hremove, hcipher⟩
  rcases exec_removeOld_hide (f := Vault.veil ⟨c, s.iterations⟩ A) (folder / phraseFile)
    SecretStore.subsystem "mnemonic" none h with ⟨t₁, hrun, hhidden⟩
  rcases exec_removeOld_hide (f := Vault.veil ⟨c, s.iterations⟩ A) (folder / phraseFile)
    SecretStore.subsystem "mnemonic" none h' with ⟨t', hrun', hhidden'⟩
  obtain rfl : t = t₁ := congrArg Prod.snd (hremove.symm.trans hrun)
  rw [hh.hidden, hhidden'] at hhidden
  exact ⟨t, t', hrun, hrun', hcipher, (congrArg Prod.snd hhidden).symm⟩

/-- The removal of the file does not fail. -/
theorem failsAs_removed {E : Failure → Prop} (folder : Path) (phrase : String) :
    FailsAs (fun _ => True) E (do
      removePhraseFile folder
      return phrase) := by
  intro h _ e h' hrun
  rcases exec_removeOld_hide (f := id) (folder / phraseFile) SecretStore.subsystem "mnemonic" none h
    with ⟨t, hremove, -⟩
  unfold removePhraseFile at hrun
  rw [exec_bind_of_ok hremove] at hrun
  exact absurd (congrArg Prod.fst hrun) nofun

theorem conceal_restore (hcipher : c.Lawful) (hone : Vault.OneKey ⟨c, s.iterations⟩ A)
    (hA : ∀ password text, A password text → Vault.Usable password) :
    Conceal (s.HostsAlike c A)
      (fun h => ∀ p text, (Use.restore folder password).Meets s h p text → A p text)
      (fun h => ∀ p text, (Use.restore folder other).Meets s h p text → A p text)
      (s.restore folder password) (s.restore folder other) := by
  rw [restore_eq, restore_eq]
  refine (conceal_takeOver hcipher hone hA).bind_last (failsAs_removed folder)
    (failsAs_removed folder) fun phrase phrase' h h' hh _ _ _ => ?_
  rcases hh.removePhraseFile folder with ⟨t, t', hrun, hrun', ht⟩
  rw [exec_bind_of_ok hrun, exec_bind_of_ok hrun']
  exact ⟨rfl, ht⟩

/-! ## Runs -/

/-- The use as an operation, whose answer is not looked at. -/
def Use.perform (s : SecretHandle) : Use → HostM Unit
  | save password phrase => s.run fun store => store.save password phrase
  | get password => (fun _ => ()) <$> s.run fun store => store.get password
  | isInitialized => (fun _ => ()) <$> s.run fun _ => SecretStore.isInitialized
  | checkUninitialized => s.run fun _ => SecretStore.checkUninitialized
  | restore folder password => (fun _ => ()) <$> s.restore folder password
  | reopen => (fun _ => ()) <$> «open» s.path s.iterations

/-- Uses of an open store that differ in passwords and phrases only. -/
inductive Use.Alike : Use → Use → Prop where
  | save (password phrase other phrase' : RawText) :
      Alike (.save password phrase) (.save other phrase')
  | get (password other : RawText) : Alike (.get password) (.get other)
  | isInitialized : Alike .isInitialized .isInitialized
  | checkUninitialized : Alike .checkUninitialized .checkUninitialized
  | restore (folder : Path) (password other : RawText) :
      Alike (.restore folder password) (.restore folder other)

/-- The password of the use can be written in bytes, and not too many. -/
def Use.Usable : Use → Prop
  | save password _ | get password | restore _ password => Vault.Usable password
  | isInitialized | checkUninitialized | reopen => True

theorem Use.Meets.usable {u : Use} {text : String} (h : u.Meets s h' password text)
    (hu : u.Usable) : Vault.Usable password := by
  cases h <;> exact hu

theorem Use.Alike.conceal {u u' : Use} (halike : u.Alike u') (hcipher : c.Lawful)
    (hone : Vault.OneKey ⟨c, s.iterations⟩ A)
    (hA : ∀ password text, A password text → Vault.Usable password) (hu : u.Usable)
    (hu' : u'.Usable) :
    Conceal (s.HostsAlike c A) (fun h => ∀ p text, u.Meets s h p text → A p text)
      (fun h => ∀ p text, u'.Meets s h p text → A p text) (u.perform s) (u'.perform s) := by
  cases halike with
  | save password phrase other phrase' =>
    intro h h' hh hmet hmet'
    exact conceal_runSave phrase phrase' hcipher hone hA hu hu' h h' hh
      (fun text hseals => hmet _ _ (.save hseals)) fun text hseals => hmet' _ _ (.save hseals)
  | get password other =>
    refine Conceal.map (fun h h' hh hmet hmet' => ?_) _ _
    exact conceal_run _ _ (fun _ hvault => SecretStore.conceal_get (by rwa [hvault]) hu hu') h h' hh
      (fun text hholds => hmet _ _ (.get hholds)) fun text hholds => hmet' _ _ (.get hholds)
  | isInitialized =>
    refine Conceal.map (fun h h' hh _ _ => ?_) _ _
    exact conceal_run (fun _ _ => True) (fun _ _ => True)
      (fun _ _ => SecretStore.conceal_isInitialized) h h' hh trivial trivial
  | checkUninitialized =>
    intro h h' hh _ _
    exact conceal_run (fun _ _ => True) (fun _ _ => True)
      (fun _ _ => SecretStore.conceal_checkUninitialized) h h' hh trivial trivial
  | restore folder password other => exact Conceal.map (conceal_restore hcipher hone hA) _ _

/-- What a use tells: its failure, if it has failed, and all that has been logged. -/
structure Told where
  failure : Option Failure
  log : List LogLine
deriving DecidableEq

/-- The kind of the failure, if there is one. -/
def Told.ending (t : Told) : Option (Option FailureKind) :=
  t.failure.map Failure.kind?

/-- What uses tell one after the other. -/
def told (s : SecretHandle) : List Use → Host → List Told
  | [], _ => []
  | u :: rest, h =>
    ⟨failureOf (exec (u.perform s) h).1, (exec (u.perform s) h).2.log⟩ ::
      told s rest (exec (u.perform s) h).2

/-- The host after uses. -/
def after (s : SecretHandle) (uses : List Use) (h : Host) : Host :=
  uses.foldl (fun h u => (exec (u.perform s) h).2) h

/-- The passwords of uses one after the other, with the sealed texts that they are met with. -/
def Meets (s : SecretHandle) : List Use → Host → RawText → String → Prop
  | [], _, _, _ => False
  | u :: rest, h, password, text =>
    u.Meets s h password text ∨ Meets s rest (exec (u.perform s) h).2 password text

theorem Meets.usable {uses : List Use} {text : String} (hmet : Meets s uses h password text)
    (husable : ∀ u ∈ uses, u.Usable) : Vault.Usable password := by
  induction uses generalizing h with
  | nil => exact hmet.elim
  | cons u rest ih =>
    rw [List.forall_mem_cons] at husable
    rcases hmet with hmet | hmet
    · exact hmet.usable husable.1
    · exact ih hmet husable.2

/-- Runs from hosts that look alike tell the same and leave hosts that look alike. -/
theorem HostsAlike.told {uses uses' : List Use} (hh : s.HostsAlike c A h h')
    (hcipher : c.Lawful) (hone : Vault.OneKey ⟨c, s.iterations⟩ A)
    (hA : ∀ password text, A password text → Vault.Usable password)
    (halike : List.Forall₂ Use.Alike uses uses') (husable : ∀ u ∈ uses, u.Usable)
    (husable' : ∀ u ∈ uses', u.Usable) (hmet : ∀ p text, Meets s uses h p text → A p text)
    (hmet' : ∀ p text, Meets s uses' h' p text → A p text)
    (hends : (told s uses h).map Told.ending = (told s uses' h').map Told.ending) :
    told s uses h = told s uses' h' ∧
      s.HostsAlike c A (after s uses h) (after s uses' h') := by
  -- by the uses: the hosts still look alike after each of them
  induction halike generalizing h h' with
  | nil => exact ⟨rfl, hh⟩
  | cons hu _ ih =>
    simp only [SecretHandle.told, List.map_cons, List.cons.injEq] at hends ⊢
    rw [List.forall_mem_cons] at husable husable'
    rcases hu.conceal hcipher hone hA husable.1 husable'.1 h h' hh
      (fun p text hmets => hmet p text (Or.inl hmets))
      (fun p text hmets => hmet' p text (Or.inl hmets)) hends.1 with ⟨hfailure, hstep⟩
    rcases ih hstep husable.2 husable'.2 (fun p text hmets => hmet p text (Or.inr hmets))
      (fun p text hmets => hmet' p text (Or.inr hmets)) hends.2 with ⟨hrest, hend⟩
    rw [hfailure, hstep.log]
    exact ⟨⟨rfl, hrest⟩, hend⟩

/-- The same uses with other passwords and other phrases, from one host, with passwords that can be
written in bytes. The token of each sealed text that they are met with in either run opens under one
of their keys at most. As long as each use ends alike in both runs, it fails with the same failure
or with none, and the same lines have been logged after it. In the end no file but a database has
other bytes. -/
theorem nothing_is_told {uses uses' : List Use} (hcipher : h.cipher.Lawful)
    (hone : Vault.OneKey ⟨h.cipher, s.iterations⟩
      fun password text => Meets s uses h password text ∨ Meets s uses' h password text)
    (husable : ∀ u ∈ uses, u.Usable) (husable' : ∀ u ∈ uses', u.Usable)
    (halike : List.Forall₂ Use.Alike uses uses')
    (hends : (told s uses h).map Told.ending = (told s uses' h).map Told.ending) :
    told s uses h = told s uses' h ∧
      ∀ place, (FileTree.entry? (after s uses h).files place).bind FileEntry.bytes? =
        (FileTree.entry? (after s uses' h).files place).bind FileEntry.bytes? := by
  have hA : ∀ password text, Meets s uses h password text ∨ Meets s uses' h password text →
      Vault.Usable password := by
    rintro password text (hmet | hmet)
    · exact hmet.usable husable
    · exact hmet.usable husable'
  have hh : s.HostsAlike h.cipher
      (fun password text => Meets s uses h password text ∨ Meets s uses' h password text) h h :=
    ⟨rfl, rfl⟩
  rcases hh.told hcipher hone hA halike husable husable' (fun _ _ => Or.inl) (fun _ _ => Or.inr)
    hends with ⟨htold, hend⟩
  exact ⟨htold, hend.bytes⟩

/-! ## Wrong passwords and saves -/

/-- A password is tried and is wrong, and then a phrase is saved under it. -/
theorem endings_get_save {tables : Tables} {t : Table Cell} {text : String}
    (hopen : s.closed = false) (hold : h.Holds s.path tables) (hseeds : tables.seeds = some t)
    (hrow : t.withId? SecretStore.phraseId = some ⟨SecretStore.phraseId, .text text⟩)
    (hderives : (s.store h).vault.Derives password)
    (hwrong : (s.store h).vault.openPhrase password text = .error .wrongPassword)
    (hparse : (SeedPhrase.parse? phrase).isSome) :
    (told s [.get password, .save password phrase] h).map Told.ending =
      [some (some .wrongPassword), none] := by
  have hanswer : (exec (s.run fun store => store.get password) h).1 = .error .wrongPassword := by
    rw [get_of_holds hopen hold hseeds, hrow]
    exact hwrong
  obtain ⟨h₁, hrun, hold₁, -, -, -⟩ := exec_run hopen hold fun store => store.get password
  rw [SecretStore.keeps_getPhrase (I := (·.seeds = tables.seeds)) _ rfl] at hold₁
  rw [hrun] at hanswer
  have hget : exec ((Use.get password).perform s) h = (.error .wrongPassword, h₁) := by
    rw [Use.perform, exec_map, hrun, hanswer]
    rfl
  obtain ⟨h₂, hsave⟩ := exists_save (h := h₁) hopen hold₁ hseeds
    ⟨hderives.pos, hderives.le, hderives.usable⟩ hparse
  have hsaved : exec ((Use.save password phrase).perform s) h₁ = (.ok (), h₂) := hsave
  simp only [told, hget, hsaved, List.map_cons, List.map_nil, Told.ending, failureOf_ok,
    failureOf_error, Option.map_none, Option.map_some, Failure.kind?]

/-- The password is met with what is stored, and with what is sealed under it. -/
theorem meets_get_save {q : RawText} {text : String}
    (hmet : Meets s [.get password, .save password phrase] h q text) :
    q = password ∧ (SecretStore.HoldsText (s.start h) text ∨
      ∃ (v : Vault) (time : Nat) (e f : Entropy), v.cipher = h.cipher ∧
        exec (v.sealPhrase time password phrase) e = (.ok text, f)) := by
  rcases hmet with hmet | hmet | hnever
  · cases hmet with
    | get hholds => exact ⟨rfl, Or.inl hholds⟩
  · cases hmet with
    | save hseals =>
      rcases hseals with ⟨f, hseal⟩
      refine ⟨rfl, Or.inr ⟨_, _, _, f, ?_, hseal⟩⟩
      change (exec ((Use.get password).perform s) h).2.cipher = h.cipher
      rw [Use.perform, exec_map]
      exact run_cipher s (fun store => store.get password) h
  · exact hnever.elim

/-- The size of a token tells that of the phrase in blocks. -/
theorem size_of_sealPhrase {v : Vault} (hv : v.cipher = .fernet) {time : Nat} {e f : Entropy}
    {kept text token : String} {salt : Bytes} (hparse : SeedPhrase.parse? phrase = some kept)
    (hseal : exec (v.sealPhrase time password phrase) e = (.ok text, f))
    (hparts : Vault.parts text = .ok (salt, token)) :
    ∃ b, Base64.decode? (Utf8.encode token) = some b ∧
      b.length = 57 + 16 * ((Utf8.encode kept).length / 16 + 1) := by
  rw [Vault.exec_sealPhrase hparse] at hseal
  rcases Vault.encrypt_ok hseal with ⟨vector, key, plain, hplain, hvector, hkey, rfl⟩
  obtain rfl := RawText.ofString_injective hplain
  have hlawful : v.cipher.Lawful := by
    rw [hv]
    exact TokenCipher.fernet_lawful
  rw [Vault.parts_sealed hlawful (Vault.length_take _ _) hvector hkey, Except.ok.injEq,
    Prod.mk.injEq] at hparts
  obtain rfl := RawText.ofString_injective hparts.2
  rw [hv, TokenCipher.fernet_sealToken]
  refine ⟨_, Base64.decode?_encodeText _, Fernet.length_sealBytes time _ ?_ hvector⟩
  exact Vault.length_key hkey

/-- A sealed value from elsewhere. -/
def foreignText : String := "AAAAAAAAAAAAAAAAAAAAAA==$x"

theorem parts_foreignText :
    Vault.parts foreignText = .ok (List.replicate 16 0, ("x" : String)) := by
  decide +kernel

/-- Its token opens under no key. -/
theorem openToken?_foreignText (key : Bytes) : TokenCipher.fernet.openToken? key "x" = none := by
  have hread : Base64.decode? (Utf8.encode "x") = none := by decide
  rw [TokenCipher.fernet_openToken?, Fernet.openToken?, hread, Option.bind_none]

/-- Every password is wrong for it. -/
theorem openPhrase_foreignText {v : Vault} (hv : v.cipher = .fernet) (h : v.Derives password) :
    v.openPhrase password foreignText = .error .wrongPassword := by
  rcases h.exists_key (List.replicate 16 0) with ⟨key, hkey⟩
  rw [Vault.openPhrase_of_key parts_foreignText hkey, hv, openToken?_foreignText]

/-- A table with a sealed value from elsewhere. -/
def foreignTable : Table Cell := ⟨[⟨1, .text foreignText⟩], some 1⟩

/-- Another phrase. -/
def otherPhrase : String :=
  "able able able able able able able able able able about about"

theorem parse_otherPhrase : SeedPhrase.parse? otherPhrase = some otherPhrase := by
  decide +kernel

/-- The sealed value from elsewhere is the only text that is stored. -/
theorem text_of_foreignTable {text : String}
    (hholds : SecretStore.HoldsText (bareStore.start (hostWith foreignTable)) text) :
    text = foreignText := by
  rcases hholds with ⟨t, hseeds, hrow⟩
  obtain rfl : foreignTable = t := Option.some.inj hseeds
  exact (Cell.text.inj (congrArg Row.data (Option.some.inj hrow))).symm

/-- A text whose token opens was sealed, so its token has the size that the phrase gives it. -/
theorem size_of_met {text token kept : String} {salt key message : Bytes}
    (hmet : Meets bareStore [.get password, .save password phrase] (hostWith foreignTable) password
      text)
    (hparts : Vault.parts text = .ok (salt, token))
    (hopen : TokenCipher.fernet.openToken? key token = some message)
    (hparse : SeedPhrase.parse? phrase = some kept) :
    ∃ b, Base64.decode? (Utf8.encode token) = some b ∧
      b.length = 57 + 16 * ((Utf8.encode kept).length / 16 + 1) := by
  rcases (meets_get_save hmet).2 with hholds | ⟨v, time, e, f, hv, hseal⟩
  · obtain rfl := text_of_foreignTable hholds
    rw [parts_foreignText, Except.ok.injEq, Prod.mk.injEq] at hparts
    obtain rfl := RawText.ofString_injective hparts.2
    simp [openToken?_foreignText] at hopen
  · exact size_of_sealPhrase hv hparse hseal hparts

/-- No text is met with both passwords whose token opens: the two phrases differ in size. -/
theorem not_met_twice {text token : String} {salt key otherKey message message' : Bytes}
    (hmet : Meets bareStore [.get "pw", .save "pw" typedPhrase] (hostWith foreignTable) "pw" text)
    (hmet' : Meets bareStore [.get "other", .save "other" otherPhrase] (hostWith foreignTable)
      "other" text)
    (hparts : Vault.parts text = .ok (salt, token))
    (hopen : TokenCipher.fernet.openToken? key token = some message)
    (hopen' : TokenCipher.fernet.openToken? otherKey token = some message') : False := by
  rcases size_of_met hmet hparts hopen parse_typedPhrase with ⟨b, hb, hsize⟩
  rcases size_of_met hmet' hparts hopen' parse_otherPhrase with ⟨b', hb', hsize'⟩
  obtain rfl := Option.some.inj (hb.symm.trans hb')
  have hsizes : (Utf8.encode keptPhrase).length = 93 ∧ (Utf8.encode otherPhrase).length = 61 := by
    decide
  rw [hsizes.1] at hsize
  rw [hsizes.2, hsize] at hsize'
  omega

/-- Two passwords are wrong for a sealed value, and two phrases are saved under them: a token that
opens under a key of one of the passwords was sealed under it. -/
theorem oneKey_foreignTable :
    Vault.OneKey ⟨(hostWith foreignTable).cipher, bareStore.iterations⟩ fun password text =>
      Meets bareStore [.get "pw", .save "pw" typedPhrase] (hostWith foreignTable) password text ∨
        Meets bareStore [.get "other", .save "other" otherPhrase] (hostWith foreignTable) password
          text := by
  constructor
  rintro p q text token salt key otherKey message message' (hmet | hmet) (hmet' | hmet') hparts hkey
    hkey' hopen hopen'
  all_goals
    obtain ⟨rfl, -⟩ := meets_get_save hmet
    obtain ⟨rfl, -⟩ := meets_get_save hmet'
  · exact Except.ok.inj (hkey.symm.trans hkey')
  · exact (not_met_twice hmet hmet' hparts hopen hopen').elim
  · exact (not_met_twice hmet' hmet hparts hopen' hopen).elim
  · exact Except.ok.inj (hkey.symm.trans hkey')

/-- With the cipher in use, two wrong passwords are tried and two phrases are saved. -/
theorem other_phrase_tells_the_same :
    (hostWith foreignTable).cipher = .fernet ∧ (hostWith foreignTable).cipher.Lawful ∧
      (∀ u ∈ [Use.get "pw", .save "pw" typedPhrase], u.Usable) ∧
      (∀ u ∈ [Use.get "other", .save "other" otherPhrase], u.Usable) ∧
      List.Forall₂ Use.Alike [.get "pw", .save "pw" typedPhrase]
        [.get "other", .save "other" otherPhrase] ∧
      (told bareStore [.get "pw", .save "pw" typedPhrase] (hostWith foreignTable)).map Told.ending =
        [some (some .wrongPassword), none] ∧
      told bareStore [.get "pw", .save "pw" typedPhrase] (hostWith foreignTable) =
        told bareStore [.get "other", .save "other" otherPhrase] (hostWith foreignTable) := by
  have hcipher : (hostWith foreignTable).cipher.Lawful := TokenCipher.fernet_lawful
  have hpw : Vault.Usable "pw" := Vault.usable_ofString (by decide)
  have hother : Vault.Usable "other" := Vault.usable_ofString (by decide)
  have hends : ∀ (password : String) (phrase : RawText),
      (Utf8.encode password).length ≤ Vault.maxCount → (SeedPhrase.parse? phrase).isSome →
      (told bareStore [.get password, .save password phrase] (hostWith foreignTable)).map
        Told.ending = [some (some .wrongPassword), none] := by
    intro password phrase hsize hparse
    have hderives := derives_bareStore (hostWith foreignTable) hsize
    exact endings_get_save rfl (holds_hostWith _) rfl rfl hderives
      (openPhrase_foreignText rfl hderives) hparse
  have hends₁ := hends "pw" typedPhrase (by decide) (by rw [parse_typedPhrase]; rfl)
  have hends₂ := hends "other" otherPhrase (by decide) (by rw [parse_otherPhrase]; rfl)
  have halike : List.Forall₂ Use.Alike [.get "pw", .save "pw" typedPhrase]
      [.get "other", .save "other" otherPhrase] := .cons (.get ..) (.cons (.save ..) .nil)
  have husable : ∀ u ∈ [Use.get "pw", .save "pw" typedPhrase], u.Usable := by
    simpa [Use.Usable] using hpw
  have husable' : ∀ u ∈ [Use.get "other", .save "other" otherPhrase], u.Usable := by
    simpa [Use.Usable] using hother
  exact ⟨rfl, hcipher, husable, husable', halike, hends₁,
    (nothing_is_told hcipher oneKey_foreignTable husable husable' halike
      (hends₁.trans hends₂.symm)).1⟩

/-! ## Passwords without bytes -/

/-- Under a password without a key nothing is sealed, and a save tells why. -/
theorem told_without_key {kept : String} {failure : Failure}
    (hparse : SeedPhrase.parse? phrase = some kept)
    (hbytes : (s.store h).vault.passwordBytes password = .error failure) :
    (told s [.save password phrase] h).map Told.failure = [some failure] ∧
      ∀ q text, ¬ Meets s [.save password phrase] h q text := by
  constructor
  · have hsave : (exec ((s.store h).save password phrase) (s.start h)).1 = .error failure :=
      SecretStore.save_without_key hparse hbytes
    simp only [told, List.map_cons, List.map_nil, Use.perform, exec_run_eq, hsave, failureOf_error]
  · rintro q text (hmet | hnever)
    · cases hmet with
      | save hseals =>
        rcases hseals with ⟨f, hsealed⟩
        have hseal := Vault.exec_sealPhrase_without_key (e := (s.start h).entropy) hparse hbytes
          (s.store h).time
        rw [hsealed] at hseal
        simp at hseal
    · exact hnever

/-- A password that is one surrogate. -/
def loneSurrogate : RawText := ⟨[.surrogate 0x4ff]⟩

/-- A password with two surrogates after a letter. -/
def twoSurrogates : RawText := ⟨[.char 'a', .surrogate 0x4fe, .surrogate 0x480]⟩

/-- Of two passwords that cannot be written in bytes it is told which they are: both saves fail in
the same way, with other texts. No sealed text is met, so that no token opens under two keys. -/
theorem surrogates_are_told :
    (hostWith { lastId := some 0 }).cipher.Lawful ∧
      (Vault.OneKey ⟨(hostWith { lastId := some 0 }).cipher, bareStore.iterations⟩
        fun password text =>
          Meets bareStore [.save loneSurrogate typedPhrase] (hostWith { lastId := some 0 }) password
            text ∨
          Meets bareStore [.save twoSurrogates typedPhrase] (hostWith { lastId := some 0 }) password
            text) ∧
      List.Forall₂ Use.Alike [.save loneSurrogate typedPhrase] [.save twoSurrogates typedPhrase] ∧
      (told bareStore [.save loneSurrogate typedPhrase] (hostWith { lastId := some 0 })).map
        Told.failure = [some (.notEncodable ⟨0x4ff, 0, 1⟩)] ∧
      (told bareStore [.save twoSurrogates typedPhrase] (hostWith { lastId := some 0 })).map
        Told.failure = [some (.notEncodable ⟨0x4fe, 1, 2⟩)] ∧
      (Failure.notEncodable ⟨0x4ff, 0, 1⟩).message =
        "'utf-8' codec can't encode character '\\udcff' in position 0: surrogates not allowed" ∧
      (Failure.notEncodable ⟨0x4fe, 1, 2⟩).message =
        "'utf-8' codec can't encode characters in position 1-2: surrogates not allowed" := by
  have hcipher : (hostWith { lastId := some 0 }).cipher.Lawful := TokenCipher.fernet_lawful
  have hlone : ∀ h : Host, (bareStore.store h).vault.passwordBytes loneSurrogate =
      .error (.notEncodable ⟨0x4ff, 0, 1⟩) := fun _ => rfl
  have htwo : ∀ h : Host, (bareStore.store h).vault.passwordBytes twoSurrogates =
      .error (.notEncodable ⟨0x4fe, 1, 2⟩) := fun _ => rfl
  obtain ⟨htold, hnone⟩ :=
    told_without_key parse_typedPhrase (hlone (hostWith { lastId := some 0 }))
  obtain ⟨htold', hnone'⟩ :=
    told_without_key parse_typedPhrase (htwo (hostWith { lastId := some 0 }))
  refine ⟨hcipher, ⟨?_⟩, .cons (.save ..) .nil, htold, htold', by decide, by decide⟩
  intro p q text token salt key otherKey message message' hmet
  rcases hmet with hmet | hmet
  · exact absurd hmet (hnone p text)
  · exact absurd hmet (hnone' p text)

end SecretHandle

end NodeStore
