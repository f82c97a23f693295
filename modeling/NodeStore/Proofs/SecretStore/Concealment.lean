import NodeStore.Proofs.Concealing
import NodeStore.Proofs.Hiding
import NodeStore.Proofs.Opening

/-! # What a secret store conceals

Two states of a secret store look alike if they are the same when sealed phrases are hidden. Each
operation is carried out twice, from states that look alike, with other passwords and phrases. The
passwords are met with the texts of `A`: those that they are tried on, and those that are sealed
under them.

* `conceal_table`: what looks at the table;
* `conceal_get`, `conceal_save`: the operations that take a password. -/

namespace NodeStore

open Op

namespace SecretStore

variable {store : SecretStore} {password other phrase phrase' : RawText} {u u' : SecretState}
  {f : Cell → Cell} {A : RawText → String → Prop}

/-- Two columns that look alike, and passwords for which they do not open for reasons of one
kind: the reason is the same. -/
theorem open?_failures_eq (hone : store.vault.OneKey A) (husable : Vault.Usable password)
    (husable' : Vault.Usable other) {c c' : Cell} (hmet : ∀ text, c = .text text → A password text)
    (hmet' : ∀ text, c' = .text text → A other text) {e e' : Failure}
    (hveil : store.vault.veil A c = store.vault.veil A c') (h : store.open? password c = .error e)
    (h' : store.open? other c' = .error e') (hkind : e.kind? = e'.kind?) : e = e' := by
  cases c with
  | blob b =>
    cases c' with
    | blob b' => exact Except.error.inj (h.symm.trans h')
    | text text' =>
      simp only [Vault.veil] at hveil
      split at hveil <;> simp at hveil
  | text text =>
    by_cases hsealed : store.vault.OpensOrRefuses A text
    · obtain rfl := hsealed password e (hmet text rfl) h
      exact (Failure.eq_wrongPassword hkind.symm).symm
    · cases c' with
      | blob b' => simp [Vault.veil, hsealed] at hveil
      | text text' =>
        by_cases hsealed' : store.vault.OpensOrRefuses A text'
        · obtain rfl := hsealed' other e' (hmet' text' rfl) h'
          exact Failure.eq_wrongPassword hkind
        · -- neither is hidden, so they are one text
          simp only [Vault.veil, hsealed, hsealed', if_false, Cell.text.injEq] at hveil
          subst hveil
          exact Vault.openPhrase_failures_eq hone (hmet text rfl) (hmet' text rfl) husable husable'
            h h' hkind

/-! ## Operations of a secret store -/

/-- In the hidden state the same table is found, hidden. -/
theorem exec_table_hide (doing : Option String) (u : SecretState) :
    (exec (table doing) (u.hide f)).1 = (exec (table doing) u).1.map (Table.hide f) := by
  unfold table
  rw [exec_get_bind, exec_get_bind]
  simp only [SecretState.hide]
  cases u.outage with
  | some fault => rfl
  | none => cases u.seeds <;> rfl

/-- The tables that are found look alike, or none is found for the same reason. -/
theorem table_alike (hu : u.hide f = u'.hide f) (doing : Option String) :
    (exec (table doing) u).1.map (Table.hide f) = (exec (table doing) u').1.map (Table.hide f) := by
  rw [← exec_table_hide, hu, exec_table_hide]

/-- A table that is found is that of the state. -/
theorem seeds_of_table {doing : Option String} {t : Table Cell}
    (h : (exec (table doing) u).1 = .ok t) : u.seeds = some t := by
  unfold table at h
  rw [exec_get_bind] at h
  split at h
  · simp at h
  · simp at h
  · rename_i hseeds
    rw [hseeds, Except.ok.inj h]

/-- The states are the same when seeds are hidden. -/
structure LooksAlike (f : Cell → Cell) (u u' : SecretState) : Prop where
  hidden : u.hide f = u'.hide f

theorem conceal_table {α β : Type} {I I' : SecretState → Prop} {g : Table Cell → SecretM α}
    {g' : Table Cell → SecretM β} (doing : Option String)
    (hg : ∀ t t' : Table Cell, t.hide f = t'.hide f →
      Conceal (LooksAlike f) (fun u => I u ∧ u.seeds = some t) (fun u => I' u ∧ u.seeds = some t')
        (g t) (g' t')) :
    Conceal (LooksAlike f) I I' (table doing >>= g) (table doing >>= g') := by
  intro u u' hu hI hI' hends
  have htables := table_alike hu.hidden doing
  rw [exec_bind, exec_bind, exec_table_eq, exec_table_eq _ u'] at hends
  rw [exec_bind, exec_bind, exec_table_eq, exec_table_eq _ u']
  cases ht : (exec (table doing) u).1 with
  | error e =>
    cases ht' : (exec (table doing) u').1 with
    | error e' =>
      simp only [ht, ht', Except.map, Except.error.injEq] at htables
      exact ⟨congrArg some htables, hu⟩
    | ok t' => simp [ht, ht', Except.map] at htables
  | ok t =>
    cases ht' : (exec (table doing) u').1 with
    | error e' => simp [ht, ht', Except.map] at htables
    | ok t' =>
      simp only [ht, ht', Except.map, Except.ok.injEq] at htables hends
      exact hg t t' htables u u' hu ⟨hI, seeds_of_table ht⟩ ⟨hI', seeds_of_table ht'⟩ hends

/-- Tables that look alike have the row of the phrase, or both have none. -/
theorem withId?_alike {t t' : Table Cell} (ht : t.hide f = t'.hide f) (id : Int) :
    (t.withId? id).map (fun r => (⟨r.id, f r.data⟩ : Row Cell)) =
      (t'.withId? id).map fun r => ⟨r.id, f r.data⟩ := by
  rw [← Table.withId?_hide, ht, Table.withId?_hide]

variable {I I' : SecretState → Prop}

theorem conceal_isInitialized : Conceal (LooksAlike f) I I' isInitialized isInitialized := by
  unfold isInitialized
  refine conceal_table none fun t t' ht => ?_
  exact conceal_pure _ _

theorem conceal_checkUninitialized :
    Conceal (LooksAlike f) I I' checkUninitialized checkUninitialized := by
  unfold checkUninitialized isInitialized
  rw [bind_assoc]
  refine conceal_table none fun t t' ht => ?_
  have hrows := congrArg Option.isSome (withId?_alike ht phraseId)
  rw [Option.isSome_map, Option.isSome_map] at hrows
  rw [pure_bind, pure_bind, hrows]
  apply Agree.conceal
  cases (t'.withId? phraseId).isSome
  · exact agree_pure _
  · exact agree_throw _

/-- The text in the row of the phrase. -/
def HoldsText (u : SecretState) (text : String) : Prop :=
  ∃ t, u.seeds = some t ∧ t.withId? phraseId = some ⟨phraseId, .text text⟩

/-- What a row that was found holds. -/
theorem holdsText_of_withId? {t : Table Cell} (hseeds : u.seeds = some t) {r : Row Cell}
    (hrow : t.withId? phraseId = some r) {text : String} (htext : r.data = .text text) :
    HoldsText u text := by
  rcases r with ⟨id, data⟩
  obtain rfl : id = phraseId := by simpa using List.find?_some hrow
  obtain rfl : data = .text text := htext
  exact ⟨t, hseeds, hrow⟩

theorem conceal_get (hone : store.vault.OneKey A) (husable : Vault.Usable password)
    (husable' : Vault.Usable other) :
    Conceal (LooksAlike (store.vault.veil A)) (fun u => ∀ text, HoldsText u text → A password text)
      (fun u => ∀ text, HoldsText u text → A other text)
      (store.get password) (store.get other) := by
  refine conceal_table none fun t t' ht => ?_
  have hrows := withId?_alike ht phraseId
  cases hrow : t.withId? phraseId with
  | none =>
    cases hrow' : t'.withId? phraseId with
    | none => exact (agree_throw _).conceal
    | some r' => simp [hrow, hrow'] at hrows
  | some r =>
    cases hrow' : t'.withId? phraseId with
    | none => simp [hrow, hrow'] at hrows
    | some r' =>
      simp only [hrow, hrow', Option.map_some, Option.some.injEq, Row.mk.injEq] at hrows
      refine conceal_liftExcept ?_
      rintro u u' ⟨hmet, hseeds⟩ ⟨hmet', hseeds'⟩ e e' h h' hkind
      exact open?_failures_eq hone husable husable'
        (fun text htext => hmet text (holdsText_of_withId? hseeds hrow htext))
        (fun text htext => hmet' text (holdsText_of_withId? hseeds' hrow' htext)) hrows.2 h h' hkind

/-! ### Saving -/

/-- The text that a phrase is sealed as in a state. -/
def Seals (store : SecretStore) (password phrase : RawText) (u : SecretState) (text : String) :
    Prop :=
  ∃ e, exec (store.vault.sealPhrase store.time password phrase) u.entropy = (.ok text, e)

theorem LooksAlike.entropy (hu : LooksAlike f u u') : u.entropy = u'.entropy := by
  have hentropy := congrArg SecretState.entropy hu.hidden
  exact hentropy

theorem LooksAlike.withEntropy (hu : LooksAlike f u u') (entropy : Entropy) :
    LooksAlike f { u with entropy } { u' with entropy } :=
  ⟨congrArg (fun w : SecretState => { w with entropy }) hu.hidden⟩

/-- What sealing leaves of the randomness is told by how it ends. -/
theorem conceal_sealPhrase (husable : Vault.Usable password) (husable' : Vault.Usable other) :
    Conceal (LooksAlike f) I I' (store.sealPhrase password phrase)
      (store.sealPhrase other phrase') := by
  intro u u' hu _ _ hends
  rw [exec_sealPhrase, exec_sealPhrase] at hends ⊢
  rw [hu.entropy] at hends ⊢
  -- two runs that end in the same way leave the same randomness, and different ways are told apart
  -- by the kind of the failure
  rcases store.vault.exec_sealPhrase_ends store.time password phrase u'.entropy with
    ⟨text, hrun⟩ | hrun | ⟨failure, hkey, hrun⟩
  all_goals
    rcases store.vault.exec_sealPhrase_ends store.time other phrase' u'.entropy with
      ⟨text', hrun'⟩ | hrun' | ⟨failure', hkey', hrun'⟩
    all_goals rw [hrun, hrun'] at hends ⊢
  case inr.inr.inr.inr =>
    -- both passwords have no key, for the same reason
    obtain rfl := Except.error.inj (hkey'.symm.trans (husable.key_error husable' hkey))
    exact ⟨rfl, hu.withEntropy _⟩
  case inr.inl.inr.inr =>
    simp only [EndAlike, failureOf_error, Option.map_some, (Vault.keyFault_of_key hkey').kind?]
      at hends
    exact absurd hends (by decide)
  case inr.inr.inr.inl =>
    simp only [EndAlike, failureOf_error, Option.map_some, (Vault.keyFault_of_key hkey).kind?]
      at hends
    exact absurd hends (by decide)
  all_goals
    first
      | exact ⟨rfl, hu.withEntropy _⟩
      | simp [EndAlike] at hends

theorem failsAs_sealPhrase :
    FailsAs I (fun e => e.kind? ≠ some .database) (store.sealPhrase password phrase) := by
  intro u _ e u' hrun
  rw [exec_sealPhrase, Prod.mk.injEq] at hrun
  rcases store.vault.exec_sealPhrase_ends store.time password phrase u.entropy with
    ⟨text, hseal⟩ | hseal | ⟨failure, hkey, hseal⟩
  · simp [hseal] at hrun
  · rw [hseal] at hrun
    obtain rfl := Except.error.inj hrun.1
    simp [Failure.kind?]
  · rw [hseal] at hrun
    obtain rfl := Except.error.inj hrun.1
    simp [(Vault.keyFault_of_key hkey).kind?]

/-- What is sealed opens or is refused. -/
theorem yields_sealPhrase (hcipher : store.vault.cipher.Lawful) (hone : store.vault.OneKey A)
    (husable : ∀ password text, A password text → Vault.Usable password) :
    Yields (fun u => ∀ text, store.Seals password phrase u text → A password text)
      (store.sealPhrase password phrase) fun text _ => store.vault.OpensOrRefuses A text := by
  intro u hmet text u' hseal
  rw [exec_sealPhrase, Prod.mk.injEq] at hseal
  have hsealed : exec (store.vault.sealPhrase store.time password phrase) u.entropy =
      (.ok text, _) := Prod.ext hseal.1 rfl
  exact Vault.opensOrRefuses_of_sealPhrase hcipher hone husable hsealed (hmet text ⟨_, hsealed⟩)

theorem failsAs_table (doing : Option String) :
    FailsAs I (fun e => e.kind? = some .database) (table doing) := by
  intro u _ e u' hrun
  unfold table at hrun
  rw [exec_get_bind] at hrun
  split at hrun
  · obtain rfl := Except.error.inj (congrArg Prod.fst hrun)
    rfl
  · obtain rfl := Except.error.inj (congrArg Prod.fst hrun)
    rfl
  · simp at hrun

/-- When the phrase is sealed, only the look for the table can still fail. -/
theorem failsAs_tableThenPut (sealedText : String) :
    FailsAs I (fun e => e.kind? = some .database)
      (table (some "Failed to save mnemonic") >>= fun t => putSealed t sealedText) := by
  refine failsAs_bind (failsAs_table _) (keeps_table _) fun t => ?_
  intro u _ e u' hrun
  rw [exec_putSealed] at hrun
  simp at hrun

theorem savedLines_hide (t : Table Cell) : savedLines (t.hide f) = savedLines t := by
  unfold savedLines
  rw [Table.withId?_hide]
  cases t.withId? phraseId <;> rfl

/-- Texts that open or are refused are put into tables that look alike. -/
theorem conceal_putSealed {v : Vault} {text text' : String} {t t' : Table Cell}
    (ht : t.hide (v.veil A) = t'.hide (v.veil A)) :
    Conceal (LooksAlike (v.veil A)) (fun _ => v.OpensOrRefuses A text)
      (fun _ => v.OpensOrRefuses A text') (putSealed t text) (putSealed t' text') := by
  intro u u' hu htext htext' _
  have hput : (t.putPhrase text).hide (v.veil A) = (t'.putPhrase text').hide (v.veil A) := by
    rw [Table.putPhrase_hide (Vault.veil_of_opensOrRefuses htext),
      Table.putPhrase_hide (Vault.veil_of_opensOrRefuses htext'), ht]
  have hlines : savedLines t = savedLines t' := by
    rw [← savedLines_hide (f := v.veil A), ht, savedLines_hide]
  rw [exec_putSealed, exec_putSealed, hlines]
  refine ⟨rfl, ?_⟩
  have hstate := congrArg (fun w : SecretState => { w with
    seeds := some ((t'.putPhrase text').hide (v.veil A)), log := w.log ++ savedLines t' }) hu.hidden
  constructor
  simp only [SecretState.hide, Option.map_some, hput] at hstate ⊢
  exact hstate

/-- Which phrase is saved, and under which password, is not told. -/
theorem conceal_save (phrase phrase' : RawText) (hcipher : store.vault.cipher.Lawful)
    (hone : store.vault.OneKey A) (hA : ∀ password text, A password text → Vault.Usable password)
    (husable : Vault.Usable password) (husable' : Vault.Usable other) :
    Conceal (LooksAlike (store.vault.veil A))
      (fun u => ∀ text, store.Seals password phrase u text → A password text)
      (fun u => ∀ text, store.Seals other phrase' u text → A other text)
      (store.save password phrase) (store.save other phrase') := by
  rw [save_eq, save_eq]
  refine (conceal_sealPhrase husable husable').bind failsAs_sealPhrase failsAs_sealPhrase
    (yields_sealPhrase hcipher hone hA) (yields_sealPhrase hcipher hone hA)
    (fun text => failsAs_tableThenPut text) (fun text => failsAs_tableThenPut text)
    (fun e e' he he' heq => he (heq.trans he')) fun text text' => ?_
  refine conceal_table _ fun t t' ht => ?_
  exact fun u u' hu hI hI' => conceal_putSealed ht u u' hu hI.1 hI'.1

/-- A phrase is saved unless the database fails. -/
theorem failsAs_save {kept : String} (hparse : SeedPhrase.parse? phrase = some kept)
    (hderives : store.vault.Derives password) :
    FailsAs (fun _ => True) (fun e => e.kind? = some .database) (store.save password phrase) := by
  rw [save_eq]
  refine failsAs_bind ?_ (fun _ _ => trivial) failsAs_tableThenPut
  intro u _ e u' hrun
  rcases hderives.exists_encrypt store.time kept u.entropy with ⟨text, ent, hseal⟩
  rw [exec_sealPhrase, Vault.exec_sealPhrase hparse, hseal] at hrun
  simp at hrun

end SecretStore

end NodeStore
