import NodeStore.Proofs.Rules
import NodeStore.Proofs.Table.Upsert
import NodeStore.Store.Basic

/-! # The steps of loads and saves

A load of a setting is a look into the cache, a read of the table and an entry into the cache; a
save is a commit to the table and an entry into the cache. For each of these steps one lemma says
all that it can do to what the table holds (`StoreState.setting`) and to what the cache knows
(`StoreState.known`):

* `commitSetting_ok`, `commitSetting_error`: a commit puts its value into the table, or fails
  and changes nothing;
* `readSetting_ok`, `readSetting_error`: a read answers with what the table holds, or fails;
* `exec_enterReadSetting`: what was read is entered only for a key of which nothing is known;
* `loadSetting_answers_iff`: what a load answers with.
-/

namespace NodeStore

namespace ConfigCache

variable {α : Type} (c : ConfigCache α) (key k : String) (value : Option α)

@[simp] theorem lookup_store :
    (c.store key value).lookup k = if k = key then some value else c.lookup k :=
  Assoc.lookup_put key k value c.entries

theorem storeIfAbsent_fst : (c.storeIfAbsent key value).1 = (c.lookup key).getD value := by
  unfold storeIfAbsent
  cases c.lookup key <;> rfl

/-- An entry that is there stays. -/
theorem lookup_storeIfAbsent :
    (c.storeIfAbsent key value).2.lookup k =
      if k = key then some ((c.lookup key).getD value) else c.lookup k := by
  unfold storeIfAbsent
  cases h : c.lookup key with
  | none => simp
  | some known =>
    by_cases hk : k = key
    · simp [hk, h]
    · simp [hk]

end ConfigCache

namespace Tables

/-- The value of a setting in the table, if there is one. -/
def setting (t : Tables) (key : String) : Option Cell :=
  t.settings.bind fun s => s.valueOf? (.text key)

end Tables

namespace StoreState

/-- What the table holds for a key. -/
def setting (s : StoreState) (key : String) : Option Cell :=
  s.tables.setting key

/-- What the cache knows of a key. -/
def known (s : StoreState) (key : String) : Option (Option Cell) :=
  s.cache.lookup key

end StoreState

namespace Store

open Op

variable {key : String} {s t : StoreState}

/-! ## Transactions -/

theorem exec_transaction {α : Type} (body : Tables → Except DatabaseFault (α × Tables)) :
    exec (transaction body) s =
      match s.outages.transactions with
      | some fault => (.error (.database fault), s)
      | none =>
        match body s.tables with
        | .error fault => (.error (.database fault), s)
        | .ok (a, tables) => (.ok a, { s with tables }) := by
  unfold transaction
  rw [exec_get_bind]
  cases s.outages.transactions with
  | some fault => rfl
  | none => cases body s.tables <;> rfl

@[simp] theorem present_some {α : Type} (name : TableName) (statement : Option Statement) (a : α) :
    present name statement (some a) = .ok a := rfl

/-- A transaction succeeds exactly when the engine carries transactions out and the body
succeeds; only the tables change then. -/
theorem exec_transaction_ok {α : Type} {body : Tables → Except DatabaseFault (α × Tables)} {a : α} :
    exec (transaction body) s = (.ok a, t) ↔
      s.outages.transactions = none ∧
        ∃ tables, body s.tables = .ok (a, tables) ∧ t = { s with tables } := by
  rw [exec_transaction]
  cases s.outages.transactions with
  | some fault => simp
  | none =>
    cases body s.tables with
    | error fault => simp
    | ok r =>
      rcases r with ⟨b, tables⟩
      simp only [Prod.mk.injEq, Except.ok.injEq, true_and]
      constructor
      · rintro ⟨rfl, rfl⟩
        exact ⟨tables, ⟨rfl, rfl⟩, rfl⟩
      · rintro ⟨tables', ⟨rfl, rfl⟩, rfl⟩
        exact ⟨rfl, rfl⟩

/-- A transaction that fails changes nothing. -/
theorem exec_transaction_error {α : Type} {body : Tables → Except DatabaseFault (α × Tables)}
    {e : Failure} (h : exec (transaction body) s = (.error e, t)) : t = s := by
  rw [exec_transaction] at h
  split at h
  · exact (Prod.mk.inj h).2.symm
  · split at h
    · exact (Prod.mk.inj h).2.symm
    · simp at h

/-- The rule for a transaction, whose body changes the tables. -/
theorem keeps_transaction {α : Type} {I : StoreState → Prop}
    {body : Tables → Except DatabaseFault (α × Tables)}
    (hbody : ∀ s a tables, I s → body s.tables = .ok (a, tables) → I { s with tables }) :
    Keeps I (transaction body) := by
  intro s hs
  rcases hrun : exec (transaction body) s with ⟨r, t⟩
  cases r with
  | ok a =>
    rcases exec_transaction_ok.1 hrun with ⟨-, tables, hok, rfl⟩
    exact hbody s a tables hs hok
  | error e =>
    obtain rfl := exec_transaction_error hrun
    exact hs

/-! ## The steps of a save -/

/-- A commit that succeeds had a text to write; it changes the value of its key and nothing
else. -/
theorem commitSetting_ok {value : Option String}
    (h : exec (commitSetting key value) s = (.ok (), t)) :
    (∃ text, value = some text) ∧ t.cache = s.cache ∧
      ∀ k, t.setting k = if k = key then value.map .text else s.setting k := by
  unfold commitSetting at h
  rcases exec_transaction_ok.1 h with ⟨-, tables, hbody, rfl⟩
  cases hsettings : s.tables.settings with
  | none => simp [hsettings, present, bind, Except.bind] at hbody
  | some settings =>
    cases value with
    | none => simp [hsettings, present, bind, Except.bind] at hbody
    | some text =>
      simp only [hsettings, present, bind, Except.bind, pure, Except.pure, Except.ok.injEq,
        Prod.mk.injEq, true_and] at hbody
      refine ⟨⟨text, rfl⟩, rfl, ?_⟩
      intro k
      simp only [StoreState.setting, Tables.setting, ← hbody, hsettings, Option.bind_some,
        Table.valueOf_upsert, Cell.text.injEq, Option.map_some]

/-- A commit that fails changes nothing. -/
theorem commitSetting_error {value : Option String} {e : Failure}
    (h : exec (commitSetting key value) s = (.error e, t)) : t = s :=
  exec_transaction_error h

theorem exec_enterSetting (value : Option Cell) :
    exec (enterSetting key value) s = (.ok (), { s with cache := s.cache.store key value }) := rfl

/-! ## The steps of a load -/

theorem exec_cachedSetting : exec (cachedSetting key) s = (.ok (s.known key), s) := rfl

/-- A read that succeeds answers with what the table holds and changes nothing. -/
theorem readSetting_ok {value : Option Cell} (h : exec (readSetting key) s = (.ok value, t)) :
    value = s.setting key ∧ t = s := by
  unfold readSetting at h
  rw [exec_get_bind] at h
  cases hreads : s.outages.reads with
  | some fault => simp [hreads] at h
  | none =>
    simp only [hreads] at h
    rcases exec_transaction_ok.1 h with ⟨-, tables, hbody, rfl⟩
    cases hsettings : s.tables.settings with
    | none => simp [hsettings, present, bind, Except.bind] at hbody
    | some settings =>
      simp only [hsettings, present, bind, Except.bind, pure, Except.pure, Except.ok.injEq,
        Prod.mk.injEq] at hbody
      rcases hbody with ⟨rfl, rfl⟩
      simp [StoreState.setting, Tables.setting, hsettings]

/-- A read that fails changes nothing. -/
theorem readSetting_error {e : Failure} (h : exec (readSetting key) s = (.error e, t)) :
    t = s := by
  unfold readSetting at h
  rw [exec_get_bind] at h
  cases hreads : s.outages.reads with
  | some fault =>
    simp only [hreads, exec_throw, Prod.mk.injEq] at h
    exact h.2.symm
  | none =>
    simp only [hreads] at h
    exact exec_transaction_error h

/-- What was read is entered if nothing is known yet; the answer is what is known then. -/
theorem exec_enterReadSetting (value : Option Cell) :
    exec (enterReadSetting key value) s =
      (.ok ((s.known key).getD value),
        { s with cache := (s.cache.storeIfAbsent key value).2 }) := by
  unfold enterReadSetting
  rw [exec_get_bind]
  simp only [exec_set_bind, exec_pure, StoreState.known,
    ← ConfigCache.storeIfAbsent_fst s.cache key value]

/-- The part of a load that asks the engine. -/
def readMissed (key : String) : StoreM (Option Cell) := do
  log LogLevel.debug s!"Loading RGB config from database: {key}"
  readSetting key

/-- A read answers with what the table holds; besides that it only logs. -/
theorem readMissed_ok {value : Option Cell} (h : exec (readMissed key) s = (.ok value, t)) :
    value = s.setting key ∧ t.tables = s.tables ∧ t.cache = s.cache := by
  unfold readMissed log at h
  rw [exec_modify_bind] at h
  rcases readSetting_ok h with ⟨rfl, rfl⟩
  exact ⟨rfl, rfl, rfl⟩

theorem readMissed_error {e : Failure} (h : exec (readMissed key) s = (.error e, t)) :
    t.tables = s.tables ∧ t.cache = s.cache := by
  unfold readMissed log at h
  rw [exec_modify_bind] at h
  obtain rfl := readSetting_error h
  exact ⟨rfl, rfl⟩

/-! ## Whole loads and saves -/

/-- A load of a key that is known asks nobody. -/
theorem exec_loadSetting_hit {known : Option Cell} (h : s.known key = some known) :
    exec (loadSetting key) s = (.ok known, s) := by
  unfold loadSetting beginLoad
  simp only [exec_bind, exec_cachedSetting, h, exec_pure]
  rfl

/-- A load of a key that is not known reads it and enters what it read. -/
theorem exec_loadSetting_miss (h : s.known key = none) :
    exec (loadSetting key) s = exec (readMissed key >>= enterReadSetting key) s := by
  unfold loadSetting beginLoad readMissed
  simp only [exec_bind, exec_cachedSetting, h]
  -- both sides log, read and enter; only the brackets differ
  rcases exec (log LogLevel.debug _) s with ⟨r, t⟩
  cases r with
  | error e => rfl
  | ok u =>
    simp only
    rcases exec (readSetting key) t with ⟨r, t⟩
    cases r <;> rfl

/-- Loading a setting leaves the tables as they are. -/
theorem loadSetting_tables (key : String) (u : StoreState) :
    (exec (loadSetting key) u).2.tables = u.tables := by
  cases hknown : u.known key with
  | some known => rw [exec_loadSetting_hit hknown]
  | none =>
    rw [exec_loadSetting_miss hknown, exec_bind]
    rcases hread : exec (readMissed key) u with ⟨r, t⟩
    cases r with
    | error e => exact (readMissed_error hread).1
    | ok value =>
      simp only [exec_enterReadSetting]
      exact (readMissed_ok hread).2.1

/-- While what is known is what the table holds, a load answers with that, and leaves it so. -/
theorem loadSetting_ok_of_agrees {value : Option Cell}
    (hagrees : ∀ k known, s.known k = some known → known = s.setting k)
    (h : exec (loadSetting key) s = (.ok value, t)) :
    value = s.setting key ∧ t.tables = s.tables ∧
      ∀ k known, t.known k = some known → known = s.setting k := by
  cases hknown : s.known key with
  | some known =>
    rw [exec_loadSetting_hit hknown, Prod.mk.injEq, Except.ok.injEq] at h
    rcases h with ⟨rfl, rfl⟩
    exact ⟨hagrees key known hknown, rfl, hagrees⟩
  | none =>
    rw [exec_loadSetting_miss hknown] at h
    rcases exec_bind_ok.1 h with ⟨read, u, hread, henter⟩
    rcases readMissed_ok hread with ⟨rfl, htables, hcache⟩
    have hmissed : u.known key = none := by
      rw [StoreState.known, hcache]
      exact hknown
    rw [exec_enterReadSetting, hmissed, Prod.mk.injEq, Except.ok.injEq] at henter
    rcases henter with ⟨rfl, rfl⟩
    refine ⟨rfl, htables, ?_⟩
    intro k known hk
    rw [StoreState.known, ConfigCache.lookup_storeIfAbsent, hcache] at hk
    by_cases hkey : k = key
    · subst hkey
      have hnone : s.cache.lookup k = none := hknown
      simp only [if_true, hnone, Option.getD_none, Option.some.injEq] at hk
      exact hk.symm
    · rw [if_neg hkey] at hk
      exact hagrees k known hk

theorem exec_countSettingSave (s : StoreState) : exec countSettingSave s =
    (if (countDown s.outages.settingSave).1 then .error (.database locked) else .ok (),
      { s with
        outages := { s.outages with settingSave := (countDown s.outages.settingSave).2 } }) := by
  unfold countSettingSave
  rw [exec_get_bind]
  simp only [exec_set_bind]
  split <;> rfl

/-- What a save does before it commits. -/
def announce (key : String) (value : Option String) : StoreM Unit := do
  countSettingSave
  log LogLevel.info s!"Saving RGB config to database: {key} = {shown value}"

/-- Announcing a save touches neither the tables nor the cache. -/
theorem exec_announce_snd (key : String) (value : Option String) :
    (exec (announce key value) s).2.tables = s.tables ∧
      (exec (announce key value) s).2.cache = s.cache := by
  unfold announce countSettingSave log
  simp only [exec_bind, exec_get]
  cases (countDown s.outages.settingSave).1 <;> exact ⟨rfl, rfl⟩

/-- A save is announced, then committed, and then entered. -/
theorem exec_saveSetting (value : Option String) :
    exec (saveSetting key value) s =
      exec (do
        announce key value
        commitSetting key value
        enterSetting key (value.map .text)) s := by
  unfold saveSetting announce
  rw [bind_assoc]

/-- A save fails in the database only. -/
theorem failsAs_saveSetting (key : String) (value : Option String) :
    FailsAs (fun _ => True) (fun e => ∃ fault, e = .database fault) (saveSetting key value) := by
  have hcount : FailsAs (fun _ => True) (fun e => ∃ fault, e = .database fault)
      countSettingSave := by
    intro u _ e v h
    rw [exec_countSettingSave] at h
    split at h
    · exact ⟨locked, (Except.error.inj (congrArg Prod.fst h)).symm⟩
    · exact absurd (congrArg Prod.fst h) nofun
  have hcommit : FailsAs (fun _ => True) (fun e => ∃ fault, e = .database fault)
      (commitSetting key value) := by
    intro u _ e v h
    unfold commitSetting at h
    rw [exec_transaction] at h
    split at h
    · rename_i fault _
      exact ⟨fault, (Except.error.inj (congrArg Prod.fst h)).symm⟩
    · split at h
      · rename_i fault _
        exact ⟨fault, (Except.error.inj (congrArg Prod.fst h)).symm⟩
      · exact absurd (congrArg Prod.fst h) nofun
  unfold saveSetting
  refine failsAs_bind hcount (fun _ _ => trivial) fun _ => ?_
  refine failsAs_bind (failsAs_modify _) (fun _ _ => trivial) fun _ => ?_
  refine failsAs_bind hcommit (fun _ _ => trivial) fun _ => ?_
  exact failsAs_modify _

/-- Without outages every text is saved in a table of settings that is there. -/
theorem exec_saveSetting_text (key text : String) {u : StoreState}
    {t : Table (Cell × Cell)} (hout : u.outages = {}) (ht : u.tables.settings = some t) :
    ∃ u', exec (saveSetting key (some text)) u = (.ok (), u') ∧ u'.outages = {} ∧
      u'.tables = { u.tables with settings := some (t.upsert (.text key) (.text text)) } ∧
      u'.cache = u.cache.store key (some (.text text)) := by
  rcases u with ⟨tables, cache, outages, lines⟩
  subst hout
  simp only at ht
  let line : LogLine := ⟨LogLevel.info, subsystem,
    s!"Saving RGB config to database: {key} = {shown (some text)}"⟩
  let saved : Tables := { tables with settings := some (t.upsert (.text key) (.text text)) }
  have hcount : exec countSettingSave ⟨tables, cache, {}, lines⟩ =
      (.ok (), ⟨tables, cache, {}, lines⟩) := rfl
  have hlog : exec (log line.level line.message) ⟨tables, cache, {}, lines⟩ =
      (.ok (), ⟨tables, cache, {}, lines ++ [line]⟩) := rfl
  have hcommit : exec (commitSetting key (some text)) ⟨tables, cache, {}, lines ++ [line]⟩ =
      (.ok (), ⟨saved, cache, {}, lines ++ [line]⟩) := by
    unfold commitSetting
    refine exec_transaction_ok.2 ⟨rfl, saved, ?_, rfl⟩
    simp only [ht, present, bind, Except.bind, pure, Except.pure, saved]
  refine ⟨⟨saved, cache.store key (some (.text text)), {}, lines ++ [line]⟩, ?_, rfl, rfl, rfl⟩
  unfold saveSetting
  rw [exec_bind_of_ok hcount, exec_bind_of_ok hlog, exec_bind_of_ok hcommit]
  rfl

/-! ## Where the table can be read -/

/-- The table of settings can be read. -/
def Readable (s : StoreState) : Prop :=
  s.outages.reads = none ∧ s.outages.transactions = none ∧ s.tables.settings ≠ none

/-- A read succeeds only where the table can be read. -/
theorem readable_of_readMissed {value : Option Cell}
    (h : exec (readMissed key) s = (.ok value, t)) : Readable s := by
  unfold readMissed log at h
  rw [exec_modify_bind] at h
  unfold readSetting at h
  rw [exec_get_bind] at h
  cases hreads : s.outages.reads with
  | some fault => simp [hreads] at h
  | none =>
    simp only [hreads] at h
    rcases exec_transaction_ok.1 h with ⟨hworks, tables, hbody, -⟩
    refine ⟨hreads, hworks, ?_⟩
    intro hnone
    simp [hnone, present, bind, Except.bind] at hbody

/-- Where it can be read, a read answers with the row, and only logs. -/
theorem readMissed_of_readable (key : String) (h : Readable s) :
    ∃ log, exec (readMissed key) s = (.ok (s.setting key), { s with log }) := by
  rcases h with ⟨hreads, hworks, htable⟩
  rcases Option.ne_none_iff_exists'.1 htable with ⟨settings, hsettings⟩
  have hrow : s.setting key = settings.valueOf? (.text key) := by
    simp [StoreState.setting, Tables.setting, hsettings]
  unfold readMissed log
  rw [exec_modify_bind]
  unfold readSetting
  rw [exec_get_bind]
  simp only [hreads, hrow]
  refine ⟨_, exec_transaction_ok.2 ⟨hworks, s.tables, ?_, rfl⟩⟩
  simp [hsettings, present, bind, Except.bind, pure, Except.pure]

/-- A load of what is not known answers with the row, if that can be read, and enters it. -/
theorem exec_loadSetting_row (hmissed : s.known key = none) (h : Readable s) :
    ∃ log, exec (loadSetting key) s =
      (.ok (s.setting key), { s with cache := s.cache.store key (s.setting key), log }) := by
  rcases readMissed_of_readable key h with ⟨log, hread⟩
  have hmissed' : StoreState.known { s with log } key = none := hmissed
  have hstored : s.cache.storeIfAbsent key (s.setting key) =
      (s.setting key, s.cache.store key (s.setting key)) := by
    unfold ConfigCache.storeIfAbsent
    rw [show s.cache.lookup key = none from hmissed]
  refine ⟨log, ?_⟩
  rw [exec_loadSetting_miss hmissed, exec_bind_of_ok hread, exec_enterReadSetting, hmissed',
    hstored]
  rfl

/-- A commit succeeds only where there is a table. -/
theorem table_of_commitSetting {value : Option String}
    (h : exec (commitSetting key value) s = (.ok (), t)) : s.tables.settings ≠ none := by
  unfold commitSetting at h
  rcases exec_transaction_ok.1 h with ⟨-, tables, hbody, -⟩
  intro hnone
  simp [hnone, present, bind, Except.bind] at hbody

/-- A save that succeeds changes the row of its key in a table that is there, and then the cache. -/
theorem saveSetting_ok {value : Option String} (h : exec (saveSetting key value) s = (.ok (), t)) :
    s.tables.settings ≠ none ∧ t.cache = s.cache.store key (value.map .text) ∧
      t.setting key = value.map .text := by
  rw [exec_saveSetting] at h
  rcases exec_bind_ok.1 h with ⟨_, u, hannounce, h⟩
  rcases exec_bind_ok.1 h with ⟨_, v, hcommit, henter⟩
  have hsame := exec_announce_snd (s := s) key value
  rw [hannounce] at hsame
  have htable := table_of_commitSetting hcommit
  rw [hsame.1] at htable
  rcases commitSetting_ok hcommit with ⟨-, hcache, hsetting⟩
  rw [exec_enterSetting, Prod.mk.injEq] at henter
  rw [← henter.2]
  refine ⟨htable, ?_, ?_⟩
  · rw [hcache, hsame.2]
  · rw [StoreState.setting]
    have hrow := hsetting key
    rwa [if_pos rfl] at hrow

/-- A load answers with what is known or, if nothing is, with the row, if that can be read. -/
theorem loadSetting_answers_iff {value : Option Cell} :
    (exec (loadSetting key) s).1 = .ok value ↔
      s.known key = some value ∨ s.known key = none ∧ Readable s ∧ s.setting key = value := by
  cases hknown : s.known key with
  | some known =>
    rw [exec_loadSetting_hit hknown]
    simp
  | none =>
    rw [exec_loadSetting_miss hknown]
    constructor
    · intro hvalue
      rcases hrun : exec (readMissed key >>= enterReadSetting key) s with ⟨r, t⟩
      rw [hrun] at hvalue
      subst hvalue
      rcases exec_bind_ok.1 hrun with ⟨read, u, hread, henter⟩
      rcases readMissed_ok hread with ⟨rfl, -, hcache⟩
      have hmissed : u.known key = none := by
        rw [StoreState.known, hcache]
        exact hknown
      rw [exec_enterReadSetting, hmissed, Prod.mk.injEq, Except.ok.injEq] at henter
      exact Or.inr ⟨rfl, readable_of_readMissed hread, henter.1⟩
    · rintro (hvalue | ⟨-, hreadable, rfl⟩)
      · exact absurd hvalue nofun
      · rcases exec_loadSetting_row hknown hreadable with ⟨log, hload⟩
        rw [← exec_loadSetting_miss hknown, hload]

/-- Saves leave the outages of reads. -/
theorem keeps_saveSetting_reads (value : Option String) (reads : Option DatabaseFault) :
    Keeps (fun s => s.outages.reads = reads) (saveSetting key value) := by
  have hcount : Keeps (fun s : StoreState => s.outages.reads = reads) countSettingSave := by
    intro s hs
    rw [exec_countSettingSave]
    exact hs
  refine keeps_bind hcount fun _ => ?_
  refine keeps_bind (keeps_modify fun _ hs => hs) fun _ => ?_
  refine keeps_bind (keeps_transaction fun _ _ _ hs _ => hs) fun _ => ?_
  exact keeps_modify fun _ hs => hs

/-- Loads leave the outages of reads. -/
theorem keeps_loadSetting_reads (reads : Option DatabaseFault) :
    Keeps (fun s => s.outages.reads = reads) (loadSetting key) := by
  have hread : Keeps (fun s : StoreState => s.outages.reads = reads) (readSetting key) := by
    refine keeps_get_bind fun s hs => ?_
    split
    · exact hs
    · exact keeps_transaction (I := fun s => s.outages.reads = reads) (fun _ _ _ hs _ => hs) s hs
  refine keeps_bind ?_ fun found => ?_
  · refine keeps_bind (fun _ hs => hs) fun known => ?_
    cases known with
    | some known => exact keeps_pure _
    | none =>
      refine keeps_bind (keeps_modify fun _ hs => hs) fun _ => ?_
      exact keeps_bind hread fun _ => keeps_pure _
  · cases found with
    | inl known => exact keeps_pure known
    | inr value =>
      intro s hs
      rw [show finishLoad key (.inr value) = enterReadSetting key value from rfl,
        exec_enterReadSetting]
      exact hs

end Store

end NodeStore
