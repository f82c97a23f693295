import NodeStore.Proofs.Node.Reopening
import NodeStore.Proofs.Node.StoredSeed

/-! # A seed in a file of both stores

The relational store and the secret store of a node may have one file. Then they share one table of
seeds, which the relational store has made: it does not remember the ids that it gave. One store
replaces all rows, the other updates the row of the phrase or adds one; one looks at any row, the
other at the row of the phrase. Still there is never a row but that of the phrase, with the text
that either store has written last (`Table.ofSeed`).

* `ofSeed_replace`, `ofSeed_putPhrase`: what the two stores make of the table;
* `shares_of_open`: opening a node where there is no database yet;
* `Shares.accepted`, `Shares.failed`: what one call makes of the table;
* `shared_seed_is_last_written`: runs. -/

namespace NodeStore

open Op

namespace Table

/-- The table with the row of the phrase, if there is a text, and no other row. -/
def ofSeed (last : Option String) : Table Cell where
  rows := (last.map fun text => ⟨SecretStore.phraseId, .text text⟩).toList

/-- When all rows are deleted the next id is that of the phrase again. -/
theorem ofSeed_replace (last : Option String) (text : String) :
    ((ofSeed last).deleteWhere fun _ => true).append (.text text) = ofSeed (some text) := by
  have hempty : (ofSeed last).deleteWhere (fun _ => true) = {} := by
    simp [ofSeed, deleteWhere]
  rw [hempty]
  rfl

theorem withId?_ofSeed (last : Option String) :
    (ofSeed last).withId? SecretStore.phraseId =
      last.map fun text => ⟨SecretStore.phraseId, .text text⟩ := by
  cases last <;> rfl

theorem ofSeed_putPhrase (last : Option String) (text : String) :
    (ofSeed last).putPhrase text = ofSeed (some text) := by
  unfold putPhrase
  rw [withId?_ofSeed]
  cases last <;> rfl

end Table

/-! ## Seeds of the relational store -/

namespace Store

variable {s s' : StoreState} {t : Table Cell}

/-- A seed that is saved replaces all rows. -/
theorem saveSeed_ok {sealedText : Option String} (hseeds : s.tables.seeds = some t)
    (h : exec (saveSeed sealedText) s = (.ok (), s')) :
    ∃ text, sealedText = some text ∧ s'.tables.seeds =
      some ((t.deleteWhere fun _ => true).append (.text text)) := by
  unfold saveSeed log at h
  rw [exec_modify_bind] at h
  rcases exec_bind_ok.1 h with ⟨_, s₁, hcommit, hlog⟩
  obtain rfl : _ = s' := congrArg Prod.snd hlog
  rcases exec_transaction_ok.1 hcommit with ⟨-, tables, hbody, rfl⟩
  simp only [clearSeeds, insertSeed, hseeds, present_some, ok_bind, pure, Except.pure] at hbody
  cases sealedText with
  | none => simp [bind, Except.bind] at hbody
  | some text =>
    simp only [ok_bind, Except.ok.injEq, Prod.mk.injEq, true_and] at hbody
    subst hbody
    exact ⟨text, rfl, rfl⟩

/-- The seed that is loaded is that of the first row. -/
theorem exec_loadSeed (hworks : s.outages.transactions = none) (hseeds : s.tables.seeds = some t) :
    (exec loadSeed s).1 =
      match t.rows.head? with
      | some r => .ok r.data
      | none => .error .notInitialized := by
  unfold loadSeed log
  rw [exec_modify_bind, exec_bind, exec_transaction]
  simp only [hworks, hseeds, present_some, ok_bind, pure, Except.pure]
  cases t.rows.head? <;> rfl

/-- A seed is stored if there is any row. -/
theorem exec_hasSeed (hworks : s.outages.transactions = none) (hseeds : s.tables.seeds = some t) :
    (exec hasSeed s).1 = .ok (!t.rows.isEmpty) := by
  unfold hasSeed log
  rw [exec_bind, exec_transaction]
  simp only [hworks, hseeds, present_some, ok_bind, pure, Except.pure]
  rfl

end Store

/-! ## Places without a database -/

/-- No database is at the place of a path. -/
def Host.NoDatabase (p : Path) (h : Host) : Prop :=
  ∀ tables, h.files.entry? (p.placeFrom h.workDir) ≠ some (.database tables)

namespace Host

variable {p : Path} {h h' : Host}

theorem NoDatabase.spared (hno : h.NoDatabase p) (hspares : h.Spares p h') : h'.NoDatabase p :=
  fun tables hentry => hno tables (hspares.made tables hentry)

theorem NoDatabase.made (hno : h.NoDatabase p) {files : FileTree}
    (hmade : h.files.MadeFolders files) : { h with files }.NoDatabase p :=
  hno.spared (spares_of_files rfl rfl hmade.spares)

end Host

/-- What the secret store of a node seals, with the randomness of its host. -/
def NodeState.sealed (s : NodeState) (password phrase : RawText) : Option String :=
  (exec ((s.node.secret.store s.host).vault.sealPhrase s.host.time password phrase)
    s.host.entropy).1.toOption

/-- The text that a call has written, by its answer. -/
def NodeCall.written (s : NodeState) : NodeCall → NodeAnswer → Option String
  | .store (.saveSeed text), _ => text
  | .savePhrase password phrase, _ => s.sealed password phrase
  | .restorePhrase _ password, .phrase phrase => s.sealed password phrase
  | _, _ => none

namespace Node

/-- Both stores of the node have one file, with the seed that was written last. -/
structure Shares (c : Config) (last : Option String) (s : NodeState) : Prop where
  store : s.node.store.path = c.secretPath
  secret : s.node.secret = { path := c.secretPath, iterations := c.iterations }
  table : s.host.FileHas c.secretPath fun tables => tables.seeds = some (Table.ofSeed last)

variable {α : Type} {c : Config} {h h' : Host} {node : Node} {s t : NodeState}
  {last new : Option String} {call : NodeCall} {a : NodeAnswer}

/-! ### Opening -/

theorem keptByOpening_shares : KeptByOpening c Tables.SparesSeeds
    (Host.FileHas c.secretPath fun tables => tables.seeds = some (Table.ofSeed last)) where
  toKeptByStore := by
    apply Host.keptByStore_fileHas
    rintro old new (hsame | ⟨hnone, -⟩) hold
    · exact hsame.trans hold
    · simp [hnone] at hold
  allows := allows_sparesSeeds
  folders := by
    rintro h files hmade ⟨tables, hold, hseeds⟩
    exact ⟨tables, hold.made hmade, hseeds⟩

/-- A node that is opened again shares the same table. -/
theorem Shares.opened (hs : Shares c last s) (hshared : c.storeFile = c.secretPath)
    (hopen : exec (Node.open c) s.host = (.ok node, h')) : Shares c last ⟨node, h'⟩ := by
  have htable := (keeps_open keptByOpening_shares).after hs.table hopen
  rcases open_steps hopen with ⟨⟨store, secret, rfl, hstore, hsecret⟩, -⟩
  exact ⟨by rw [hstore, ← hshared], hsecret, htable⟩

/-! ### Calls -/

/-- An operation of the relational store runs on the shared table. -/
theorem Shares.onStore (hs : Shares c last s) (op : StoreM α) :
    ∃ u : StoreState, u.outages = s.node.store.outages ∧
      u.tables.seeds = some (Table.ofSeed last) ∧
      (exec (Node.onStore op) s).1 = (exec op u).1 ∧
      ∀ new, (exec op u).2.tables.seeds = some (Table.ofSeed new) →
        Shares c new (exec (Node.onStore op) s).2 := by
  rcases hs.table with ⟨tables, hold, hseeds⟩
  rw [← hs.store] at hold
  rcases StoreHandle.exec_run hold op with ⟨h', hrun, -, hold'⟩
  refine ⟨⟨tables, s.node.store.cache, s.node.store.outages, []⟩, rfl, hseeds, ?_, ?_⟩
  · rw [exec_onStore_eq, hrun]
  · intro new hnew
    rw [exec_onStore_eq, hrun]
    rw [hs.store] at hold'
    exact ⟨hs.store, hs.secret, _, hold', hnew⟩

/-- An operation of the secret store runs on the shared table. -/
theorem Shares.onSecret (hs : Shares c last s) (op : SecretStore → SecretM α) :
    ∃ u : SecretState, u.outage = none ∧ u.entropy = s.host.entropy ∧
      u.seeds = some (Table.ofSeed last) ∧
      (exec (Node.onSecret op) s).1 = (exec (op (s.node.secret.store s.host)) u).1 ∧
      ∀ new, (exec (op (s.node.secret.store s.host)) u).2.seeds = some (Table.ofSeed new) →
        Shares c new (exec (Node.onSecret op) s).2 := by
  rcases hs.table with ⟨tables, hold, hseeds⟩
  have hclosed : s.node.secret.closed = false := by rw [hs.secret]
  have hpath : s.node.secret.path = c.secretPath := by rw [hs.secret]
  rw [← hpath] at hold
  rcases SecretHandle.exec_run hclosed hold op with ⟨h', hrun, hold', -⟩
  refine ⟨{ seeds := tables.seeds, entropy := s.host.entropy }, rfl, rfl, hseeds, ?_, ?_⟩
  · rw [exec_onSecret, hrun]
  · intro new hnew
    rw [exec_onSecret, hrun]
    rw [hpath] at hold'
    exact ⟨hs.store, hs.secret, _, hold', hnew⟩

/-- A call of the relational store that succeeds. -/
theorem Shares.store_ok (hs : Shares c last s) {call : StoreCall} {answer : StoreAnswer}
    (h : exec (Node.onStore call.perform) s = (.ok answer, t)) :
    Shares c (((NodeCall.store call).written s (.store answer)).or last) t := by
  rcases hs.onStore call.perform with ⟨u, -, hseeds, hanswer, hshares⟩
  rcases hrun : exec call.perform u with ⟨r, u'⟩
  rw [h, hrun] at hanswer hshares
  obtain rfl : r = .ok answer := hanswer.symm
  apply hshares
  by_cases hcall : call.table? = some .seeds
  · cases call with
    | saveSeed sealedText =>
      rcases exec_map_ok.1 hrun with ⟨done, hsave, -⟩
      rcases Store.saveSeed_ok hseeds hsave with ⟨text, rfl, hnew⟩
      rw [hnew, Table.ofSeed_replace]
      rfl
    | _ => exact absurd hcall nofun
  · -- every other call leaves the seeds
    have hsame := ((Store.writesOnly_perform call).sameBut u).seeds hcall
    rw [hrun] at hsame
    have hnone : (NodeCall.store call).written s (.store answer) = none := by
      cases call with
      | saveSeed sealedText => exact absurd rfl hcall
      | _ => rfl
    rw [hnone, Option.none_or]
    exact hsame.trans hseeds

/-- A call of the relational store that fails. -/
theorem Shares.store_error (hs : Shares c last s) {call : StoreCall} {e : Failure}
    (h : exec (Node.onStore call.perform) s = (.error e, t)) : Shares c last t := by
  rcases hs.onStore call.perform with ⟨u, -, hseeds, hanswer, hshares⟩
  rcases hrun : exec call.perform u with ⟨r, u'⟩
  rw [h, hrun] at hanswer hshares
  obtain rfl : r = .error e := hanswer.symm
  have hsame := (Store.failsUnchanged_perform call u e u' hrun).2.1
  exact hshares last (by rw [hsame, hseeds])

/-- Looking at the table changes nothing. -/
theorem Shares.look (hs : Shares c last s) {op : SecretStore → SecretM α}
    (hlook : ∀ store u, (exec (op store) u).2.seeds = u.seeds) {r : Except Failure α}
    (hrun : exec (Node.onSecret op) s = (r, t)) : Shares c last t := by
  rcases hs.onSecret op with ⟨u, -, -, hseeds, -, hshares⟩
  rw [hrun] at hshares
  exact hshares last ((hlook _ u).trans hseeds)

/-- A phrase that is saved is written sealed. -/
theorem Shares.save_ok (hs : Shares c last s) {password phrase : RawText}
    (h : exec (Node.onSecret fun store => store.save password phrase) s = (.ok (), t)) :
    Shares c ((s.sealed password phrase).or last) t := by
  obtain ⟨u, houtage, hentropy, hseeds, hanswer, hshares⟩ :=
    hs.onSecret fun store => store.save password phrase
  rcases hrun : exec ((s.node.secret.store s.host).save password phrase) u with ⟨r, u'⟩
  rw [h, hrun] at hanswer hshares
  obtain rfl : r = .ok () := hanswer.symm
  rcases SecretStore.save_eq_of_ok houtage hseeds hrun with ⟨text, e, hseal, rfl⟩
  rw [hentropy] at hseal
  have hsealed : s.sealed password phrase = some text := by
    rw [NodeState.sealed]
    exact congrArg (fun r => Except.toOption r.1) hseal
  rw [hsealed]
  exact hshares (some text) (by rw [Table.ofSeed_putPhrase])

theorem Shares.save_error (hs : Shares c last s) {password phrase : RawText} {e : Failure}
    (h : exec (Node.onSecret fun store => store.save password phrase) s = (.error e, t)) :
    Shares c last t := by
  obtain ⟨u, -, -, hseeds, hanswer, hshares⟩ :=
    hs.onSecret fun store => store.save password phrase
  rcases hrun : exec ((s.node.secret.store s.host).save password phrase) u with ⟨r, u'⟩
  rw [h, hrun] at hanswer hshares
  obtain rfl : r = .error e := hanswer.symm
  exact hshares last ((SecretStore.save_error hrun).trans hseeds)

/-- A backup's phrase is written like one that is saved, or nothing is changed. -/
theorem Shares.restore (hs : Shares c last s) {folder : Path} {password : RawText}
    {r : Except Failure String} (h : exec (Node.restorePhrase folder password) s = (r, t)) :
    match r with
    | .ok phrase => Shares c ((s.sealed password phrase).or last) t
    | .error _ => Shares c last t := by
  rcases hs.table with ⟨tables, hold, hseeds⟩
  have hclosed : s.node.secret.closed = false := by rw [hs.secret]
  have hpath : s.node.secret.path = c.secretPath := by rw [hs.secret]
  rw [← hpath] at hold
  have hstep : exec (Node.restorePhrase folder password) s =
      ((exec (s.node.secret.restore folder password) s.host).1,
        { s with host := (exec (s.node.secret.restore folder password) s.host).2 }) := rfl
  rcases SecretHandle.exec_restore hclosed hold folder password with
    ⟨e, h', hrestore, hold', -⟩ | ⟨phrase, h', u, hrestore, hsave, hold', -⟩
  · rw [hrestore, h, Prod.mk.injEq] at hstep
    rcases hstep with ⟨rfl, rfl⟩
    exact ⟨hs.store, hs.secret, tables, hpath ▸ hold', hseeds⟩
  · rw [hrestore, h, Prod.mk.injEq] at hstep
    rcases hstep with ⟨rfl, rfl⟩
    rcases SecretStore.save_eq_of_ok rfl hseeds hsave with ⟨text, e, hseal, rfl⟩
    have hsealed : s.sealed password phrase = some text := by
      rw [NodeState.sealed]
      exact congrArg (fun r => Except.toOption r.1) hseal
    simp only [hsealed, Option.some_or]
    exact ⟨hs.store, hs.secret, _, hpath ▸ hold', by rw [Table.ofSeed_putPhrase]⟩

/-- A call that succeeds leaves what it has written, or what was there. -/
theorem Shares.accepted (hs : Shares c last s) (h : exec call.perform s = (.ok a, t)) :
    Shares c ((call.written s a).or last) t := by
  cases call with
  | store call =>
    rcases exec_map_ok.1 h with ⟨answer, hrun, rfl⟩
    exact hs.store_ok hrun
  | isInitialized =>
    rcases exec_map_ok.1 h with ⟨answer, hrun, rfl⟩
    exact hs.look (fun _ u => SecretStore.keeps_isInitialized (I := (·.seeds = u.seeds)) u rfl) hrun
  | checkUninitialized =>
    rcases exec_map_ok.1 h with ⟨answer, hrun, rfl⟩
    exact hs.look
      (fun _ u => SecretStore.keeps_checkUninitialized (I := (·.seeds = u.seeds)) u rfl) hrun
  | savePhrase password phrase =>
    rcases exec_map_ok.1 h with ⟨answer, hrun, rfl⟩
    exact hs.save_ok hrun
  | getPhrase password =>
    rcases exec_map_ok.1 h with ⟨answer, hrun, rfl⟩
    exact hs.look (fun _ u => SecretStore.keeps_getPhrase (I := (·.seeds = u.seeds)) u rfl) hrun
  | restorePhrase folder password =>
    rcases exec_map_ok.1 h with ⟨phrase, hrun, rfl⟩
    exact hs.restore hrun

/-- A call that fails leaves what was there. -/
theorem Shares.failed (hs : Shares c last s) {e : Failure}
    (h : exec call.perform s = (.error e, t)) : Shares c last t := by
  cases call with
  | store call => exact hs.store_error (exec_map_error.1 h)
  | isInitialized =>
    exact hs.look (fun _ u => SecretStore.keeps_isInitialized (I := (·.seeds = u.seeds)) u rfl)
      (exec_map_error.1 h)
  | checkUninitialized =>
    exact hs.look
      (fun _ u => SecretStore.keeps_checkUninitialized (I := (·.seeds = u.seeds)) u rfl)
      (exec_map_error.1 h)
  | savePhrase password phrase => exact hs.save_error (exec_map_error.1 h)
  | getPhrase password =>
    exact hs.look (fun _ u => SecretStore.keeps_getPhrase (I := (·.seeds = u.seeds)) u rfl)
      (exec_map_error.1 h)
  | restorePhrase folder password => exact hs.restore (exec_map_error.1 h)

/-! ## Runs -/

theorem Shares.other (hs : Shares c last s) (hpath : t.node.store.path = s.node.store.path)
    (hsecret : t.node.secret = s.node.secret)
    (hsame : t.host.databaseAt c.secretPath = s.host.databaseAt c.secretPath) :
    Shares c last t := by
  rcases hs.table with ⟨tables, hold, hseeds⟩
  rw [hold.databaseAt] at hsame
  refine ⟨hpath.trans hs.store, hsecret.trans hs.secret, tables,
    Host.holds_of_databaseAt hsame ?_, hseeds⟩
  rintro rfl
  exact absurd hseeds nofun

/-- What is read of the text that was written last, if there is one. -/
def readSeed {α : Type} (read : String → Except Failure α) : Option String → Except Failure α
  | some text => read text
  | none => .error .notInitialized

theorem Shares.hasSeed (hs : Shares c last s) (hworks : s.node.store.outages.transactions = none) :
    (exec (Node.onStore Store.hasSeed) s).1 = .ok last.isSome := by
  rcases hs.onStore Store.hasSeed with ⟨u, houtages, hseeds, hanswer, -⟩
  rw [hanswer, Store.exec_hasSeed (by rw [houtages, hworks]) hseeds]
  cases last <;> rfl

theorem Shares.loadSeed (hs : Shares c last s)
    (hworks : s.node.store.outages.transactions = none) :
    (exec (Node.onStore Store.loadSeed) s).1 =
      readSeed (fun text => .ok (.text text)) last := by
  rcases hs.onStore Store.loadSeed with ⟨u, houtages, hseeds, hanswer, -⟩
  rw [hanswer, Store.exec_loadSeed (by rw [houtages, hworks]) hseeds]
  cases last <;> rfl

theorem Shares.isInitialized (hs : Shares c last s) :
    (exec (Node.onSecret fun _ => SecretStore.isInitialized) s).1 = .ok last.isSome := by
  rcases hs.onSecret (fun _ => SecretStore.isInitialized) with
    ⟨u, houtage, -, hseeds, hanswer, -⟩
  rw [hanswer, SecretStore.exec_isInitialized_eq houtage hseeds, Table.withId?_ofSeed,
    Option.isSome_map]

theorem Shares.get (hs : Shares c last s) (password : RawText) :
    (exec (Node.onSecret fun store => store.get password) s).1 =
      readSeed (fun text => (s.node.secret.store s.host).vault.openPhrase password text) last := by
  rcases hs.onSecret (fun store => store.get password) with
    ⟨u, houtage, -, hseeds, hanswer, -⟩
  rw [hanswer, SecretStore.exec_get_eq _ _ houtage hseeds, Table.withId?_ofSeed]
  cases last <;> rfl

end Node

end NodeStore
