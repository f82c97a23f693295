import NodeStore.Proofs.Alike
import NodeStore.Proofs.Node.Invariants
import NodeStore.Proofs.Store.Calls

/-! # Loads and saves of a node, and the rows of its file

What one load or save of a node does to what it knows and to the rows in the file of its store. The
rows are those that an engine finds there, whatever else stands on the host; logging changes none
of them.

* `Node.saveSetting_ok`, `Node.loadSetting_ok`: a call that succeeds;
* `Node.exec_failed`: a call that fails;
* `Node.answers_iff`: what a load answers with, before it is made. -/

namespace NodeStore

open Op

/-! ## Rows -/

/-- What the table in a store's file holds for a setting. -/
def Host.rowAt (h : Host) (p : Path) (key : String) : Option Cell :=
  match h.databaseAt p with
  | .ok (_, tables) => tables.setting key
  | .error _ => none

namespace Host

variable {h : Host} {p : Path} {tables : Tables} {key : String}

theorem Holds.rowAt (hold : h.Holds p tables) (key : String) :
    h.rowAt p key = tables.setting key := by
  unfold Host.rowAt
  rw [hold.databaseAt]

/-- Rows are there only in a database. -/
theorem rowAt_eq_some {value : Cell} :
    h.rowAt p key = some value ↔ ∃ tables, h.Holds p tables ∧ tables.setting key = some value := by
  constructor
  · intro hvalue
    unfold Host.rowAt at hvalue
    cases hdb : h.databaseAt p with
    | error fault => simp [hdb] at hvalue
    | ok found =>
      rcases found with ⟨place, tables⟩
      simp only [hdb] at hvalue
      refine ⟨tables, holds_of_databaseAt hdb ?_, hvalue⟩
      rintro rfl
      simp [Tables.setting] at hvalue
  · rintro ⟨tables, hold, hvalue⟩
    rw [hold.rowAt, hvalue]

/-- Logging changes no row. -/
theorem rowAt_emitAll (h : Host) (ls : List LogLine) (p : Path) (key : String) :
    (h.emitAll ls).rowAt p key = h.rowAt p key := by
  apply Option.ext
  intro value
  rw [rowAt_eq_some, rowAt_eq_some]
  simp only [holds_emitAll_iff]

end Host

/-! ## One step of a node -/

namespace StoreHandle

variable {handle : StoreHandle} {h : Host}

/-- A row can be read where the file is a database with a table of settings and nothing is out. -/
theorem readable_start_iff {key : String} {value : Option Cell} :
    Store.Readable (handle.start h) ∧ (handle.start h).setting key = value ↔
      handle.outages.reads = none ∧ handle.outages.transactions = none ∧
        ∃ tables, h.Holds handle.path tables ∧ tables.settings ≠ none ∧
          tables.setting key = value := by
  constructor
  · rintro ⟨⟨hreads, hworks, htable⟩, hrow⟩
    have hold := holds_of_table htable
    rw [start_eq hold] at hreads hworks
    exact ⟨hreads, hworks, _, hold, htable, hrow⟩
  · rintro ⟨hreads, hworks, tables, hold, htable, hrow⟩
    rw [start_eq hold]
    exact ⟨⟨hreads, hworks, htable⟩, hrow⟩

end StoreHandle

namespace Node

variable {s t : NodeState} {key : String}

/-- An operation that changes nothing if it fails changes no cache and no row then. -/
theorem exec_failed {α : Type} {op : StoreM α} (hop : Store.FailsUnchanged op) {e : Failure}
    (hrun : exec (onStore op) s = (.error e, t)) :
    t.node.store.path = s.node.store.path ∧ t.node.store.cache = s.node.store.cache ∧
      ∀ p key, t.host.rowAt p key = s.host.rowAt p key := by
  rcases hresult : s.node.store.run op s.host with ⟨r, handle, h⟩
  rw [exec_onStore_eq, hresult, Prod.mk.injEq] at hrun
  rcases hrun with ⟨rfl, rfl⟩
  rcases StoreHandle.run_failed hop hresult with ⟨-, hpath, hcache, lines, rfl⟩
  exact ⟨hpath, hcache, fun p key => Host.rowAt_emitAll _ _ p key⟩

/-- A save that succeeds is known, and is the row right after it. -/
theorem saveSetting_ok {value : Option String}
    (hrun : exec (onStore (Store.saveSetting key value)) s = (.ok (), t)) :
    t.node.store.path = s.node.store.path ∧
      t.node.store.cache = s.node.store.cache.store key (value.map .text) ∧
      t.host.rowAt s.node.store.path key = value.map .text := by
  rcases hexec : exec (Store.saveSetting key value) (s.node.store.start s.host) with ⟨r, u⟩
  have hresult : (s.node.store.run (Store.saveSetting key value) s.host).1 = r :=
    congrArg Prod.fst hexec
  rw [exec_onStore_eq, Prod.mk.injEq, hresult] at hrun
  rcases hrun with ⟨rfl, rfl⟩
  rcases Store.saveSetting_ok hexec with ⟨htable, hcache, hrow⟩
  have hold := StoreHandle.holds_of_table htable
  have hstart := StoreHandle.start_eq hold
  rcases StoreHandle.exec_run hold (Store.saveSetting key value) with ⟨h', hrun', -, hold'⟩
  rw [← hstart, hexec] at hrun' hold'
  rw [hrun']
  refine ⟨rfl, ?_, ?_⟩
  · rw [StoreHandle.start_cache] at hcache
    exact hcache
  · rw [hold'.rowAt]
    exact hrow

/-- A load that succeeds answers with what was known; if nothing was, it answers with the row, which
is known then. -/
theorem loadSetting_ok {value : Option Cell}
    (hrun : exec (onStore (Store.loadSetting key)) s = (.ok value, t)) :
    t.node.store.path = s.node.store.path ∧
      (s.node.store.cache.lookup key = some value ∧
          t.node.store.cache = s.node.store.cache ∨
        s.node.store.cache.lookup key = none ∧
          t.node.store.cache = s.node.store.cache.store key value ∧
          t.host.rowAt s.node.store.path key = value) := by
  rcases hexec : exec (Store.loadSetting key) (s.node.store.start s.host) with ⟨r, u⟩
  have hresult : (s.node.store.run (Store.loadSetting key) s.host).1 = r :=
    congrArg Prod.fst hexec
  rw [exec_onStore_eq, Prod.mk.injEq, hresult] at hrun
  rcases hrun with ⟨rfl, rfl⟩
  cases hlookup : s.node.store.cache.lookup key with
  | some known =>
    have hknown : (s.node.store.start s.host).known key = some known := by
      rw [StoreState.known, StoreHandle.start_cache, hlookup]
    have hhit := hexec
    rw [Store.exec_loadSetting_hit hknown, Prod.mk.injEq, Except.ok.injEq] at hhit
    rcases hhit with ⟨rfl, hu⟩
    refine ⟨rfl, Or.inl ⟨rfl, ?_⟩⟩
    have hcache : u.cache = s.node.store.cache := by
      rw [← hu, StoreHandle.start_cache]
    exact (congrArg (fun x => x.2.cache) hexec).trans hcache
  | none =>
    have hmissed : (s.node.store.start s.host).known key = none := by
      rw [StoreState.known, StoreHandle.start_cache, hlookup]
    have hmiss := hexec
    rw [Store.exec_loadSetting_miss hmissed] at hmiss
    rcases exec_bind_ok.1 hmiss with ⟨read, v, hread, henter⟩
    have htable := (Store.readable_of_readMissed hread).2.2
    rcases Store.readMissed_ok hread with ⟨hrow, htables, hcache⟩
    have hnone : v.cache.lookup key = none := by
      rw [hcache, StoreHandle.start_cache, hlookup]
    rw [Store.exec_enterReadSetting, StoreState.known, hnone, Option.getD_none, Prod.mk.injEq,
      Except.ok.injEq] at henter
    rcases henter with ⟨rfl, hu⟩
    have hold := StoreHandle.holds_of_table htable
    have hstart := StoreHandle.start_eq hold
    rcases StoreHandle.exec_run hold (Store.loadSetting key) with ⟨h', hrun', -, hold'⟩
    rw [← hstart, hexec] at hrun' hold'
    rw [hrun']
    refine ⟨rfl, Or.inr ⟨rfl, ?_, ?_⟩⟩
    · have hstored : u.cache = v.cache.store key read := by
        rw [← hu]
        unfold ConfigCache.storeIfAbsent
        rw [hnone]
      rw [hstored, hcache, StoreHandle.start_cache]
    · rw [hold'.rowAt, ← hu, hrow]
      exact congrArg (Tables.setting · key) htables

/-- What a load would answer with. -/
def Answers (s : NodeState) (key : String) (value : Option Cell) : Prop :=
  (exec (onStore (Store.loadSetting key)) s).1 = .ok value

theorem answers_iff {value : Option Cell} :
    Answers s key value ↔
      s.node.store.cache.lookup key = some value ∨
        s.node.store.cache.lookup key = none ∧ s.node.store.outages.reads = none ∧
          s.node.store.outages.transactions = none ∧
          ∃ tables, s.host.Holds s.node.store.path tables ∧ tables.settings ≠ none ∧
            tables.setting key = value := by
  have hrun : (exec (onStore (Store.loadSetting key)) s).1 =
      (exec (Store.loadSetting key) (s.node.store.start s.host)).1 := rfl
  rw [Answers, hrun, Store.loadSetting_answers_iff, StoreHandle.readable_start_iff,
    StoreState.known, StoreHandle.start_cache]

/-- After a call that failed, this node and any other one would answer as before. -/
theorem answers_of_failed {α : Type} {op : StoreM α} (hop : Store.FailsUnchanged op)
    (hreads : ∀ reads, Keeps (fun u : StoreState => u.outages.reads = reads) op) {e : Failure}
    (hrun : exec (onStore op) s = (.error e, t)) (value : Option Cell) :
    (Answers t key value ↔ Answers s key value) ∧
      ∀ other, Answers ⟨other, t.host⟩ key value ↔ Answers ⟨other, s.host⟩ key value := by
  rcases hresult : s.node.store.run op s.host with ⟨r, handle, h⟩
  have hout : handle.outages.reads = s.node.store.outages.reads ∧
      handle.outages.transactions = s.node.store.outages.transactions := by
    have hhandle : handle = (s.node.store.run op s.host).2.1 := by rw [hresult]
    have hstart : (s.node.store.start s.host).outages.reads = s.node.store.outages.reads := by
      unfold StoreHandle.start
      split <;> rfl
    rw [hhandle]
    exact ⟨hreads _ _ hstart, rfl⟩
  rw [exec_onStore_eq, hresult, Prod.mk.injEq] at hrun
  rcases hrun with ⟨rfl, rfl⟩
  rcases StoreHandle.run_failed hop hresult with ⟨-, hpath, hcache, lines, rfl⟩
  constructor
  · simp only [answers_iff, hpath, hcache, hout.1, hout.2, Host.holds_emitAll_iff]
  · intro other
    simp only [answers_iff, Host.holds_emitAll_iff]

theorem exec_close (s : NodeState) : (exec (onStore Store.close) s).1 = .ok () ∧
    (exec (onStore Store.close) s).2.node.store.path = s.node.store.path ∧
    (exec (onStore Store.close) s).2.node.store.cache = {} := ⟨rfl, rfl, rfl⟩

end Node

end NodeStore
