import NodeStore.Proofs.Host
import NodeStore.Store.Handle

/-! # Operations on an open relational store

While the file of a handle is a database, an operation runs on the tables in it, and leaves a
database with the tables that it left.

* `open_ok`: a store that was opened;
* `start_eq`: the state in which an operation starts;
* `exec_run`: the operation. -/

namespace NodeStore

open Op

namespace StoreHandle

variable {handle : StoreHandle} {h : Host}

/-- A store that was opened knows nothing, and has its tables. -/
theorem open_ok {path : Path} {h' : Host}
    (hopen : exec (StoreHandle.open path) h = (.ok handle, h')) :
    handle = { path := fileOf path } ∧
      ∃ tables : Tables, h'.Holds (fileOf path) tables.createMissing := by
  unfold StoreHandle.open at hopen
  rcases exec_bind_ok.1 hopen with ⟨_, h₁, -, hopen⟩
  rcases exec_bind_ok.1 hopen with ⟨_, h₂, -, hopen⟩
  rw [exec_get_bind] at hopen
  cases hdb : h₂.databaseAt (fileOf path) with
  | error fault => simp [hdb] at hopen
  | ok found =>
    rcases found with ⟨place, tables⟩
    simp only [hdb, exec_modify_bind] at hopen
    rcases exec_bind_ok.1 hopen with ⟨_, h₃, hsay, hopen⟩
    obtain rfl : _ = h₃ := congrArg Prod.snd hsay
    simp only [exec_pure, Prod.mk.injEq, Except.ok.injEq] at hopen
    rcases hopen with ⟨rfl, rfl⟩
    exact ⟨rfl, tables, (Host.holds_putTables hdb tables.createMissing).emit _⟩

@[simp] theorem start_cache : (handle.start h).cache = handle.cache := by
  unfold start
  split <;> rfl

/-- Where there is a table, the file is a database. -/
theorem holds_of_table (htable : (handle.start h).tables.settings ≠ none) :
    h.Holds handle.path (handle.start h).tables := by
  unfold start at htable ⊢
  cases hdb : h.databaseAt handle.path with
  | error fault =>
    simp only [hdb] at htable
    exact absurd rfl htable
  | ok found =>
    rcases found with ⟨place, tables⟩
    simp only [hdb] at htable ⊢
    refine Host.holds_of_databaseAt hdb ?_
    rintro rfl
    exact htable rfl

/-- While its file is a database a store starts from the tables in it. -/
theorem start_eq {tables : Tables} (hold : h.Holds handle.path tables) :
    handle.start h = ⟨tables, handle.cache, handle.outages, []⟩ := by
  unfold start
  rw [hold.databaseAt]

/-- Tables that were not changed are not written. -/
theorem writeBack_start : handle.writeBack (handle.start h).tables h = h := by
  unfold writeBack start
  cases hdb : h.databaseAt handle.path with
  | error fault => rfl
  | ok found => exact if_pos rfl

theorem run_eq {α : Type} (op : StoreM α) :
    handle.run op h =
      ((exec op (handle.start h)).1,
        { handle with
          cache := (exec op (handle.start h)).2.cache
          outages := { (exec op (handle.start h)).2.outages with
            transactions := handle.outages.transactions } },
        (handle.writeBack (exec op (handle.start h)).2.tables h).emitAll
          (exec op (handle.start h)).2.log) := rfl

/-- While its file is a database a store runs on the tables in it. -/
theorem exec_run {α : Type} {s : StoreHandle} {tables : Tables}
    (hold : h.Holds s.path tables) (op : StoreM α) :
    ∃ h', s.run op h =
        ((exec op ⟨tables, s.cache, s.outages, []⟩).1,
          { s with
            cache := (exec op ⟨tables, s.cache, s.outages, []⟩).2.cache
            outages := { (exec op ⟨tables, s.cache, s.outages, []⟩).2.outages with
              transactions := s.outages.transactions } }, h') ∧
      h'.workDir = h.workDir ∧
      h'.Holds s.path (exec op ⟨tables, s.cache, s.outages, []⟩).2.tables := by
  rw [run_eq, start_eq hold]
  generalize exec op ⟨tables, s.cache, s.outages, []⟩ = result
  rcases result with ⟨r, u⟩
  refine ⟨_, rfl, ?_, ?_⟩
  · rcases Host.emitAll_eq (s.writeBack u.tables h) u.log with ⟨files, log, heq, -⟩
    rw [heq]
    unfold StoreHandle.writeBack
    rw [hold.databaseAt]
    simp only
    split <;> rfl
  · refine Host.Holds.emitAll ?_ u.log
    -- the file is written only if the operation has changed its tables
    unfold StoreHandle.writeBack
    rw [hold.databaseAt]
    simp only
    split
    · rename_i hsame
      rw [hsame]
      exact hold
    · exact Host.holds_putTables hold.databaseAt u.tables

end StoreHandle

end NodeStore
