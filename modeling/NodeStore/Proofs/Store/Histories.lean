import NodeStore.Proofs.Store.Calls

/-! # Histories of a store

A relational store is open on its host, and nobody else writes to its file. Calls are made on it,
and some of them fail; the store is closed, and opened again; the engine breaks and recovers; and
everything on the host but the file may change. `Leads p calls q` says that this leads from `p` to
`q`, and that `calls` are those that succeeded, in their order.

* `run_of_exec_same`: an operation that leaves the state as it was;
* `Step.holds`: what one step does to the tables;
* `KeptByCalls.leads`: what every call that succeeds keeps, holds after all of them. -/

namespace NodeStore

open Op

/-- A store that is open on a host keeps tables that are there, and makes those that are missing. -/
theorem StoreHandle.holds_open {path : Path} {h h' : Host} {handle : StoreHandle} {tables : Tables}
    (hold : h.Holds (fileOf path) tables)
    (hopen : exec (StoreHandle.open path) h = (.ok handle, h')) :
    h'.Holds (fileOf path) tables.createMissing := by
  unfold StoreHandle.open at hopen
  rcases exec_bind_ok.1 hopen with ⟨_, h₁, hsay, hmakes⟩
  rcases exec_bind_ok.1 hmakes with ⟨_, h₂, hmade, hreads⟩
  have hold₁ : h₁.Holds (fileOf path) tables := by
    rw [Host.exec_say, Prod.mk.injEq] at hsay
    rw [← hsay.2]
    exact hold.emit _
  have hold₂ : h₂.Holds (fileOf path) tables := by
    rcases Host.exec_makeParent path h₁ with ⟨files, hfolders, hparent⟩
    rw [hmade] at hparent
    obtain rfl : h₂ = _ := hparent
    exact hold₁.made hfolders
  rw [exec_get_bind, hold₂.databaseAt] at hreads
  simp only [exec_modify_bind] at hreads
  rcases exec_bind_ok.1 hreads with ⟨_, h₃, hready, hends⟩
  rw [Host.exec_say, Prod.mk.injEq] at hready
  have hend : h₃ = h' := congrArg Prod.snd hends
  rw [← hend, ← hready.2]
  exact (Host.holds_putTables hold₂.databaseAt tables.createMissing).emit _

/-- A relational store that is open, and its host. -/
structure OpenStore where
  handle : StoreHandle
  host : Host

namespace OpenStore

variable {α : Type} {p q : OpenStore} {op : StoreM α} {tables : Tables} {calls : List StoreCall}

/-- The file of the store is a database with the given tables. -/
def Holds (p : OpenStore) (tables : Tables) : Prop :=
  p.host.Holds p.handle.path tables

/-- Runs an operation: its answer, and the store and its host afterwards. -/
def run (p : OpenStore) (op : StoreM α) : Except Failure α × OpenStore :=
  ((p.handle.run op p.host).1, ⟨(p.handle.run op p.host).2.1, (p.handle.run op p.host).2.2⟩)

/-- The state in which operations start on tables. -/
def stateOn (p : OpenStore) (tables : Tables) : StoreState :=
  ⟨tables, p.handle.cache, p.handle.outages, []⟩

/-! ## Operations -/

/-- An operation runs on the tables of the file, and leaves a file with the tables that it left. -/
theorem exec_run (hold : p.Holds tables) (op : StoreM α) :
    (p.run op).1 = (exec op (p.stateOn tables)).1 ∧
      (p.run op).2.Holds (exec op (p.stateOn tables)).2.tables := by
  rcases StoreHandle.exec_run hold op with ⟨h', hrun, -, hold'⟩
  unfold run
  rw [hrun]
  exact ⟨rfl, hold'⟩

/-- An operation that leaves the state as it was leaves the store and its host as they were. -/
theorem run_of_exec_same {r : Except Failure α} (hold : p.Holds tables)
    (hsame : exec op (p.stateOn tables) = (r, p.stateOn tables)) : p.run op = (r, p) := by
  have hstart : p.handle.start p.host = p.stateOn tables := StoreHandle.start_eq hold
  have hback : p.handle.writeBack (p.handle.start p.host).tables p.host = p.host :=
    StoreHandle.writeBack_start
  rw [hstart] at hback
  unfold run
  rw [StoreHandle.run_eq, hstart, hsame]
  simp only [hback]
  rfl

/-! ## Histories -/

/-- What may happen to a store while nobody else writes to its file, with the call that succeeded,
if one did. -/
inductive Step (p : OpenStore) : List StoreCall → OpenStore → Prop where
  | accepted {q : OpenStore} {a : StoreAnswer} (call : StoreCall) :
      p.run call.perform = (.ok a, q) → Step p [call] q
  | failed {q : OpenStore} {e : Failure} (call : StoreCall) :
      p.run call.perform = (.error e, q) → Step p [] q
  | closed : Step p [] (p.run Store.close).2
  | reopened {path : Path} {handle : StoreHandle} {h : Host} :
      exec (StoreHandle.open path) p.host = (.ok handle, h) → handle.path = p.handle.path →
      Step p [] ⟨handle, h⟩
  | outage (outages : Outages) : Step p [] { p with handle := { p.handle with outages } }
  | meanwhile {h : Host} :
      (∀ tables, p.Holds tables → h.Holds p.handle.path tables) → Step p [] { p with host := h }

/-- Steps that lead from one store to another, with the calls that succeeded, in their order. -/
inductive Leads (p : OpenStore) : List StoreCall → OpenStore → Prop where
  | nothing : Leads p [] p
  | step {calls new : List StoreCall} {q r : OpenStore} :
      Leads p calls q → Step q new r → Leads p (calls ++ new) r

theorem Leads.accepted {a : StoreAnswer} {r : OpenStore} (h : Leads p calls q) {call : StoreCall}
    (hrun : q.run call.perform = (.ok a, r)) : Leads p (calls ++ [call]) r :=
  h.step (.accepted call hrun)

/-- All that a step does to the tables: they stay, or those that are missing are made, or they are
what a call that succeeded left. -/
theorem Step.holds {new : List StoreCall} (h : Step p new q) (hold : p.Holds tables) :
    ∃ tables', q.Holds tables' ∧
      (new = [] ∧ (tables' = tables ∨ tables' = tables.createMissing) ∨
        ∃ call a s, new = [call] ∧ exec (StoreCall.perform call) (p.stateOn tables) = (.ok a, s) ∧
          tables' = s.tables) := by
  cases h with
  | @accepted _ a call hrun =>
    rcases exec_run hold call.perform with ⟨hanswer, hold'⟩
    rcases hexec : exec call.perform (p.stateOn tables) with ⟨r, s⟩
    rw [hrun, hexec] at hanswer hold'
    obtain rfl : .ok a = r := hanswer
    exact ⟨s.tables, hold', Or.inr ⟨call, a, s, rfl, hexec, rfl⟩⟩
  | @failed _ e call hrun =>
    -- a call that fails leaves the tables as they were
    rcases exec_run hold call.perform with ⟨hanswer, hold'⟩
    rcases hexec : exec call.perform (p.stateOn tables) with ⟨r, s⟩
    rw [hrun, hexec] at hanswer hold'
    obtain rfl : .error e = r := hanswer
    have hsame := (Store.failsUnchanged_perform call _ e s hexec).2.1
    exact ⟨s.tables, hold', Or.inl ⟨rfl, Or.inl hsame⟩⟩
  | closed => exact ⟨tables, (exec_run hold Store.close).2, Or.inl ⟨rfl, Or.inl rfl⟩⟩
  | @reopened path handle h hopen hpath =>
    -- the store that was opened is on the same file
    have hfile : p.handle.path = StoreHandle.fileOf path := by
      rw [← hpath, (StoreHandle.open_ok hopen).1]
    have hold' := StoreHandle.holds_open (hfile ▸ hold : p.host.Holds _ tables) hopen
    refine ⟨tables.createMissing, ?_, Or.inl ⟨rfl, Or.inr rfl⟩⟩
    rw [Holds, hpath, hfile]
    exact hold'
  | outage outages => exact ⟨tables, hold, Or.inl ⟨rfl, Or.inl rfl⟩⟩
  | meanwhile hkeeps => exact ⟨tables, hkeeps tables hold, Or.inl ⟨rfl, Or.inl rfl⟩⟩

/-- A property of the tables after some calls. Every call that succeeds keeps it, and so does making
the tables that are missing. -/
structure KeptByCalls (I : List StoreCall → Tables → Prop) : Prop where
  accepted : ∀ calls call s a s', I calls s.tables → exec (StoreCall.perform call) s = (.ok a, s') →
    I (calls ++ [call]) s'.tables
  createMissing : ∀ calls tables, I calls tables → I calls tables.createMissing

variable {I : List StoreCall → Tables → Prop}

theorem KeptByCalls.step (hI : KeptByCalls I) {new : List StoreCall} (h : Step p new q)
    (hold : p.Holds tables) (htables : I calls tables) :
    ∃ tables', q.Holds tables' ∧ I (calls ++ new) tables' := by
  rcases h.holds hold with ⟨tables', hold', ⟨rfl, hsame⟩ | ⟨call, a, s, rfl, hexec, rfl⟩⟩
  · -- no call succeeded, and at most the missing tables were made
    refine ⟨tables', hold', ?_⟩
    rw [List.append_nil]
    rcases hsame with rfl | rfl
    · exact htables
    · exact hI.createMissing calls tables htables
  · exact ⟨s.tables, hold', hI.accepted calls call _ a s htables hexec⟩

/-- What the calls keep holds at the end of a history if it holds at its beginning. -/
theorem KeptByCalls.leads (hI : KeptByCalls I) {later : List StoreCall} (h : Leads p later q)
    (hold : p.Holds tables) (htables : I calls tables) :
    ∃ tables', q.Holds tables' ∧ I (calls ++ later) tables' := by
  induction h with
  | nothing => exact ⟨tables, hold, by rwa [List.append_nil]⟩
  | step _ hstep ih =>
    rcases ih with ⟨tables', hold', htables'⟩
    rw [← List.append_assoc]
    exact hI.step hstep hold' htables'

/-- A store on a machine with a database whose tables are all empty. -/
def fresh : OpenStore where
  handle := ⟨Path.ofString "/node.db", {}, {}⟩
  host := { Host.bare with files := ⟨[(["node.db"], .database (Tables.createMissing {}))]⟩ }

theorem holds_fresh : fresh.Holds (Tables.createMissing {}) := ⟨rfl, rfl⟩

end OpenStore

end NodeStore
