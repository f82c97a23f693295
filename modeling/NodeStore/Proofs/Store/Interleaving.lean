import NodeStore.Proofs.Store.Settings

/-! # Interleaved calls

Any number of loads and saves of settings may be under way on one store. Between its steps a call
rests, and steps of other calls may come in between; the steps themselves are those that
`Store.loadSetting` and `Store.saveSetting` are made of. A save takes its two steps, the commit and
the entry into the cache, while it has the turn, which one save has at a time. The engine may
break and recover at any moment, so that every step that asks it may fail.

* `advance_load_alone`, `advance_save_alone`: a call that nobody comes in between does what
  `Store.loadSetting` and `Store.saveSetting` do.
-/

namespace NodeStore.Interleaving

open Op

/-- How far a call has come. -/
inductive Stage where
  | unborn
  /-- A load that has not looked into the cache. -/
  | asking (key : String)
  /-- A load that found nothing in the cache. -/
  | missed (key : String)
  /-- A load that has read the table. -/
  | fetched (key : String) (value : Option Cell)
  /-- A load that has returned. -/
  | loaded (key : String) (value : Option Cell)
  /-- A save that waits for its turn. -/
  | waiting (key : String) (value : Option String)
  /-- A save that has the turn. -/
  | writing (key : String) (value : Option String)
  /-- A save that has the turn and has committed. -/
  | committed (key : String) (value : Option String)
  /-- A save that has returned. -/
  | saved (key : String) (value : Option String)
  | failed (failure : Failure)
deriving DecidableEq

namespace Stage

/-- The call has begun and has not ended. -/
def InFlight : Stage → Prop
  | asking _ | missed _ | fetched _ _ | waiting _ _ | writing _ _ | committed _ _ => True
  | unborn | loaded _ _ | saved _ _ | failed _ => False

/-- The call is a save of a key and has not ended. -/
def Saves (key : String) : Stage → Prop
  | waiting k _ | writing k _ | committed k _ => k = key
  | _ => False

/-- The call has the turn. -/
def HasTurn : Stage → Prop
  | writing _ _ | committed _ _ => True
  | _ => False

end Stage

/-- A store, and the calls on it by their numbers. -/
structure Pool where
  store : StoreState
  /-- The save that has the turn. -/
  turn : Option Nat := none
  stage : Nat → Stage := fun _ => .unborn

/-- A change to the calls or to the engine. -/
inductive Move where
  | load (i : Nat) (key : String)
  | save (i : Nat) (key : String) (value : Option String)
  /-- A call takes its next step, if it has one and may take it. -/
  | advance (i : Nat)
  /-- The engine breaks or recovers. -/
  | outage (outages : Outages)

namespace Pool

/-- Puts a call at a stage. -/
def put (p : Pool) (i : Nat) (stage : Stage) : Pool :=
  { p with stage := fun j => if j = i then stage else p.stage j }

/-- A call carries out an operation of the store: it goes on to a stage, or fails. -/
def perform {α : Type} (p : Pool) (i : Nat) (op : StoreM α) (next : α → Stage) : Pool :=
  match exec op p.store with
  | (.ok a, store) => { p with store }.put i (next a)
  | (.error e, store) => { p with store }.put i (.failed e)

/-- A load that looked into the cache. -/
def afterLook (key : String) : Option (Option Cell) → Stage
  | some known => .loaded key known
  | none => .missed key

/-- A call takes its next step. -/
def advance (p : Pool) (i : Nat) : Pool :=
  match p.stage i with
  | .asking key => p.perform i (Store.cachedSetting key) (afterLook key)
  | .missed key => p.perform i (Store.readMissed key) (.fetched key)
  | .fetched key value => p.perform i (Store.enterReadSetting key value) (.loaded key)
  | .waiting key value =>
    if p.turn = none then { p with turn := some i }.put i (.writing key value) else p
  | .writing key value =>
    match exec (Store.commitSetting key value) p.store with
    | (.ok (), store) => { p with store }.put i (.committed key value)
    | (.error e, store) => { p with store, turn := none }.put i (.failed e)
  | .committed key value =>
    { p with turn := none }.perform i (Store.enterSetting key (value.map .text))
      fun _ => .saved key value
  | .unborn | .loaded .. | .saved .. | .failed _ => p

/-- One move. A number is given to one call only. -/
def step (p : Pool) : Move → Pool
  | .load i key => if p.stage i = .unborn then p.put i (.asking key) else p
  | .save i key value =>
    if p.stage i = .unborn then p.perform i (Store.announce key value) fun _ => .waiting key value
    else p
  | .advance i => p.advance i
  | .outage outages => { p with store := { p.store with outages } }

/-- Moves in order. -/
def run (p : Pool) (moves : List Move) : Pool :=
  moves.foldl step p

/-- A store that has just been opened: nothing is cached and no call is under way. -/
def opened (tables : Tables) (outages : Outages) : Pool where
  store := { tables, outages }

@[simp] theorem put_stage_self (p : Pool) (i : Nat) (s : Stage) : (p.put i s).stage i = s := by
  simp [put]

theorem put_stage_ne (p : Pool) {i j : Nat} (s : Stage) (h : j ≠ i) :
    (p.put i s).stage j = p.stage j := by
  simp [put, h]

/-- A stage after a change is the new one, or one that was there before. -/
theorem put_stage_cases {p : Pool} {i j : Nat} {s t : Stage} (h : (p.put i s).stage j = t) :
    (j = i ∧ s = t) ∨ (j ≠ i ∧ p.stage j = t) := by
  by_cases hji : j = i
  · subst hji
    rw [put_stage_self] at h
    exact Or.inl ⟨rfl, h⟩
  · rw [put_stage_ne _ _ hji] at h
    exact Or.inr ⟨hji, h⟩

/-- Whoever has the turn after a change is the changed call, or had it before. -/
theorem put_hasTurn {p : Pool} {i j : Nat} {s : Stage} (h : ((p.put i s).stage j).HasTurn) :
    (j = i ∧ s.HasTurn) ∨ (j ≠ i ∧ (p.stage j).HasTurn) := by
  rcases put_stage_cases (t := (p.put i s).stage j) rfl with ⟨hj, hs⟩ | ⟨hj, hs⟩
  · exact Or.inl ⟨hj, hs ▸ h⟩
  · exact Or.inr ⟨hj, hs ▸ h⟩

@[simp] theorem put_store (p : Pool) (i : Nat) (s : Stage) : (p.put i s).store = p.store := rfl

@[simp] theorem put_turn (p : Pool) (i : Nat) (s : Stage) : (p.put i s).turn = p.turn := rfl

@[simp] theorem run_nil (p : Pool) : p.run [] = p := rfl

@[simp] theorem run_cons (p : Pool) (m : Move) (ms : List Move) :
    p.run (m :: ms) = (p.step m).run ms := rfl

theorem run_append (p : Pool) (ms ns : List Move) : p.run (ms ++ ns) = (p.run ms).run ns := by
  simp [run, List.foldl_append]

/-! ## The steps of a call -/

section Steps

variable {p : Pool} {i : Nat} {key : String}

theorem advance_asking (h : p.stage i = .asking key) :
    p.advance i = p.put i (afterLook key (p.store.known key)) := by
  simp only [advance, h, perform, Store.exec_cachedSetting]

theorem advance_missed (h : p.stage i = .missed key) :
    p.advance i = p.perform i (Store.readMissed key) (.fetched key) := by
  simp only [advance, h]

theorem advance_fetched {value : Option Cell} (h : p.stage i = .fetched key value) :
    p.advance i =
      { p with store := { p.store with cache := (p.store.cache.storeIfAbsent key value).2 } }.put i
        (.loaded key ((p.store.known key).getD value)) := by
  simp only [advance, h, perform, Store.exec_enterReadSetting]

theorem advance_waiting {value : Option String} (h : p.stage i = .waiting key value) :
    p.advance i =
      if p.turn = none then { p with turn := some i }.put i (.writing key value) else p := by
  simp only [advance, h]

theorem advance_writing {value : Option String} (h : p.stage i = .writing key value) :
    p.advance i =
      match exec (Store.commitSetting key value) p.store with
      | (.ok (), store) => { p with store }.put i (.committed key value)
      | (.error e, store) => { p with store, turn := none }.put i (.failed e) := by
  simp only [advance, h]

theorem advance_committed {value : Option String} (h : p.stage i = .committed key value) :
    p.advance i =
      { p with
        turn := none
        store := { p.store with
          cache := p.store.cache.store key (value.map .text) } }.put i (.saved key value) := by
  simp only [advance, h, perform, Store.exec_enterSetting]

/-- A call that has ended, or has not begun, takes no step. -/
theorem advance_of_not_inFlight (h : ¬ (p.stage i).InFlight) : p.advance i = p := by
  unfold advance
  cases hs : p.stage i <;> simp_all [Stage.InFlight]

theorem advance_put {s : Stage} (h : ¬ s.InFlight) : (p.put i s).advance i = p.put i s := by
  apply advance_of_not_inFlight
  rw [put_stage_self]
  exact h

end Steps

/-! ## Calls that are alone -/

/-- The stage of a load that ended with an answer. -/
def loadEnd (key : String) : Except Failure (Option Cell) → Stage
  | .ok value => .loaded key value
  | .error e => .failed e

/-- The stage of a save that ended with an answer. -/
def saveEnd (key : String) (value : Option String) : Except Failure Unit → Stage
  | .ok () => .saved key value
  | .error e => .failed e

/-- A load that nobody comes in between is a load of the store. -/
theorem advance_load_alone {p : Pool} {i : Nat} {key : String} (h : p.stage i = .asking key) :
    let q := p.run [.advance i, .advance i, .advance i]
    q.store = (exec (Store.loadSetting key) p.store).2 ∧
      q.stage i = loadEnd key (exec (Store.loadSetting key) p.store).1 := by
  simp only [run_cons, run_nil, step]
  cases hknown : p.store.known key with
  | some known =>
    -- the first step answers, and the call rests from then on
    have hfirst : p.advance i = p.put i (.loaded key known) := by
      rw [advance_asking h, hknown]
      rfl
    have hrest : (p.put i (.loaded key known)).advance i = p.put i (.loaded key known) :=
      advance_put (by simp [Stage.InFlight])
    rw [hfirst, hrest, hrest, Store.exec_loadSetting_hit hknown]
    exact ⟨rfl, put_stage_self ..⟩
  | none =>
    have hfirst : p.advance i = p.put i (.missed key) := by
      rw [advance_asking h, hknown]
      rfl
    -- the second step is the read, and only what was read is left to be entered
    rw [hfirst, advance_missed (put_stage_self ..), Store.exec_loadSetting_miss hknown, exec_bind]
    unfold perform
    rw [put_store]
    rcases exec (Store.readMissed key) p.store with ⟨r, t⟩
    cases r with
    | error e =>
      rw [advance_put (by simp [Stage.InFlight])]
      exact ⟨rfl, put_stage_self ..⟩
    | ok value =>
      simp only
      rw [advance_fetched (put_stage_self ..)]
      simp only [Store.exec_enterReadSetting]
      exact ⟨rfl, put_stage_self ..⟩

/-- A save that nobody comes in between is a save of the store. -/
theorem advance_save_alone {p : Pool} {i : Nat} {key : String} {value : Option String}
    (h : p.stage i = .unborn) (hturn : p.turn = none) :
    let q := p.run [.save i key value, .advance i, .advance i, .advance i]
    q.store = (exec (Store.saveSetting key value) p.store).2 ∧
      q.stage i = saveEnd key value (exec (Store.saveSetting key value) p.store).1 := by
  simp only [run_cons, run_nil, step, if_pos h]
  rw [Store.exec_saveSetting, exec_bind]
  unfold perform
  rcases exec (Store.announce key value) p.store with ⟨r, t⟩
  cases r with
  | error e =>
    have hrest : ({ p with store := t }.put i (.failed e)).advance i =
        { p with store := t }.put i (.failed e) := advance_put (by simp [Stage.InFlight])
    simp only [hrest]
    exact ⟨rfl, put_stage_self ..⟩
  | ok u =>
    simp only
    -- nobody has the turn, so that the save takes it at once
    rw [advance_waiting (put_stage_self ..), put_turn, if_pos hturn,
      advance_writing (put_stage_self ..), exec_bind, put_store, put_store]
    rcases exec (Store.commitSetting key value) t with ⟨r, t⟩
    cases r with
    | error e =>
      rw [advance_put (by simp [Stage.InFlight])]
      exact ⟨rfl, put_stage_self ..⟩
    | ok u =>
      simp only
      rw [advance_committed (put_stage_self ..)]
      exact ⟨rfl, put_stage_self ..⟩

end Pool

end NodeStore.Interleaving
