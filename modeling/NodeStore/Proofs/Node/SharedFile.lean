import NodeStore.Proofs.Node.Script
import NodeStore.Proofs.Node.SettingRows

/-! # What loads answer when several nodes share a file

Any number of nodes work on the file of one store, each with a cache of its own, and other programs
edit the file in between. A node's answer for a setting is then explained by the past: `filled` is
what the table held right after the node last saved the setting or, if it did not, right after it
first loaded it, both since it was last closed. What a node knows is exactly that
(`Explained.cache`), by the cases of what one step can do (`Effect`).

* `advance_effect`: one step of some work, by the cases of its script;
* `Explained.run`: every cache is explained by the past;
* `Current.run`: a node that is the only writer knows the current rows;
* `loads_answer_what_was_filled`: all of it, for every run. -/

namespace NodeStore

open Op

/-! ## The past -/

/-- What a node did that bears on what it knows of settings. -/
inductive Deed where
  | saved (key : String)
  | loaded (key : String) (value : Option Cell)
  | closed
deriving DecidableEq, Repr

namespace Deed

/-- It is a save of the setting. -/
def isSave (key : String) : Deed → Bool
  | saved k => k == key
  | _ => false

/-- It is a load of the setting. -/
def isLoad (key : String) : Deed → Bool
  | loaded k _ => k == key
  | _ => false

end Deed

/-- A deed, the node that did it, and what the table held right after it. -/
structure Occurrence where
  node : Nat
  deed : Deed
  rows : String → Option Cell

namespace Occurrence

variable {n : Nat} {key : String} {o : Occurrence} {past : List Occurrence}

/-- What a node did since it was last closed. The past is told from the newest to the oldest. -/
def since (n : Nat) (past : List Occurrence) : List Occurrence :=
  (past.takeWhile fun o => !(o.node == n && o.deed == .closed)).filter fun o => o.node == n

/-- The last save of a setting. -/
def lastSave (key : String) (own : List Occurrence) : Option Occurrence :=
  own.find? fun o => o.deed.isSave key

/-- The first load of a setting. -/
def firstLoad (key : String) (own : List Occurrence) : Option Occurrence :=
  own.reverse.find? fun o => o.deed.isLoad key

/-- What the table held for a setting when a node last filled what it knows of it: right after its
last save or, without one, right after its first load, since it was last closed. -/
def filled (n : Nat) (key : String) (past : List Occurrence) : Option (Option Cell) :=
  ((lastSave key (since n past)).or (firstLoad key (since n past))).map fun o => o.rows key

theorem since_cons_self (n : Nat) (deed : Deed) (rows : String → Option Cell)
    (past : List Occurrence) : since n (⟨n, deed, rows⟩ :: past) =
      if deed = .closed then [] else ⟨n, deed, rows⟩ :: since n past := by
  unfold since
  by_cases hclosed : deed = .closed
  · rw [if_pos hclosed, List.takeWhile_cons_of_neg (by simp [hclosed])]
    rfl
  · rw [if_neg hclosed, List.takeWhile_cons_of_pos (by simp [hclosed]),
      List.filter_cons_of_pos (by simp)]

theorem since_cons_ne (h : o.node ≠ n) (past : List Occurrence) :
    since n (o :: past) = since n past := by
  unfold since
  rw [List.takeWhile_cons_of_pos (by simp [h]), List.filter_cons_of_neg (by simp [h])]

theorem firstLoad_cons (key : String) (o : Occurrence) (own : List Occurrence) :
    firstLoad key (o :: own) =
      (firstLoad key own).or (if o.deed.isLoad key then some o else none) := by
  unfold firstLoad
  rw [List.reverse_cons, List.find?_append]
  congr 1
  cases hload : o.deed.isLoad key <;> simp [hload]

/-- Deeds of others fill nothing. -/
theorem filled_cons_ne (h : o.node ≠ n) (key : String) (past : List Occurrence) :
    filled n key (o :: past) = filled n key past := by
  unfold filled
  rw [since_cons_ne h]

/-- A node that was closed knows nothing. -/
theorem filled_cons_closed (n : Nat) (key : String) (rows : String → Option Cell)
    (past : List Occurrence) : filled n key (⟨n, .closed, rows⟩ :: past) = none := by
  unfold filled
  rw [since_cons_self, if_pos rfl]
  rfl

/-- A save fills what is known of its setting. -/
theorem filled_cons_saved (n : Nat) (key k : String) (rows : String → Option Cell)
    (past : List Occurrence) :
    filled n key (⟨n, .saved k, rows⟩ :: past) =
      if k = key then some (rows key) else filled n key past := by
  unfold filled
  rw [since_cons_self, if_neg nofun, firstLoad_cons]
  unfold lastSave
  by_cases hk : k = key
  · rw [if_pos hk, List.find?_cons_of_pos (by simp [Deed.isSave, hk])]
    rfl
  · rw [if_neg hk, List.find?_cons_of_neg (by simp [Deed.isSave, hk])]
    simp [Deed.isLoad]

/-- A load fills what is known of its setting unless something is known. -/
theorem filled_cons_loaded (n : Nat) (key k : String) (value : Option Cell)
    (rows : String → Option Cell) (past : List Occurrence) :
    filled n key (⟨n, .loaded k value, rows⟩ :: past) =
      if k = key then (filled n key past).or (some (rows key)) else filled n key past := by
  unfold filled
  rw [since_cons_self, if_neg nofun, firstLoad_cons]
  unfold lastSave
  rw [List.find?_cons_of_neg (by simp [Deed.isSave])]
  by_cases hk : k = key
  · simp only [Deed.isLoad, hk, beq_self_eq_true, if_true, ← Option.or_assoc, Option.map_or,
      Option.map_some]
  · simp [Deed.isLoad, hk]

end Occurrence

/-! ## Nodes that share a file -/

/-- Something that a node is asked to do with settings. -/
inductive Work where
  | save (key value : String)
  | load (key : String)
  | close
  | publish (dir : Path) (keys : List String)
  | migrate (storageDir protocolDir : Path)

/-- Does it. -/
def Work.perform : Work → NodeM Unit
  | save key value => Node.onStore (Store.saveSetting key (some value))
  | load key => (fun _ => ()) <$> Node.onStore (Store.loadSetting key)
  | close => Node.onStore Store.close
  | publish dir keys => (fun _ => ()) <$> Publication.run dir keys
  | migrate storageDir protocolDir => (fun _ => ()) <$> Migration.run storageDir protocolDir

/-- All work consists of loads, saves and closings, and of what touches nothing that is known. -/
theorem Work.scripted (work : Work) : Scripted work.perform := by
  cases work with
  | save key value => exact scripted_saveSetting key (some value)
  | load key => exact scripted_map _ (scripted_loadSetting key)
  | close => exact scripted_close
  | publish dir keys => exact scripted_map _ (scripted_publication dir keys)
  | migrate storageDir protocolDir =>
    exact scripted_map _ (scripted_migration storageDir protocolDir)

/-- What the next step of a script does, if it succeeds in something that bears on what is known. -/
def Script.deed {α : Type} : Script α → NodeState → Option Deed
  | save key value _, s =>
    match exec (Node.onStore (Store.saveSetting key value)) s with
    | (.ok _, _) => some (.saved key)
    | (.error _, _) => none
  | load key _, s =>
    match exec (Node.onStore (Store.loadSetting key)) s with
    | (.ok value, _) => some (.loaded key value)
    | (.error _, _) => none
  | close _, _ => some .closed
  | ended _, _ | aside .., _ => none

/-- The next step of a script is a save or a load that fails. -/
def Script.Fails {α : Type} : Script α → NodeState → Prop
  | save key value _, s => ∃ e, (exec (Node.onStore (Store.saveSetting key value)) s).1 = .error e
  | load key _, s => ∃ e, (exec (Node.onStore (Store.loadSetting key)) s).1 = .error e
  | ended _, _ | close _, _ | aside .., _ => False

/-- A host, the nodes that have their store at one path on it, and the work that is under way, each
piece with the number of its node. -/
structure Site where
  host : Host
  path : Path
  node : Nat → Node
  task : Nat → Nat × Script Unit
  /-- What was done, from the newest to the oldest. -/
  past : List Occurrence := []

/-- A change to a site. -/
inductive Act where
  /-- A node is asked to do something, which is cut into steps. -/
  | begin (j n : Nat) (work : Work) (script : Script Unit) (is : script.perform = work.perform)
  /-- A piece of work goes one step further. -/
  | advance (j : Nat)
  /-- The engine of a node breaks or recovers. -/
  | outage (n : Nat) (outages : Outages)
  /-- Other programs change the host. -/
  | outside (host : Host)

namespace Site

variable {s s' : Site} {n : Nat} {key : String}

/-- What the table holds now. -/
def row (s : Site) (key : String) : Option Cell :=
  s.host.rowAt s.path key

/-- What a node knows. -/
def cache (s : Site) (n : Nat) : ConfigCache Cell :=
  (s.node n).store.cache

/-- What is left of a piece of work after a step, and the state of its node. -/
def put (s : Site) (j n : Nat) (rest : Script Unit) (t : NodeState) : Site :=
  { s with
    host := t.host
    node := fun i => if i = n then t.node else s.node i
    task := fun i => if i = j then (n, rest) else s.task i }

/-- Notes what a node did. -/
def note (s : Site) (n : Nat) : Option Deed → Site
  | none => s
  | some deed => { s with past := ⟨n, deed, s.row⟩ :: s.past }

/-- A piece of work goes one step further, and what it did is noted. -/
def advance (s : Site) (j : Nat) : Site :=
  let n := (s.task j).1
  let now : NodeState := ⟨s.node n, s.host⟩
  let after := (s.task j).2.step now
  (s.put j n after.1 after.2).note n ((s.task j).2.deed now)

/-- One act. -/
def step (s : Site) : Act → Site
  | .begin j n _ script _ => { s with task := fun i => if i = j then (n, script) else s.task i }
  | .advance j => s.advance j
  | .outage n outages =>
    { s with node := fun i =>
        if i = n then { s.node n with store := { (s.node n).store with outages } } else s.node i }
  | .outside host => { s with host }

/-- Acts in order. -/
def run (s : Site) (acts : List Act) : Site :=
  acts.foldl step s

/-- All nodes have just been opened on the file. -/
structure Fresh (s : Site) : Prop where
  path : ∀ n, (s.node n).store.path = s.path
  cache : ∀ n, s.cache n = {}
  past : s.past = []

/-- What one act did to what a node knows. -/
inductive Effect (s s' : Site) (n : Nat) : Prop where
  | saved (key : String) (past : s'.past = ⟨n, .saved key, s'.row⟩ :: s.past)
      (cache : s'.cache n = (s.cache n).store key (s'.row key))
  | answered (key : String) (value : Option Cell)
      (past : s'.past = ⟨n, .loaded key value, s'.row⟩ :: s.past)
      (known : (s.cache n).lookup key = some value) (cache : s'.cache n = s.cache n)
  | read (key : String) (past : s'.past = ⟨n, .loaded key (s'.row key), s'.row⟩ :: s.past)
      (unknown : (s.cache n).lookup key = none)
      (cache : s'.cache n = (s.cache n).store key (s'.row key))
  | closed (past : s'.past = ⟨n, .closed, s'.row⟩ :: s.past) (cache : s'.cache n = {})
  | nothing (past : s'.past = s.past) (cache : s'.cache n = s.cache n)

/-! ## One step -/

theorem cache_put_self (s : Site) (j n : Nat) (rest : Script Unit) (t : NodeState) :
    (s.put j n rest t).cache n = t.node.store.cache := by
  simp [put, cache]

theorem cache_put_ne (s : Site) (j : Nat) {n i : Nat} (rest : Script Unit) (t : NodeState)
    (h : i ≠ n) : (s.put j n rest t).cache i = s.cache i := by
  simp [put, cache, h]

@[simp] theorem row_note (s : Site) (n : Nat) (deed : Option Deed) :
    (s.note n deed).row = s.row := by
  cases deed <;> rfl

@[simp] theorem cache_note (s : Site) (n : Nat) (deed : Option Deed) :
    (s.note n deed).cache = s.cache := by
  cases deed <;> rfl

@[simp] theorem node_note (s : Site) (n : Nat) (deed : Option Deed) :
    (s.note n deed).node = s.node := by
  cases deed <;> rfl

/-- The paths and what other nodes know stay, and what the node knows changed in some way. -/
structure Advanced (s s' : Site) (n : Nat) : Prop where
  path : s'.path = s.path
  paths : ∀ i, (s'.node i).store.path = s.path
  others : ∀ i, i ≠ n → s'.cache i = s.cache i
  effect : Effect s s' n

theorem advanced_put {j : Nat} {rest : Script Unit} {t : NodeState} {deed : Option Deed}
    (hpath : ∀ i, (s.node i).store.path = s.path) (ht : t.node.store.path = s.path)
    (heffect : Effect s ((s.put j n rest t).note n deed) n) :
    Advanced s ((s.put j n rest t).note n deed) n where
  path := by cases deed <;> rfl
  paths := by
    intro i
    rw [node_note]
    by_cases hi : i = n
    · simp [put, hi, ht]
    · simp [put, hi, hpath i]
  others := by
    intro i hi
    rw [cache_note, cache_put_ne _ _ _ _ hi]
  effect := heffect

/-- A call that fails does nothing to what its node knows. -/
theorem advanced_failed {α : Type} {op : StoreM α} (hop : Store.FailsUnchanged op) {e : Failure}
    {j : Nat} {rest : Script Unit} {t : NodeState}
    (hpath : ∀ i, (s.node i).store.path = s.path)
    (hrun : exec (Node.onStore op) ⟨s.node n, s.host⟩ = (.error e, t)) :
    Advanced s ((s.put j n rest t).note n none) n := by
  rcases Node.exec_failed hop hrun with ⟨hstore, hcache, -⟩
  refine advanced_put hpath (hstore.trans (hpath n)) ?_
  exact .nothing rfl ((cache_put_self ..).trans hcache)

/-- What one step of some work does, by the cases of its script. -/
theorem advance_effect (hpath : ∀ i, (s.node i).store.path = s.path) (j : Nat) :
    Advanced s (s.advance j) (s.task j).1 := by
  rcases htask : s.task j with ⟨n, script⟩
  unfold advance
  simp only [htask]
  cases script with
  | ended answer =>
    exact advanced_put hpath (hpath n) (.nothing rfl (cache_put_self ..))
  | aside move keeps rest =>
    rcases keeps ⟨s.node n, s.host⟩ with ⟨hcache, hstore⟩
    refine advanced_put hpath (hstore.trans (hpath n)) ?_
    exact .nothing rfl ((cache_put_self ..).trans hcache)
  | close rest =>
    rcases Node.exec_close ⟨s.node n, s.host⟩ with ⟨-, hstore, hcache⟩
    refine advanced_put hpath (hstore.trans (hpath n)) ?_
    exact .closed rfl ((cache_put_self s j n rest _).trans hcache)
  | save key value rest =>
    rcases hrun : exec (Node.onStore (Store.saveSetting key value)) ⟨s.node n, s.host⟩ with ⟨r, t⟩
    simp only [Script.step, Script.deed, hrun]
    cases r with
    | error e => exact advanced_failed (Store.failsUnchanged_saveSetting key value) hpath hrun
    | ok done =>
      rcases Node.saveSetting_ok hrun with ⟨hstore, hcache, hrow⟩
      refine advanced_put hpath (hstore.trans (hpath n)) ?_
      have hnow : (s.put j n (rest (.ok done)) t).row key = value.map .text := by
        rw [← hrow]
        exact congrArg (t.host.rowAt · key) (hpath n).symm
      refine .saved key rfl ?_
      rw [row_note, cache_note, cache_put_self, hcache, hnow]
      rfl
  | load key rest =>
    rcases hrun : exec (Node.onStore (Store.loadSetting key)) ⟨s.node n, s.host⟩ with ⟨r, t⟩
    simp only [Script.step, Script.deed, hrun]
    cases r with
    | error e => exact advanced_failed (Store.failsUnchanged_loadSetting key) hpath hrun
    | ok value =>
      rcases Node.loadSetting_ok hrun with ⟨hstore, hcases⟩
      refine advanced_put hpath (hstore.trans (hpath n)) ?_
      rcases hcases with ⟨hknown, hcache⟩ | ⟨hunknown, hcache, hrow⟩
      · refine .answered key value rfl hknown ?_
        rw [cache_note, cache_put_self, hcache]
        rfl
      · have hnow : (s.put j n (rest (.ok value)) t).row key = value := by
          rw [← hrow]
          exact congrArg (t.host.rowAt · key) (hpath n).symm
        refine .read key ?_ hunknown ?_
        · rw [row_note, hnow]
          rfl
        · rw [row_note, cache_note, cache_put_self, hcache, hnow]
          rfl

/-! ## Every cache is explained by the past -/

/-- Every load answered with what was filled. -/
def Answered (past : List Occurrence) : Prop :=
  ∀ newer o older key value, past = newer ++ o :: older → o.deed = .loaded key value →
    Occurrence.filled o.node key (o :: older) = some value

theorem Answered.cons {past : List Occurrence} {o : Occurrence} (h : Answered past)
    (ho : ∀ key value, o.deed = .loaded key value →
      Occurrence.filled o.node key (o :: past) = some value) : Answered (o :: past) := by
  intro newer o' older key value hpast hdeed
  cases newer with
  | nil =>
    rcases List.cons.inj hpast with ⟨rfl, rfl⟩
    exact ho key value hdeed
  | cons first newer =>
    rcases List.cons.inj hpast with ⟨-, hpast⟩
    exact h newer o' older key value hpast hdeed

/-- What every node knows is what was filled since it was closed. -/
structure Explained (s : Site) : Prop where
  paths : ∀ n, (s.node n).store.path = s.path
  cache : ∀ n key, (s.cache n).lookup key = Occurrence.filled n key s.past
  loads : Answered s.past

theorem Fresh.explained (hs : s.Fresh) : Explained s where
  paths := hs.path
  cache := by
    intro n key
    rw [hs.cache, hs.past]
    rfl
  loads := by
    intro newer o older key value hpast
    rw [hs.past] at hpast
    simp at hpast

/-- The rule for a deed: it has to explain what its node knows, and its answer. -/
theorem Explained.done (hs : Explained s) (h : Advanced s s' n) {deed : Deed}
    (past : s'.past = ⟨n, deed, s'.row⟩ :: s.past)
    (own : ∀ k, (s'.cache n).lookup k = Occurrence.filled n k (⟨n, deed, s'.row⟩ :: s.past))
    (answer : ∀ k v, deed = .loaded k v →
      Occurrence.filled n k (⟨n, deed, s'.row⟩ :: s.past) = some v) : Explained s' where
  paths := by
    intro i
    rw [h.paths i, h.path]
  cache := by
    intro i k
    rw [past]
    by_cases hi : i = n
    · rw [hi, own]
    · rw [h.others i hi, hs.cache i k, Occurrence.filled_cons_ne (fun hn => hi hn.symm)]
  loads := by
    rw [past]
    exact hs.loads.cons answer

theorem Explained.advanced (hs : Explained s) (h : Advanced s s' n) : Explained s' := by
  cases h.effect with
  | saved key past cache =>
    refine hs.done h past (fun k => ?_) nofun
    rw [cache, ConfigCache.lookup_store, Occurrence.filled_cons_saved, hs.cache n k]
    by_cases hk : k = key
    · rw [if_pos hk, if_pos hk.symm, hk]
    · rw [if_neg hk, if_neg fun h => hk h.symm]
  | answered key value past known cache =>
    have hfilled : Occurrence.filled n key s.past = some value := by
      rw [← hs.cache, known]
    refine hs.done h past (fun k => ?_) ?_
    · rw [cache, Occurrence.filled_cons_loaded, hs.cache n k]
      by_cases hk : key = k
      · rw [if_pos hk, ← hk, hfilled]
        rfl
      · rw [if_neg hk]
    · rintro k v hdeed
      rcases Deed.loaded.inj hdeed with ⟨rfl, rfl⟩
      rw [Occurrence.filled_cons_loaded, if_pos rfl, hfilled]
      rfl
  | read key past unknown cache =>
    have hfilled : Occurrence.filled n key s.past = none := by
      rw [← hs.cache, unknown]
    refine hs.done h past (fun k => ?_) ?_
    · rw [cache, ConfigCache.lookup_store, Occurrence.filled_cons_loaded, hs.cache n k]
      by_cases hk : k = key
      · rw [if_pos hk, if_pos hk.symm, hk, hfilled]
        rfl
      · rw [if_neg hk, if_neg fun h => hk h.symm]
    · rintro k v hdeed
      rcases Deed.loaded.inj hdeed with ⟨rfl, rfl⟩
      rw [Occurrence.filled_cons_loaded, if_pos rfl, hfilled]
      rfl
  | closed past cache =>
    refine hs.done h past (fun k => ?_) nofun
    rw [cache, Occurrence.filled_cons_closed]
    rfl
  | nothing past cache =>
    refine ⟨fun i => by rw [h.paths i, h.path], fun i k => ?_, by rw [past]; exact hs.loads⟩
    rw [past]
    by_cases hi : i = n
    · rw [hi, cache, hs.cache n k]
    · rw [h.others i hi, hs.cache i k]

/-- Outages do not touch what is known. -/
theorem cache_outage (s : Site) (n : Nat) (outages : Outages) (i : Nat) :
    ((s.step (.outage n outages)).node i).store.path = (s.node i).store.path ∧
      (s.step (.outage n outages)).cache i = s.cache i := by
  by_cases hi : i = n
  · simp [step, cache, hi]
  · simp [step, cache, hi]

theorem Explained.step (hs : Explained s) (act : Act) : Explained (s.step act) := by
  cases act with
  | begin j n work script is => exact ⟨hs.paths, hs.cache, hs.loads⟩
  | advance j => exact hs.advanced (advance_effect hs.paths j)
  | outage n outages =>
    refine ⟨?_, ?_, hs.loads⟩
    · intro i
      exact (cache_outage s n outages i).1.trans (hs.paths i)
    · intro i key
      rw [(cache_outage s n outages i).2]
      exact hs.cache i key
  | outside host => exact ⟨hs.paths, hs.cache, hs.loads⟩

theorem Explained.run (hs : Explained s) (acts : List Act) : Explained (s.run acts) := by
  induction acts generalizing s with
  | nil => exact hs
  | cons act acts ih => exact ih (hs.step act)

/-! ## A node that is the only writer -/

/-- Every act but the node's own saves leaves the row of the setting as it is. -/
def OnlyWriter (n : Nat) (key : String) : Site → List Act → Prop
  | _, [] => True
  | s, act :: acts =>
    ((∀ rows, (s.step act).past ≠ ⟨n, .saved key, rows⟩ :: s.past) →
        (s.step act).row key = s.row key) ∧
      OnlyWriter n key (s.step act) acts

/-- The node knows the row as it is now, and so it was whenever it loaded the setting. -/
structure Current (n : Nat) (key : String) (s : Site) : Prop where
  paths : ∀ i, (s.node i).store.path = s.path
  known : ∀ value, (s.cache n).lookup key = some value → value = s.row key
  loads : ∀ o ∈ s.past, o.node = n → ∀ value, o.deed = .loaded key value → value = o.rows key

theorem Fresh.current (hs : s.Fresh) (n : Nat) (key : String) : Current n key s where
  paths := hs.path
  known := by
    intro value hvalue
    rw [hs.cache] at hvalue
    exact absurd hvalue nofun
  loads := by
    intro o ho
    rw [hs.past] at ho
    simp at ho

/-- What the node of a step knows after it is a row as it is now, or it was known before. -/
theorem Effect.known {value : Option Cell} (h : Effect s s' n)
    (hvalue : (s'.cache n).lookup key = some value) :
    value = s'.row key ∨
      (s.cache n).lookup key = some value ∧ ∀ rows, s'.past ≠ ⟨n, .saved key, rows⟩ :: s.past := by
  -- saves and first loads both store a row, and only a save of this setting counts as one
  have hstored : ∀ k deed rows, s'.past = ⟨n, deed, rows⟩ :: s.past →
      (deed = .saved key → k = key) → s'.cache n = (s.cache n).store k (s'.row k) →
      value = s'.row key ∨
        (s.cache n).lookup key = some value ∧
          ∀ rows, s'.past ≠ ⟨n, .saved key, rows⟩ :: s.past := by
    intro k deed rows past hdeed cache
    rw [cache, ConfigCache.lookup_store] at hvalue
    by_cases hk : key = k
    · rw [if_pos hk, Option.some.injEq] at hvalue
      rw [← hvalue, hk]
      exact Or.inl rfl
    · rw [if_neg hk] at hvalue
      refine Or.inr ⟨hvalue, ?_⟩
      intro rows hpast
      rw [past] at hpast
      simp only [List.cons.injEq, Occurrence.mk.injEq] at hpast
      exact hk (hdeed hpast.1.2.1).symm
  cases h with
  | saved k past cache =>
    exact hstored k _ _ past (fun hdeed => Deed.saved.inj hdeed) cache
  | answered k v past known cache =>
    rw [cache] at hvalue
    exact Or.inr ⟨hvalue, by simp [past]⟩
  | read k past unknown cache => exact hstored k _ _ past nofun cache
  | closed past cache =>
    rw [cache] at hvalue
    exact absurd hvalue nofun
  | nothing past cache =>
    rw [cache] at hvalue
    exact Or.inr ⟨hvalue, by simp [past]⟩

/-- What a step adds to the past. -/
theorem Effect.past (h : Effect s s' n) : s'.past = s.past ∨ ∃ o, s'.past = o :: s.past := by
  cases h with
  | saved k past cache => exact Or.inr ⟨_, past⟩
  | answered k v past known cache => exact Or.inr ⟨_, past⟩
  | read k past unknown cache => exact Or.inr ⟨_, past⟩
  | closed past cache => exact Or.inr ⟨_, past⟩
  | nothing past cache => exact Or.inl past

/-- It is of the node, tells the rows as they are now, and a load of them answered with them or with
what was known. -/
theorem Effect.added {o : Occurrence} (h : Effect s s' n) (hpast : s'.past = o :: s.past) :
    o.node = n ∧ o.rows = s'.row ∧ ∀ key value, o.deed = .loaded key value →
      value = s'.row key ∨ (s.cache n).lookup key = some value := by
  cases h with
  | saved k past cache =>
    rcases List.cons.inj (past.symm.trans hpast) with ⟨rfl, -⟩
    exact ⟨rfl, rfl, nofun⟩
  | answered k v past known cache =>
    rcases List.cons.inj (past.symm.trans hpast) with ⟨rfl, -⟩
    refine ⟨rfl, rfl, ?_⟩
    rintro key value hdeed
    rcases Deed.loaded.inj hdeed with ⟨rfl, rfl⟩
    exact Or.inr known
  | read k past unknown cache =>
    rcases List.cons.inj (past.symm.trans hpast) with ⟨rfl, -⟩
    refine ⟨rfl, rfl, ?_⟩
    rintro key value hdeed
    rcases Deed.loaded.inj hdeed with ⟨rfl, rfl⟩
    exact Or.inl rfl
  | closed past cache =>
    rcases List.cons.inj (past.symm.trans hpast) with ⟨rfl, -⟩
    exact ⟨rfl, rfl, nofun⟩
  | nothing past cache => simp [past] at hpast

theorem Current.advanced {m : Nat} (hs : Current n key s) (h : Advanced s s' m)
    (honly : (∀ rows, s'.past ≠ ⟨n, .saved key, rows⟩ :: s.past) → s'.row key = s.row key) :
    Current n key s' where
  paths := by
    intro i
    rw [h.paths i, h.path]
  known := by
    intro value hvalue
    by_cases hm : m = n
    · subst hm
      rcases h.effect.known hvalue with hrow | ⟨hvalue, hsave⟩
      · exact hrow
      · rw [honly hsave]
        exact hs.known value hvalue
    · rw [h.others n fun hn => hm hn.symm] at hvalue
      rw [honly, hs.known value hvalue]
      intro rows hpast
      exact hm (h.effect.added hpast).1.symm
  loads := by
    intro o ho hnode value hdeed
    rcases h.effect.past with hpast | ⟨new, hpast⟩
    · rw [hpast] at ho
      exact hs.loads o ho hnode value hdeed
    · rw [hpast] at ho
      rcases List.mem_cons.1 ho with rfl | ho
      · rcases h.effect.added hpast with ⟨hm, hrows, hloads⟩
        rw [hrows]
        rcases hloads key value hdeed with hrow | hvalue
        · exact hrow
        · -- it was known before, and a load leaves the row as it is
          rw [honly]
          · rw [← hm, hnode] at hvalue
            exact hs.known value hvalue
          · intro rows hsave
            rw [(List.cons.inj (hpast.symm.trans hsave)).1] at hdeed
            exact absurd hdeed nofun
      · exact hs.loads o ho hnode value hdeed

/-- Acts that are no steps of work add nothing to the past. -/
theorem Current.quiet {act : Act} (hs : Current n key s)
    (hpaths : ∀ i, ((s.step act).node i).store.path = (s.step act).path)
    (hcache : (s.step act).cache n = s.cache n) (hpast : (s.step act).past = s.past)
    (honly : (∀ rows, (s.step act).past ≠ ⟨n, .saved key, rows⟩ :: s.past) →
      (s.step act).row key = s.row key) : Current n key (s.step act) where
  paths := hpaths
  known := by
    intro value hvalue
    rw [hcache] at hvalue
    rw [honly, hs.known value hvalue]
    intro rows
    simp [hpast]
  loads := by
    rw [hpast]
    exact hs.loads

theorem Current.step {act : Act} (hs : Current n key s)
    (honly : (∀ rows, (s.step act).past ≠ ⟨n, .saved key, rows⟩ :: s.past) →
      (s.step act).row key = s.row key) : Current n key (s.step act) := by
  cases act with
  | begin j m work script is => exact hs.quiet hs.paths rfl rfl honly
  | advance j => exact hs.advanced (advance_effect hs.paths j) honly
  | outage m outages =>
    refine hs.quiet ?_ (cache_outage s m outages n).2 rfl honly
    intro i
    exact (cache_outage s m outages i).1.trans (hs.paths i)
  | outside host => exact hs.quiet hs.paths rfl rfl honly

theorem Current.run {acts : List Act} (hs : Current n key s) (honly : OnlyWriter n key s acts) :
    Current n key (s.run acts) := by
  induction acts generalizing s with
  | nil => exact hs
  | cons act acts ih => exact ih (hs.step honly.1) honly.2

/-! ## What loads answer -/

/-- Nothing was done that counts, what is known and the rows are the same, and so is what every
node would answer. -/
structure Unchanged (s s' : Site) : Prop where
  past : s'.past = s.past
  cache : s'.cache = s.cache
  row : s'.row = s.row
  answers : ∀ n key value, Node.Answers ⟨s'.node n, s'.host⟩ key value ↔
    Node.Answers ⟨s.node n, s.host⟩ key value

theorem unchanged_put {α : Type} {op : StoreM α} (hop : Store.FailsUnchanged op)
    (hreads : ∀ reads, Keeps (fun u : StoreState => u.outages.reads = reads) op) {e : Failure}
    {t : NodeState} (hrun : exec (Node.onStore op) ⟨s.node n, s.host⟩ = (.error e, t)) (j : Nat)
    (rest : Script Unit) : Unchanged s (s.put j n rest t) where
  past := rfl
  cache := by
    funext i
    by_cases hi : i = n
    · subst hi
      rw [cache_put_self]
      exact (Node.exec_failed hop hrun).2.1
    · exact cache_put_ne _ _ _ _ hi
  row := by
    funext key
    exact (Node.exec_failed hop hrun).2.2 s.path key
  answers := by
    intro i key value
    by_cases hi : i = n
    · subst hi
      simp only [put, if_pos]
      exact (Node.answers_of_failed hop hreads hrun value).1
    · simp only [put, if_neg hi]
      exact (Node.answers_of_failed hop hreads hrun value).2 (s.node i)

/-- A save or a load that fails changes nothing. -/
theorem advance_failed {j : Nat} (hfails : (s.task j).2.Fails ⟨s.node (s.task j).1, s.host⟩) :
    Unchanged s (s.advance j) := by
  rcases htask : s.task j with ⟨n, script⟩
  rw [htask] at hfails
  unfold advance
  simp only [htask]
  cases script with
  | save key value rest =>
    rcases hrun : exec (Node.onStore (Store.saveSetting key value)) ⟨s.node n, s.host⟩ with ⟨r, t⟩
    rcases hfails with ⟨e, he⟩
    rw [hrun] at he
    subst he
    simp only [Script.step, Script.deed, hrun]
    exact unchanged_put (Store.failsUnchanged_saveSetting key value)
      (Store.keeps_saveSetting_reads value) hrun j _
  | load key rest =>
    rcases hrun : exec (Node.onStore (Store.loadSetting key)) ⟨s.node n, s.host⟩ with ⟨r, t⟩
    rcases hfails with ⟨e, he⟩
    rw [hrun] at he
    subst he
    simp only [Script.step, Script.deed, hrun]
    exact unchanged_put (Store.failsUnchanged_loadSetting key) Store.keeps_loadSetting_reads hrun
      j _
  | ended answer => exact hfails.elim
  | close rest => exact hfails.elim
  | aside move keeps rest => exact hfails.elim

/-- Nodes that were just opened on one file do any work, in steps that come in any order, while
other programs edit the file. All work can be cut into such steps. A load answers with what was
filled: with the row right after the node's last save of the setting or, without one, after its
first load, since it was last closed. If a node is the only writer that is the row as it is now.
A save or a load that fails changes no later answer. -/
theorem loads_answer_what_was_filled {s : Site} (hs : s.Fresh) (acts : List Act) :
    (∀ work : Work, ∃ script : Script Unit, script.perform = work.perform) ∧
    (∀ newer o older key value, (s.run acts).past = newer ++ o :: older →
      o.deed = .loaded key value → Occurrence.filled o.node key (o :: older) = some value) ∧
    (∀ n key, OnlyWriter n key s acts → ∀ o ∈ (s.run acts).past, o.node = n →
      ∀ value, o.deed = .loaded key value → value = o.rows key) ∧
    ∀ j, ((s.run acts).task j).2.Fails
        ⟨(s.run acts).node ((s.run acts).task j).1, (s.run acts).host⟩ →
      Unchanged (s.run acts) ((s.run acts).advance j) := by
  refine ⟨Work.scripted, ?_, ?_, ?_⟩
  · exact (hs.explained.run acts).loads
  · intro n key honly
    exact ((hs.current n key).run honly).loads
  · intro j hfails
    exact advance_failed hfails

/-! ## Two nodes and an edit -/

/-- A machine with a database that holds one setting. -/
def editedHost (value : String) : Host :=
  { Host.bare with
    files := ⟨[(["lnstore.db"], .database
      { (Tables.createMissing {}) with
        settings := some ⟨[⟨1, (.text "proxy_endpoint", .text value)⟩], none⟩ })]⟩ }

/-- A machine with a database that holds none. -/
def emptyHost : Host :=
  { Host.bare with files := ⟨[(["lnstore.db"], .database (Tables.createMissing {}))]⟩ }

/-- Nodes that were just opened on it. -/
def openedSite : Site where
  host := emptyHost
  path := Path.ofString "/lnstore.db"
  node := fun _ =>
    { config := {}, store := ⟨Path.ofString "/lnstore.db", {}, {}⟩
      secret := ⟨Path.ofString "/rln_db", 100000, false⟩ }
  task := fun _ => (0, .ended (.ok ()))

/-- A node loads the setting. -/
def loading (n : Nat) : List Act :=
  [.begin n n (.load "proxy_endpoint") ((Script.load "proxy_endpoint" .ended).map fun _ => ())
    ((Script.perform_map _ _).trans (congrArg _ (Script.perform_load _))), .advance n]

/-- A node begins to save the setting. -/
def saving (n : Nat) (value : String) : Act :=
  .begin n n (.save "proxy_endpoint" value) (.save "proxy_endpoint" (some value) .ended)
    (Script.perform_save _ _)

/-- A node is closed. -/
def closing (n : Nat) : List Act :=
  [.begin n n .close (.close (.ended (.ok ()))) rfl, .advance n]

/-- One node loads the setting before and after the other one saves it, and that one loads it after
an edit; the first node sees the edit once it was closed. -/
def editedActs : List Act :=
  loading 0 ++ [saving 1 "rpc://a", .advance 1] ++ loading 0 ++
    [.outside (editedHost "rpc://b")] ++ loading 1 ++ closing 0 ++ loading 0

/-- A node saves the setting and loads it. -/
def aloneActs : List Act :=
  [saving 0 "rpc://a", .advance 0] ++ loading 0

/-- The engine of a node breaks before it saves the setting. -/
def refusedActs : List Act :=
  [.outage 1 { transactions := some Store.locked }, saving 1 "rpc://c"]

/-- The stale answers are those that were filled, a node alone answers with the row, and a save that
is refused changes nothing. -/
theorem loads_answer_around_edit :
    openedSite.Fresh ∧
    (((openedSite.run editedActs).past.map fun o => (o.node, o.deed)) =
        [(0, .loaded "proxy_endpoint" (some (.text "rpc://b"))), (0, .closed),
          (1, .loaded "proxy_endpoint" (some (.text "rpc://a"))),
          (0, .loaded "proxy_endpoint" none), (1, .saved "proxy_endpoint"),
          (0, .loaded "proxy_endpoint" none)] ∧
      ∀ newer o older key value, (openedSite.run editedActs).past = newer ++ o :: older →
        o.deed = .loaded key value → Occurrence.filled o.node key (o :: older) = some value) ∧
    (OnlyWriter 0 "proxy_endpoint" openedSite aloneActs ∧
      ∀ o ∈ (openedSite.run aloneActs).past, o.node = 0 → ∀ value,
        o.deed = .loaded "proxy_endpoint" value → value = o.rows "proxy_endpoint") ∧
    Unchanged (openedSite.run refusedActs) ((openedSite.run refusedActs).advance 1) := by
  have hfresh : openedSite.Fresh := ⟨fun _ => rfl, fun _ => rfl, rfl⟩
  have hedited := loads_answer_what_was_filled hfresh editedActs
  have halone : OnlyWriter 0 "proxy_endpoint" openedSite aloneActs := by
    refine ⟨fun _ => rfl, fun hsave => ?_, fun _ => rfl, fun _ => rfl, trivial⟩
    exact absurd rfl (hsave _)
  refine ⟨hfresh, ⟨by decide +kernel, hedited.2.1⟩, ⟨halone, ?_⟩, ?_⟩
  · exact (loads_answer_what_was_filled hfresh aloneActs).2.2.1 0 "proxy_endpoint" halone
  · exact (loads_answer_what_was_filled hfresh refusedActs).2.2.2 1 ⟨_, rfl⟩

end Site

end NodeStore
