import NodeStore.Proofs.Store.Interleaving

/-! # Coherence of the cache

However loads and saves are interleaved, the cache of a store that is the only writer of its file
never keeps a value that the table does not hold.

The invariant is `Coherent`. An entry may differ from the table only while a save of its key has
committed and not entered (`Pending`); what such a save committed is what the table holds; and a
load that still carries an old value carries it in vain, because an entry is there already or the
pending save will replace what the load enters.

* `Coherent.step`, `Coherent.run`: the invariant holds after any moves;
* `Coherent.agrees`: where no call is under way, every entry is what the table holds.
-/

namespace NodeStore.Interleaving

open Op

namespace Pool

variable {p : Pool} {i : Nat} {key : String}

/-- A save of the key has committed and has not entered the cache. -/
def Pending (p : Pool) (key : String) : Prop :=
  ∃ i value, p.stage i = .committed key value

/-- The invariant of interleaved loads and saves. -/
structure Coherent (p : Pool) : Prop where
  turn : ∀ i, (p.stage i).HasTurn → p.turn = some i
  entered : ∀ k, ¬ p.Pending k → ∀ e, p.store.known k = some e → e = p.store.setting k
  committed : ∀ i k v, p.stage i = .committed k v → p.store.setting k = v.map .text
  fetched : ∀ i k v, p.stage i = .fetched k v →
    p.store.known k ≠ none ∨ v = p.store.setting k ∨ p.Pending k

theorem coherent_opened (tables : Tables) (outages : Outages) :
    Coherent (opened tables outages) where
  turn := by
    intro i h
    simp [opened, Stage.HasTurn] at h
  entered := by
    intro k _ e h
    simp [opened, StoreState.known, ConfigCache.lookup] at h
  committed := by
    intro i k v h
    simp [opened] at h
  fetched := by
    intro i k v h
    simp [opened] at h

/-! ## Steps that leave table and cache alone -/

/-- Calls that have not the turn are not pending. -/
theorem pending_put {s : Stage} {k : String} (hold : ¬ (p.stage i).HasTurn) (hnew : ¬ s.HasTurn) :
    (p.put i s).Pending k ↔ p.Pending k := by
  constructor
  · rintro ⟨j, v, hj⟩
    rcases put_stage_cases hj with ⟨-, rfl⟩ | ⟨-, hj⟩
    · exact absurd trivial hnew
    · exact ⟨j, v, hj⟩
  · rintro ⟨j, v, hj⟩
    have hji : j ≠ i := by
      rintro rfl
      exact hold (by rw [hj]; trivial)
    exact ⟨j, v, by rw [put_stage_ne _ _ hji, hj]⟩

/-- A step of a call without the turn that changes neither table nor cache keeps the invariant,
provided that a load carries on what it has just read. -/
theorem Coherent.put_same {s : Stage} {store : StoreState} (h : Coherent p)
    (htables : store.tables = p.store.tables) (hcache : store.cache = p.store.cache)
    (hold : ¬ (p.stage i).HasTurn) (hnew : ¬ s.HasTurn)
    (hread : ∀ k v, s = .fetched k v → v = p.store.setting k) :
    Coherent ({ p with store }.put i s) := by
  have hsetting : ∀ k, store.setting k = p.store.setting k := by
    intro k
    rw [StoreState.setting, htables]
    rfl
  have hknown : ∀ k, store.known k = p.store.known k := by
    intro k
    rw [StoreState.known, hcache]
    rfl
  have hpending : ∀ k, ({ p with store }.put i s).Pending k ↔ p.Pending k := by
    intro k
    exact pending_put (p := { p with store }) hold hnew
  -- the parts of the invariant only look at table, cache and the calls with the turn
  constructor
  · intro j hj
    rcases put_hasTurn hj with ⟨-, hs⟩ | ⟨-, hj⟩
    · exact absurd hs hnew
    · exact h.turn j hj
  · intro k hk e he
    rw [hpending] at hk
    rw [put_store, hknown] at he
    rw [put_store, hsetting]
    exact h.entered k hk e he
  · intro j k v hj
    rcases put_stage_cases hj with ⟨-, rfl⟩ | ⟨-, hj⟩
    · exact absurd trivial hnew
    · rw [put_store, hsetting]
      exact h.committed j k v hj
  · intro j k v hj
    rw [put_store, hknown, hsetting, hpending]
    rcases put_stage_cases hj with ⟨-, hs⟩ | ⟨-, hj⟩
    · exact Or.inr (Or.inl (hread k v hs))
    · exact h.fetched j k v hj

/-- The same for an operation that changes neither table nor cache. -/
theorem Coherent.perform_same {α : Type} {op : StoreM α} {next : α → Stage} (h : Coherent p)
    (htables : (exec op p.store).2.tables = p.store.tables)
    (hcache : (exec op p.store).2.cache = p.store.cache)
    (hold : ¬ (p.stage i).HasTurn) (hnew : ∀ a, ¬ (next a).HasTurn)
    (hread : ∀ a store k v, exec op p.store = (.ok a, store) → next a = .fetched k v →
      v = p.store.setting k) :
    Coherent (p.perform i op next) := by
  unfold perform
  rcases hop : exec op p.store with ⟨r, store⟩
  rw [hop] at htables hcache
  cases r with
  | ok a => exact h.put_same htables hcache hold (hnew a) fun k v => hread a store k v hop
  | error e =>
    apply h.put_same htables hcache hold id
    intro k v hkv
    simp at hkv

/-! ## Steps of a load -/

theorem no_turn {s : Stage} (h : p.stage i = s) (hs : ¬ s.HasTurn) : ¬ (p.stage i).HasTurn := by
  rwa [h]

theorem Coherent.asking (h : Coherent p) (hi : p.stage i = .asking key) :
    Coherent (p.advance i) := by
  rw [advance_asking hi]
  refine h.put_same rfl rfl (no_turn hi id) ?_ ?_
  · cases p.store.known key <;> exact id
  · intro k v
    cases p.store.known key <;> simp [afterLook]

theorem Coherent.missed (h : Coherent p) (hi : p.stage i = .missed key) :
    Coherent (p.advance i) := by
  rw [advance_missed hi]
  have hview : (exec (Store.readMissed key) p.store).2.tables = p.store.tables ∧
      (exec (Store.readMissed key) p.store).2.cache = p.store.cache := by
    rcases hop : exec (Store.readMissed key) p.store with ⟨r, t⟩
    cases r with
    | ok value => exact (Store.readMissed_ok hop).2
    | error e => exact Store.readMissed_error hop
  apply h.perform_same hview.1 hview.2 (no_turn hi id) (fun _ => id)
  intro a store k v hop hnext
  obtain ⟨rfl, rfl⟩ : key = k ∧ a = v := by simpa using hnext
  exact (Store.readMissed_ok hop).1

/-- What a load enters is what the table holds, unless an entry is there already or a pending
save will replace it. -/
theorem Coherent.fetching {value : Option Cell} (h : Coherent p)
    (hi : p.stage i = .fetched key value) : Coherent (p.advance i) := by
  rw [advance_fetched hi]
  have hpending : ∀ k, (({ p with
      store := { p.store with
        cache := (p.store.cache.storeIfAbsent key value).2 } } : Pool).put i
      (.loaded key ((p.store.known key).getD value))).Pending k ↔ p.Pending k := fun k =>
    pending_put (p := { p with
      store := { p.store with cache := (p.store.cache.storeIfAbsent key value).2 } })
      (no_turn hi id) id
  have hknown : ∀ k, StoreState.known { p.store with
      cache := (p.store.cache.storeIfAbsent key value).2 } k =
      if k = key then some ((p.store.known key).getD value) else p.store.known k := fun k =>
    ConfigCache.lookup_storeIfAbsent p.store.cache key k value
  constructor
  · intro j hj
    rcases put_hasTurn hj with ⟨-, hs⟩ | ⟨-, hj⟩
    · exact absurd hs id
    · exact h.turn j hj
  · intro k hk e he
    rw [hpending] at hk
    rw [put_store, hknown] at he
    show e = p.store.setting k
    by_cases hkey : k = key
    · subst hkey
      rw [if_pos rfl] at he
      cases hold : p.store.known k with
      | some old =>
        -- the entry was there before, and stays
        have heq : e = old := by simpa [hold] using he.symm
        exact heq ▸ h.entered k hk old hold
      | none =>
        -- what was read is entered: it is what the table holds, since no save is pending
        have heq : e = value := by simpa [hold] using he.symm
        rcases h.fetched i k value hi with hn | hv | hp
        · exact absurd hold hn
        · exact heq.trans hv
        · exact absurd hp hk
    · rw [if_neg hkey] at he
      exact h.entered k hk e he
  · intro j k v hj
    rcases put_stage_cases hj with ⟨-, hs⟩ | ⟨-, hj⟩
    · simp at hs
    · exact h.committed j k v hj
  · intro j k v hj
    rcases put_stage_cases hj with ⟨-, hs⟩ | ⟨-, hj⟩
    · simp at hs
    · rw [put_store, hknown, hpending]
      -- another load of the same key finds an entry now
      by_cases hkey : k = key
      · exact Or.inl (by simp [hkey])
      · rw [if_neg hkey]
        exact h.fetched j k v hj

/-! ## Steps of a save -/

/-- The call that has the turn is the only one. -/
theorem Coherent.only {j : Nat} (h : Coherent p) (hi : (p.stage i).HasTurn)
    (hj : (p.stage j).HasTurn) : j = i := by
  have hij := (h.turn i hi).symm.trans (h.turn j hj)
  exact (Option.some.inj hij).symm

/-- What a load carries while no save is pending. -/
theorem Coherent.fetched_of_not_pending {j : Nat} {k : String} {v : Option Cell} (h : Coherent p)
    (hk : ¬ p.Pending k) (hj : p.stage j = .fetched k v) :
    p.store.known k ≠ none ∨ v = p.store.setting k := by
  rcases h.fetched j k v hj with hn | hv | hp
  · exact Or.inl hn
  · exact Or.inr hv
  · exact absurd hp hk

theorem Coherent.waiting {value : Option String} (h : Coherent p)
    (hi : p.stage i = .waiting key value) : Coherent (p.advance i) := by
  rw [advance_waiting hi]
  by_cases hturn : p.turn = none
  · rw [if_pos hturn]
    -- nobody has the turn, so that no save is pending
    have hnone : ∀ j, ¬ (p.stage j).HasTurn := by
      intro j hj
      rw [h.turn j hj] at hturn
      simp at hturn
    have hpending : ∀ k, ¬ p.Pending k := by
      rintro k ⟨j, v, hj⟩
      exact hnone j (by rw [hj]; trivial)
    constructor
    · intro j hj
      rcases put_hasTurn hj with ⟨rfl, -⟩ | ⟨-, hj⟩
      · rfl
      · exact absurd hj (hnone j)
    · intro k _ e he
      exact h.entered k (hpending k) e he
    · intro j k v hj
      rcases put_stage_cases hj with ⟨-, hs⟩ | ⟨-, hj⟩
      · simp at hs
      · exact h.committed j k v hj
    · intro j k v hj
      rcases put_stage_cases hj with ⟨-, hs⟩ | ⟨-, hj⟩
      · simp at hs
      · rcases h.fetched_of_not_pending (hpending k) hj with hn | hv
        · exact Or.inl hn
        · exact Or.inr (Or.inl hv)
  · rw [if_neg hturn]
    exact h

/-- While a save is about to commit, no save is pending. -/
theorem Coherent.not_pending {value : Option String} (h : Coherent p)
    (hi : p.stage i = .writing key value) (k : String) : ¬ p.Pending k := by
  rintro ⟨j, v, hj⟩
  have hji := h.only (i := i) (j := j) (by rw [hi]; trivial) (by rw [hj]; trivial)
  rw [hji, hi] at hj
  simp at hj

/-- A save that commits is pending from then on. -/
theorem Coherent.commit {value : Option String} {t : StoreState} (h : Coherent p)
    (hi : p.stage i = .writing key value)
    (hop : exec (Store.commitSetting key value) p.store = (.ok (), t)) :
    Coherent ({ p with store := t }.put i (.committed key value)) := by
  rcases Store.commitSetting_ok hop with ⟨-, hcache, hsetting⟩
  have hnow : ({ p with store := t }.put i (.committed key value)).Pending key :=
    ⟨i, value, put_stage_self ..⟩
  have hknown : ∀ k, t.known k = p.store.known k := by
    intro k
    rw [StoreState.known, hcache]
    rfl
  constructor
  · intro j hj
    rcases put_hasTurn hj with ⟨rfl, -⟩ | ⟨-, hj⟩
    · exact h.turn j (by rw [hi]; trivial)
    · exact h.turn j hj
  · intro k hk e he
    -- the key of the save is pending, so nothing is asked of its entry
    have hkey : k ≠ key := by
      rintro rfl
      exact hk hnow
    rw [put_store, hknown] at he
    rw [put_store, hsetting k, if_neg hkey]
    exact h.entered k (h.not_pending hi k) e he
  · intro j k v hj
    rcases put_stage_cases hj with ⟨-, hs⟩ | ⟨-, hj⟩
    · obtain ⟨rfl, rfl⟩ : key = k ∧ value = v := by simpa using hs
      rw [put_store, hsetting key, if_pos rfl]
    · exact absurd ⟨j, v, hj⟩ (h.not_pending hi k)
  · intro j k v hj
    rcases put_stage_cases hj with ⟨-, hs⟩ | ⟨-, hj⟩
    · simp at hs
    -- a load that carries the old value of the key is covered by the pending save
    · by_cases hkey : k = key
      · subst hkey
        exact Or.inr (Or.inr hnow)
      · rw [put_store, hknown, hsetting k, if_neg hkey]
        rcases h.fetched_of_not_pending (h.not_pending hi k) hj with hn | hv
        · exact Or.inl hn
        · exact Or.inr (Or.inl hv)

theorem Coherent.writing {value : Option String} (h : Coherent p)
    (hi : p.stage i = .writing key value) : Coherent (p.advance i) := by
  rw [advance_writing hi]
  rcases hop : exec (Store.commitSetting key value) p.store with ⟨r, t⟩
  cases r with
  | ok u => exact h.commit hi hop
  | error e =>
    -- nothing was committed, and the turn is free again
    obtain rfl := Store.commitSetting_error hop
    constructor
    · intro j hj
      rcases put_hasTurn hj with ⟨-, hs⟩ | ⟨hji, hj⟩
      · exact absurd hs id
      · exact absurd (h.only (by rw [hi]; trivial) hj) hji
    · intro k _ e he
      exact h.entered k (h.not_pending hi k) e he
    · intro j k v hj
      rcases put_stage_cases hj with ⟨-, hs⟩ | ⟨-, hj⟩
      · simp at hs
      · exact h.committed j k v hj
    · intro j k v hj
      rcases put_stage_cases hj with ⟨-, hs⟩ | ⟨-, hj⟩
      · simp at hs
      · rcases h.fetched_of_not_pending (h.not_pending hi k) hj with hn | hv
        · exact Or.inl hn
        · exact Or.inr (Or.inl hv)

/-- A save that enters the cache makes its key agree with the table again. -/
theorem Coherent.entering {value : Option String} (h : Coherent p)
    (hi : p.stage i = .committed key value) : Coherent (p.advance i) := by
  rw [advance_committed hi]
  have hturn : (p.stage i).HasTurn := by rw [hi]; trivial
  -- the save that enters is the only one that is pending
  have hkey : ∀ k, p.Pending k → k = key := by
    rintro k ⟨j, v, hj⟩
    have hji := h.only hturn (j := j) (by rw [hj]; trivial)
    rw [hji, hi] at hj
    simp only [Stage.committed.injEq] at hj
    exact hj.1.symm
  have hknown : ∀ k, StoreState.known { p.store with
      cache := p.store.cache.store key (value.map .text) } k =
      if k = key then some (value.map .text) else p.store.known k := fun k =>
    ConfigCache.lookup_store p.store.cache key k _
  constructor
  · intro j hj
    rcases put_hasTurn hj with ⟨-, hs⟩ | ⟨hji, hj⟩
    · exact absurd hs id
    · exact absurd (h.only hturn hj) hji
  · intro k _ e he
    rw [put_store, hknown] at he
    show e = p.store.setting k
    by_cases hk : k = key
    · subst hk
      rw [if_pos rfl] at he
      rw [h.committed i k value hi]
      exact (Option.some.inj he).symm
    · rw [if_neg hk] at he
      exact h.entered k (fun hp => hk (hkey k hp)) e he
  · intro j k v hj
    rcases put_stage_cases hj with ⟨-, hs⟩ | ⟨-, hj⟩
    · simp at hs
    · exact h.committed j k v hj
  · intro j k v hj
    rcases put_stage_cases hj with ⟨-, hs⟩ | ⟨-, hj⟩
    · simp at hs
    · rw [put_store, hknown]
      by_cases hk : k = key
      · exact Or.inl (by simp [hk])
      · rw [if_neg hk]
        rcases h.fetched_of_not_pending (fun hp => hk (hkey k hp)) hj with hn | hv
        · exact Or.inl hn
        · exact Or.inr (Or.inl hv)

/-! ## Runs -/

theorem Coherent.advance (h : Coherent p) (i : Nat) : Coherent (p.advance i) := by
  cases hi : p.stage i with
  | asking key => exact h.asking hi
  | missed key => exact h.missed hi
  | fetched key value => exact h.fetching hi
  | waiting key value => exact h.waiting hi
  | writing key value => exact h.writing hi
  | committed key value => exact h.entering hi
  | unborn | loaded key value | saved key value | failed e =>
    rw [advance_of_not_inFlight (by rw [hi]; exact id)]
    exact h

theorem Coherent.step (h : Coherent p) (m : Move) : Coherent (p.step m) := by
  cases m with
  | load i key =>
    by_cases hi : p.stage i = .unborn
    · rw [Pool.step, if_pos hi]
      apply h.put_same (rfl : p.store.tables = p.store.tables) rfl (no_turn hi id) id
      intro k v hkv
      simp at hkv
    · rw [Pool.step, if_neg hi]
      exact h
  | save i key value =>
    by_cases hi : p.stage i = .unborn
    · rw [Pool.step, if_pos hi]
      have hview := Store.exec_announce_snd key value (s := p.store)
      apply h.perform_same hview.1 hview.2 (no_turn hi id) (fun _ => id)
      intro a store k v _ hkv
      simp at hkv
    · rw [Pool.step, if_neg hi]
      exact h
  | advance i => exact h.advance i
  | outage outages => exact ⟨h.turn, h.entered, h.committed, h.fetched⟩

theorem Coherent.run (h : Coherent p) (moves : List Move) : Coherent (p.run moves) := by
  induction moves generalizing p with
  | nil => exact h
  | cons m ms ih => exact ih (h.step m)

/-- Where no call is under way, every entry is what the table holds. -/
theorem Coherent.agrees (h : Coherent p) (hquiet : ∀ i, ¬ (p.stage i).InFlight) {k : String}
    {e : Option Cell} (he : p.store.known k = some e) : e = p.store.setting k := by
  refine h.entered k ?_ e he
  -- a save that has committed would be under way
  rintro ⟨i, v, hi⟩
  exact hquiet i (by rw [hi]; trivial)

end Pool

end NodeStore.Interleaving
