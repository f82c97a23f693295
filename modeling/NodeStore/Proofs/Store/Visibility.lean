import NodeStore.Proofs.Store.Coherence

/-! # Visibility of saves

A save that returns leaves its value in the cache (`known_of_committed`). While no other save of
its key is under way, that entry stays (`known_run`), and a load that begins then finds it
(`Finds.run`). Together with the coherence of the cache this is
`cache_agrees_and_load_sees_save`. -/

namespace NodeStore.Interleaving

open Op

namespace Pool

variable {p : Pool} {key : String} {e : Option Cell}

/-! ## Steps of other calls -/

theorem perform_stage_ne {α : Type} {op : StoreM α} {next : α → Stage} {i j : Nat} (h : j ≠ i) :
    (p.perform i op next).stage j = p.stage j := by
  unfold perform
  rcases exec op p.store with ⟨r, t⟩
  cases r <;> exact put_stage_ne _ _ h

/-- A call moves no other call. -/
theorem advance_stage_ne {i j : Nat} (h : j ≠ i) : (p.advance i).stage j = p.stage j := by
  unfold advance
  cases p.stage i with
  | asking key | missed key | fetched key value => exact perform_stage_ne h
  | waiting key value =>
    simp only
    split
    · exact put_stage_ne _ _ h
    · rfl
  | writing key value =>
    simp only
    rcases exec (Store.commitSetting key value) p.store with ⟨r, t⟩
    cases r <;> exact put_stage_ne _ _ h
  | committed key value => exact perform_stage_ne h
  | unborn | loaded key value | saved key value | failed e => rfl

/-- A call that has begun is moved by its own steps only. -/
theorem step_stage {j : Nat} (h : p.stage j ≠ .unborn) (m : Move) :
    (p.step m).stage j = p.stage j ∨ p.step m = p.advance j := by
  -- a call that begins takes a number that no call has
  have hbegin : ∀ {q : Pool} {i : Nat}, (j ≠ i → q.stage j = p.stage j) →
      (if p.stage i = .unborn then q else p).stage j = p.stage j := by
    intro q i hq
    by_cases hi : p.stage i = .unborn
    · rw [if_pos hi]
      apply hq
      rintro rfl
      exact h hi
    · rw [if_neg hi]
  cases m with
  | load i key => exact Or.inl (hbegin fun hji => put_stage_ne p _ hji)
  | save i key value => exact Or.inl (hbegin fun hji => perform_stage_ne hji)
  | advance i =>
    by_cases hji : j = i
    · subst hji
      exact Or.inr rfl
    · exact Or.inl (advance_stage_ne hji)
  | outage outages => exact Or.inl rfl

/-! ## The entry of a save -/

/-- A save that returns leaves its value in the cache. -/
theorem known_of_committed {i : Nat} {value : Option String}
    (h : p.stage i = .committed key value) :
    (p.advance i).store.known key = some (value.map .text) := by
  rw [advance_committed h]
  exact (ConfigCache.lookup_store ..).trans (if_pos rfl)

theorem known_perform_same {α : Type} {op : StoreM α} {next : α → Stage} {i : Nat}
    (h : (exec op p.store).2.cache = p.store.cache) :
    (p.perform i op next).store.known key = p.store.known key := by
  unfold perform
  rcases hop : exec op p.store with ⟨r, t⟩
  rw [hop] at h
  cases r <;> exact congrArg (ConfigCache.lookup · key) h

/-- An entry stays, unless a save of its key replaces it. -/
theorem known_advance (hknown : p.store.known key = some e) {i : Nat}
    (hsave : ¬ (p.stage i).Saves key) : (p.advance i).store.known key = some e := by
  cases hi : p.stage i with
  | asking k =>
    rw [advance_asking hi]
    exact hknown
  | missed k =>
    rw [advance_missed hi, known_perform_same, hknown]
    rcases hop : exec (Store.readMissed k) p.store with ⟨r, t⟩
    cases r with
    | ok value => exact (Store.readMissed_ok hop).2.2
    | error e => exact (Store.readMissed_error hop).2
  | fetched k value =>
    rw [advance_fetched hi, put_store]
    apply (ConfigCache.lookup_storeIfAbsent ..).trans
    -- what is entered for the key itself is the entry that is there
    by_cases hk : key = k
    · subst hk
      have hentry : p.store.cache.lookup key = some e := hknown
      simp [hentry]
    · rw [if_neg hk]
      exact hknown
  | waiting k value =>
    rw [advance_waiting hi]
    split <;> exact hknown
  | writing k value =>
    rw [advance_writing hi]
    rcases hop : exec (Store.commitSetting k value) p.store with ⟨r, t⟩
    cases r with
    | ok u =>
      rw [put_store, StoreState.known, (Store.commitSetting_ok hop).2.1]
      exact hknown
    | error e =>
      obtain rfl := Store.commitSetting_error hop
      exact hknown
  | committed k value =>
    rw [advance_committed hi, put_store]
    -- only a save of the key itself would replace the entry
    have hk : key ≠ k := by
      rintro rfl
      exact hsave (by rw [hi]; exact rfl)
    exact (ConfigCache.lookup_store ..).trans ((if_neg hk).trans hknown)
  | unborn | loaded k value | saved k value | failed e =>
    rw [advance_of_not_inFlight (by rw [hi]; exact id)]
    exact hknown

/-- While no save of its key is under way, an entry stays. -/
theorem known_step (hknown : p.store.known key = some e) (hsave : ∀ i, ¬ (p.stage i).Saves key)
    (m : Move) : (p.step m).store.known key = some e := by
  cases m with
  | load i k =>
    simp only [step]
    split <;> exact hknown
  | save i k value =>
    simp only [step]
    split
    · rw [known_perform_same (Store.exec_announce_snd _ value).2]
      exact hknown
    · exact hknown
  | advance i => exact known_advance hknown (hsave i)
  | outage outages => exact hknown

/-! ## Loads that find the entry -/

/-- A load that has begun and will answer with the entry, or has done so. -/
def Finds (p : Pool) (j : Nat) (key : String) (e : Option Cell) : Prop :=
  p.stage j = .asking key ∨ p.stage j = .loaded key e

/-- A load that finds the entry answers with its next step. -/
theorem Finds.advance {j : Nat} (h : p.Finds j key e) (hknown : p.store.known key = some e) :
    (p.advance j).stage j = .loaded key e := by
  rcases h with h | h
  · rw [advance_asking h, hknown]
    exact put_stage_self ..
  · rw [advance_of_not_inFlight (by rw [h]; exact id)]
    exact h

theorem Finds.step {j : Nat} (h : p.Finds j key e) (hknown : p.store.known key = some e)
    (m : Move) : (p.step m).Finds j key e := by
  have hborn : p.stage j ≠ .unborn := by
    rcases h with h | h <;> simp [h]
  rcases step_stage hborn m with hsame | hstep
  · rw [Finds, hsame]
    exact h
  · rw [hstep]
    exact Or.inr (h.advance hknown)

/-- No save of the key is under way, now and after each of the moves. -/
def Quiet (p : Pool) (key : String) (moves : List Move) : Prop :=
  ∀ n i, ¬ ((p.run (moves.take n)).stage i).Saves key

theorem Quiet.head {m : Move} {ms : List Move} (h : p.Quiet key (m :: ms)) (i : Nat) :
    ¬ (p.stage i).Saves key := h 0 i

theorem Quiet.tail {m : Move} {ms : List Move} (h : p.Quiet key (m :: ms)) :
    (p.step m).Quiet key ms := fun n i => h (n + 1) i

theorem known_run (hknown : p.store.known key = some e) (moves : List Move)
    (hquiet : p.Quiet key moves) : (p.run moves).store.known key = some e := by
  induction moves generalizing p with
  | nil => exact hknown
  | cons m ms ih => exact ih (known_step hknown hquiet.head m) hquiet.tail

theorem Finds.run {j : Nat} (h : p.Finds j key e) (hknown : p.store.known key = some e)
    (moves : List Move) (hquiet : p.Quiet key moves) : (p.run moves).Finds j key e := by
  induction moves generalizing p with
  | nil => exact h
  | cons m ms ih => exact ih (h.step hknown m) (known_step hknown hquiet.head m) hquiet.tail

theorem Quiet.append {ms ns : List Move} (h : p.Quiet key (ms ++ ns)) :
    p.Quiet key ms ∧ (p.run ms).Quiet key ns := by
  constructor
  · -- beyond the end of the first moves nothing is added to them
    intro n i
    have hn := h (min n ms.length) i
    rw [List.take_append_of_le_length (by omega)] at hn
    rcases Nat.le_total n ms.length with hle | hle
    · rwa [Nat.min_eq_left hle] at hn
    · rw [Nat.min_eq_right hle, List.take_length] at hn
      rwa [List.take_of_length_le hle]
  · intro n i
    have hn := h (ms.length + n) i
    rwa [List.take_length_add_append, run_append] at hn

/-! ## Cache and table -/

/-- Start from any table, with nothing cached and no call under way, and interleave any loads and
saves.

* Where no call is under way, what is cached for a key, be it a value or the absence of one, is
  what the table holds.
* Let save `i` of a key return, and let no save of that key be under way then or later. A load of
  the key that begins afterwards answers with the value of save `i`: it has done so, or does so
  with its next step, whatever other calls and the engine do in between. -/
theorem cache_agrees_and_load_sees_save (tables : Tables) (outages : Outages) (before : List Move) :
    ((∀ i, ¬ (((opened tables outages).run before).stage i).InFlight) →
      ∀ k e, ((opened tables outages).run before).store.known k = some e →
        e = ((opened tables outages).run before).store.setting k) ∧
    ∀ i key value, ((opened tables outages).run before).stage i = .committed key value →
      ∀ begun rest j,
        (((opened tables outages).run before).advance i).Quiet key
          (begun ++ .load j key :: rest) →
        ((((opened tables outages).run before).advance i).run begun).stage j = .unborn →
        (((((opened tables outages).run before).advance i).run
          (begun ++ .load j key :: rest)).advance j).stage j = .loaded key (value.map .text) := by
  constructor
  · intro hquiet k e he
    exact ((coherent_opened tables outages).run before).agrees hquiet he
  · intro i key value hi begun rest j hquiet hj
    have hknown := known_of_committed hi
    generalize (((opened tables outages).run before).advance i) = q at *
    rcases hquiet.append with ⟨hbegun, hload⟩
    have hknown := known_run hknown begun hbegun
    rw [run_append, run_cons]
    -- the load has begun, and nothing was done besides
    have hfinds : ((q.run begun).step (.load j key)).Finds j key (value.map .text) := by
      rw [step, if_pos hj]
      exact Or.inl (put_stage_self ..)
    have hknown := known_step hknown hload.head (.load j key)
    exact (hfinds.run hknown rest hload.tail).advance (known_run hknown rest hload.tail)

/-- A load that misses and is overtaken by a save, which has committed. -/
def overtaken : List Move :=
  [.load 0 "indexer_url", .advance 0, .advance 0,
    .save 1 "indexer_url" (some "b"), .advance 1, .advance 1]

/-- The rest: the save returns, the slow load enters what it read, and another load begins. -/
def overtakenRest : List Move :=
  [.advance 1, .advance 0, .load 2 "indexer_url", .advance 2]

/-- A slow miss keeps neither the cache nor a later load from the value of a newer save. -/
theorem slow_miss_keeps_newer_save :
    let p := (opened { settings := some {} } {}).run overtaken
    let q := (opened { settings := some {} } {}).run (overtaken ++ overtakenRest)
    (p.stage 1 = .committed "indexer_url" (some "b") ∧
      (p.advance 1).Quiet "indexer_url" ([.advance 0] ++ [.load 2 "indexer_url"]) ∧
      ((p.advance 1).run [.advance 0]).stage 2 = .unborn ∧
      (((p.advance 1).run ([.advance 0] ++ [.load 2 "indexer_url"])).advance 2).stage 2 =
        .loaded "indexer_url" (some (.text "b"))) ∧
    (∀ i, ¬ (q.stage i).InFlight) ∧
      q.store.known "indexer_url" = some (some (.text "b")) ∧
      some (.text "b") = q.store.setting "indexer_url" := by
  intro p q
  have hcommitted : p.stage 1 = .committed "indexer_url" (some "b") := rfl
  have hquiet : (p.advance 1).Quiet "indexer_url" ([.advance 0] ++ [.load 2 "indexer_url"]) := by
    intro n i
    match n, i with
    | 0, 0 | 0, 1 | 0, _ + 2 => exact id
    | 1, 0 | 1, 1 | 1, _ + 2 => exact id
    | 2, 0 | 2, 1 | 2, 2 | 2, _ + 3 => exact id
    | _ + 3, 0 | _ + 3, 1 | _ + 3, 2 | _ + 3, _ + 3 => exact id
  have hended : ∀ i, ¬ (q.stage i).InFlight := by
    intro i
    match i with
    | 0 | 1 | 2 | _ + 3 => exact id
  have hknown : q.store.known "indexer_url" = some (some (.text "b")) := by decide
  refine ⟨⟨hcommitted, hquiet, rfl, ?_⟩, hended, hknown, ?_⟩
  · exact (cache_agrees_and_load_sees_save _ _ overtaken).2 1 "indexer_url" (some "b") hcommitted
      [.advance 0] [] 2 hquiet rfl
  · exact (cache_agrees_and_load_sees_save _ _ (overtaken ++ overtakenRest)).1 hended
      "indexer_url" (some (.text "b")) hknown

end Pool

end NodeStore.Interleaving
