import NodeStore.Table.Basic

/-! # Upserts

A table with a key column is a map from keys to values. An upsert changes the value of its key and
of no other, and a row keeps its id for as long as it is there.

* `valueOf_upsert`: the values after an upsert;
* `keys_upsert`, `mem_upsert`, `row_upsert`: the rows after an upsert;
* `mem_deleteWhere`: the rows after a deletion;
* `upsert_of_has`: an upsert of what a table has changes nothing. -/

namespace NodeStore.Table

variable {key k value v : Cell}

/-- Changing the rows with a key changes what is found for that key, if anything is. -/
theorem find_update (key k value : Cell) (rows : List (Row (Cell × Cell))) :
    ((rows.map fun r => if r.data.1 == key then ⟨r.id, (r.data.1, value)⟩ else r).find?
        fun r => r.data.1 == k).map (fun r => r.data.2) =
      if k = key then (rows.find? fun r => r.data.1 == key).map fun _ => value
      else (rows.find? fun r => r.data.1 == k).map fun r => r.data.2 := by
  induction rows with
  | nil => simp
  | cons r rest ih =>
    rw [List.map_cons, List.find?_cons, List.find?_cons, List.find?_cons]
    by_cases hr : r.data.1 = key
    · by_cases hk : k = key
      · simp [hr, hk]
      · have hne : (key == k) = false := by simpa using fun h : key = k => hk h.symm
        simpa [hr, hne, hk] using ih
    · have hr' : (r.data.1 == key) = false := by simpa using hr
      by_cases hk : r.data.1 = k
      · have hne : ¬ k = key := fun h => hr (hk.trans h)
        simp [hk, hne]
      · have hk' : (r.data.1 == k) = false := by simpa using hk
        simp only [hr', hk', Bool.false_eq_true, if_false]
        exact ih

/-- An upsert gives its key the value and leaves every other key as it was. -/
theorem valueOf_upsert (t : Table (Cell × Cell)) :
    (t.upsert key value).valueOf? k = if k = key then some value else t.valueOf? k := by
  unfold upsert valueOf? find?
  split
  · rename_i hany
    have hsome : (t.rows.find? fun r => r.data.1 == key).isSome := by
      rw [List.find?_isSome]
      exact List.any_eq_true.1 hany
    rcases Option.isSome_iff_exists.1 hsome with ⟨row, hrow⟩
    have h := find_update key k value t.rows
    rw [hrow] at h
    exact h
  · rename_i hany
    have hnone : t.rows.find? (fun r => r.data.1 == key) = none := by
      rw [List.find?_eq_none]
      intro r hr hk
      exact hany (List.any_eq_true.2 ⟨r, hr, hk⟩)
    by_cases hk : k = key
    · subst hk
      simp [append, List.find?_append, hnone]
    · have hne : (key == k) = false := by simpa using fun h : key = k => hk h.symm
      simp [append, List.find?_append, hne, hk]

/-! ## Rows -/

variable {t : Table (Cell × Cell)} {r : Row (Cell × Cell)}

/-- The keys of the rows, in the order of the rows. -/
def keys (t : Table (Cell × Cell)) : List Cell :=
  t.rows.map fun r => r.data.1

theorem mem_keys : key ∈ t.keys ↔ ∃ r ∈ t.rows, r.data.1 = key := List.mem_map

theorem any_key_iff : (t.rows.any fun r => r.data.1 == key) = true ↔ key ∈ t.keys := by
  rw [List.any_eq_true, mem_keys]
  simp

theorem upsert_of_mem (h : key ∈ t.keys) :
    t.upsert key value = t.updateWhere (fun d => d.1 == key) fun d => (d.1, value) := by
  unfold upsert
  rw [if_pos (any_key_iff.2 h)]

theorem upsert_of_not_mem (h : key ∉ t.keys) : t.upsert key value = t.append (key, value) := by
  unfold upsert
  rw [if_neg (fun hany => h (any_key_iff.1 hany))]

/-- A row of the changed table is a row of the old one, or its key is the one that was changed. -/
theorem mem_update : r ∈ (t.updateWhere (fun d => d.1 == key) fun d => (d.1, value)).rows ↔
    r.data.1 ≠ key ∧ r ∈ t.rows ∨
      ∃ old ∈ t.rows, old.data.1 = key ∧ r = ⟨old.id, (key, value)⟩ := by
  unfold updateWhere
  rw [List.mem_map]
  constructor
  · rintro ⟨old, hold, rfl⟩
    by_cases hkey : old.data.1 = key
    · refine Or.inr ⟨old, hold, hkey, ?_⟩
      simp [hkey]
    · have hne : (old.data.1 == key) = false := by simpa using hkey
      simp only [hne, Bool.false_eq_true, if_false]
      exact Or.inl ⟨hkey, hold⟩
  · rintro (⟨hkey, hr⟩ | ⟨old, hold, hkey, rfl⟩)
    · exact ⟨r, hr, by simp [hkey]⟩
    · exact ⟨old, hold, by simp [hkey]⟩

/-- The keys after an upsert: a new one comes last. -/
theorem keys_upsert (key value : Cell) (t : Table (Cell × Cell)) :
    (t.upsert key value).keys = if key ∈ t.keys then t.keys else t.keys ++ [key] := by
  split
  · rename_i h
    rw [upsert_of_mem h]
    unfold keys updateWhere
    rw [List.map_map]
    refine List.map_congr_left fun r _ => ?_
    rw [Function.comp_apply]
    split <;> rfl
  · rename_i h
    rw [upsert_of_not_mem h]
    exact List.map_append

theorem nodup_keys_upsert (h : t.keys.Nodup) : (t.upsert key value).keys.Nodup := by
  rw [keys_upsert]
  split
  · exact h
  · rename_i hkey
    rw [List.nodup_append]
    refine ⟨h, by simp, ?_⟩
    intro k hk k' hk'
    rw [List.mem_singleton.1 hk']
    rintro rfl
    exact hkey hk

/-- Rows with other keys are those that were there. -/
theorem mem_upsert_of_ne (h : r.data.1 ≠ key) :
    r ∈ (t.upsert key value).rows ↔ r ∈ t.rows := by
  by_cases hkey : key ∈ t.keys
  · rw [upsert_of_mem hkey, mem_update]
    constructor
    · rintro (⟨-, hr⟩ | ⟨old, -, -, rfl⟩)
      · exact hr
      · exact absurd rfl h
    · exact fun hr => Or.inl ⟨h, hr⟩
  · rw [upsert_of_not_mem hkey]
    unfold append
    rw [List.mem_append, List.mem_singleton]
    constructor
    · rintro (hr | rfl)
      · exact hr
      · exact absurd rfl h
    · exact Or.inl

/-- A row with the key has the value. -/
theorem value_of_mem_upsert (hr : r ∈ (t.upsert key value).rows) (h : r.data.1 = key) :
    r.data.2 = value := by
  by_cases hkey : key ∈ t.keys
  · rw [upsert_of_mem hkey, mem_update] at hr
    rcases hr with ⟨hne, -⟩ | ⟨old, -, -, rfl⟩
    · exact absurd h hne
    · rfl
  · rw [upsert_of_not_mem hkey] at hr
    unfold append at hr
    rw [List.mem_append, List.mem_singleton] at hr
    rcases hr with hr | rfl
    · exact absurd (mem_keys.2 ⟨r, hr, h⟩) hkey
    · rfl

/-- The pairs in the rows after an upsert. -/
theorem mem_upsert {d : Cell × Cell} :
    (∃ r ∈ (t.upsert key value).rows, r.data = d) ↔
      d = (key, value) ∨ d.1 ≠ key ∧ ∃ r ∈ t.rows, r.data = d := by
  constructor
  · rintro ⟨r, hr, rfl⟩
    by_cases hkey : r.data.1 = key
    · exact Or.inl (Prod.ext hkey (value_of_mem_upsert hr hkey))
    · exact Or.inr ⟨hkey, r, (mem_upsert_of_ne hkey).1 hr, rfl⟩
  · rintro (rfl | ⟨hkey, r, hr, rfl⟩)
    · have hmem : key ∈ (t.upsert key value).keys := by
        rw [keys_upsert]
        split
        · assumption
        · exact List.mem_append_right _ List.mem_cons_self
      rcases mem_keys.1 hmem with ⟨r, hr, hkey⟩
      exact ⟨r, hr, Prod.ext hkey (value_of_mem_upsert hr hkey)⟩
    · exact ⟨r, (mem_upsert_of_ne hkey).2 hr, rfl⟩

/-- A row that was there still is, under the same id and the same key. -/
theorem row_upsert (key value : Cell) (hr : r ∈ t.rows) :
    ∃ r' ∈ (t.upsert key value).rows, r'.id = r.id ∧ r'.data.1 = r.data.1 := by
  by_cases h : r.data.1 = key
  · refine ⟨⟨r.id, (key, value)⟩, ?_, rfl, h.symm⟩
    rw [upsert_of_mem (mem_keys.2 ⟨r, hr, h⟩), mem_update]
    exact Or.inr ⟨r, hr, h, rfl⟩
  · exact ⟨r, (mem_upsert_of_ne h).2 hr, rfl, rfl⟩

/-- The rows that are left after a deletion. -/
theorem mem_deleteWhere {α : Type} {p : α → Bool} {t : Table α} {r : Row α} :
    r ∈ (t.deleteWhere p).rows ↔ r ∈ t.rows ∧ p r.data = false := by
  unfold deleteWhere
  rw [List.mem_filter, Bool.not_eq_true']

/-! ## What a table has -/

/-- The table has a row with the key, and the value in it. -/
def Has (t : Table (Cell × Cell)) (key value : Cell) : Prop :=
  key ∈ t.keys ∧ ∀ r ∈ t.rows, r.data.1 = key → r.data.2 = value

theorem has_upsert_self (key value : Cell) (t : Table (Cell × Cell)) :
    (t.upsert key value).Has key value := by
  refine ⟨?_, fun r hr => value_of_mem_upsert hr⟩
  rcases mem_upsert.2 (Or.inl (Eq.refl (key, value))) with ⟨r, hr, hdata⟩
  exact mem_keys.2 ⟨r, hr, congrArg Prod.fst hdata⟩

/-- An upsert leaves what the table has for other keys. -/
theorem has_upsert_ne (hne : k ≠ key) (h : t.Has k v) : (t.upsert key value).Has k v := by
  constructor
  · rw [keys_upsert]
    split
    · exact h.1
    · exact List.mem_append_left _ h.1
  · intro r hr hk
    have hold : r ∈ t.rows := (mem_upsert_of_ne (by rwa [hk])).1 hr
    exact h.2 r hold hk

/-- What a table has need not be put into it. -/
theorem upsert_of_has (h : t.Has key value) : t.upsert key value = t := by
  rw [upsert_of_mem h.1]
  unfold updateWhere
  have hsame : (t.rows.map fun r => if r.data.1 == key then ⟨r.id, (r.data.1, value)⟩ else r) =
      t.rows := by
    refine (List.map_congr_left fun r hr => ?_).trans (List.map_id _)
    by_cases hkey : r.data.1 = key
    · rw [if_pos (by simpa using hkey), ← h.2 r hr hkey]
      rfl
    · rw [if_neg (by simpa using hkey)]
      rfl
  rw [hsame]

end NodeStore.Table
