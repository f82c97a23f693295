import Mathlib.Data.Finset.Max
import Mathlib.Data.List.Induction
import NodeStore.Proofs.Assoc
import NodeStore.Proofs.Table.Upsert

/-! # What a table is read as

A reader takes rows for pairs of a key and a value, and may pass over some. Rows with different
columns may be read as the same key; of these the row with the greatest id decides (`Reads`). Edits
of the table look at the columns as they are. So an edit reaches the rows with the column that it
looks for, and what it does to the value that is read for a key depends on the rows that give the
key in another way (`Overtaken`).

* `inOrder_append`, `inOrder_deleteWhere`, `inOrder_upsert`: the ids stay in order;
* `lookup_readMap`: the map of a table in order;
* `lookup_upsert_self`, `lookup_upsert_ne`: the map after an upsert. -/

namespace NodeStore.Table

/-! ## Tables in order -/

section InOrder

variable {α : Type} {t : Table α} {r later : Row α} {before after : List (Row α)}

instance (t : Table α) : Decidable t.InOrder :=
  inferInstanceAs (Decidable (t.rows.Pairwise fun r s => r.id < s.id))

theorem inOrder_append (h : t.InOrder) (data : α) : (t.append data).InOrder := by
  unfold InOrder append
  rw [List.pairwise_append]
  refine ⟨h, List.pairwise_singleton _ _, ?_⟩
  intro r hr s hs
  rw [List.mem_singleton.1 hs]
  exact nextId_gt h hr

theorem inOrder_deleteWhere (h : t.InOrder) (p : α → Bool) : (t.deleteWhere p).InOrder :=
  h.filter _

theorem inOrder_updateWhere (h : t.InOrder) (p : α → Bool) (f : α → α) :
    (t.updateWhere p f).InOrder := by
  unfold InOrder updateWhere
  rw [List.pairwise_map]
  have hid : ∀ r : Row α, (if p r.data then (⟨r.id, f r.data⟩ : Row α) else r).id = r.id := by
    intro r
    split <;> rfl
  simp only [hid]
  exact h

theorem inOrder_upsert {t : Table (Cell × Cell)} (h : t.InOrder) (key value : Cell) :
    (t.upsert key value).InOrder := by
  unfold upsert
  split
  · exact inOrder_updateWhere h _ _
  · exact inOrder_append h _

/-- The rows before a row are those with smaller ids. -/
theorem mem_before_iff (h : t.InOrder) (hrows : t.rows = before ++ r :: after) {s : Row α} :
    s ∈ before ↔ s ∈ t.rows ∧ s.id < r.id := by
  unfold InOrder at h
  rw [hrows, List.pairwise_append, List.pairwise_cons] at h
  obtain ⟨-, ⟨hafter, -⟩, hbefore⟩ := h
  rw [hrows, List.mem_append, List.mem_cons]
  constructor
  · intro hs
    exact ⟨Or.inl hs, hbefore s hs r List.mem_cons_self⟩
  · rintro ⟨hs | rfl | hs, hlt⟩
    · exact hs
    · exact absurd hlt (Int.lt_irrefl _)
    · exact absurd (hafter s hs) (Int.lt_asymm hlt)

end InOrder

/-! ## Reading -/

variable {δ κ β : Type}

/-- A row gives the value to the key, and no row with a greater id gives the key any value. -/
def Reads (read : δ → Option (κ × β)) (rows : List (Row δ)) (k : κ) (v : β) : Prop :=
  ∃ r ∈ rows, read r.data = some (k, v) ∧
    ∀ later ∈ rows, r.id < later.id → ∀ v', read later.data ≠ some (k, v')

variable {read : δ → Option (κ × β)} {rows : List (Row δ)} {k : κ} {v : β}

/-- The last row decides if it gives the key a value. -/
theorem reads_concat {r : Row δ} (horder : (rows ++ [r]).Pairwise fun r s => r.id < s.id) :
    Reads read (rows ++ [r]) k v ↔
      read r.data = some (k, v) ∨ Reads read rows k v ∧ ∀ v', read r.data ≠ some (k, v') := by
  have hlast : ∀ s ∈ rows, s.id < r.id := fun s hs =>
    (List.pairwise_append.1 horder).2.2 s hs r List.mem_cons_self
  constructor
  · rintro ⟨s, hs, hread, hlater⟩
    rcases List.mem_append.1 hs with hs | hs
    · right
      refine ⟨⟨s, hs, hread, fun later hmem => hlater later (List.mem_append_left _ hmem)⟩, ?_⟩
      exact hlater r (List.mem_append_right _ List.mem_cons_self) (hlast s hs)
    · obtain rfl := List.mem_singleton.1 hs
      exact Or.inl hread
  · rintro (hread | ⟨⟨s, hs, hread, hlater⟩, hr⟩)
    · refine ⟨r, List.mem_append_right _ List.mem_cons_self, hread, ?_⟩
      intro later hmem hlt
      -- no row comes after the last one
      rcases List.mem_append.1 hmem with hmem | hmem
      · exact absurd hlt (Int.lt_asymm (hlast later hmem))
      · rw [List.mem_singleton.1 hmem] at hlt
        exact absurd hlt (Int.lt_irrefl _)
    · refine ⟨s, List.mem_append_left _ hs, hread, ?_⟩
      intro later hmem hlt
      rcases List.mem_append.1 hmem with hmem | hmem
      · exact hlater later hmem hlt
      · rwa [List.mem_singleton.1 hmem]

/-! ## Edits -/

section Edits

variable {t : Table (Cell × Cell)} {key value : Cell} {read : Cell × Cell → Option (κ × β)}
  {k k' : κ} {v : β} {r : Row (Cell × Cell)}

/-- A deletion leaves alone what is read for a key, if the rows that it removes are not read as the
key. -/
theorem reads_deleteWhere {p : Cell × Cell → Bool}
    (h : ∀ d v', p d = true → read d ≠ some (k, v')) :
    Reads read (t.deleteWhere p).rows k v ↔ Reads read t.rows k v := by
  have hkept : ∀ {d : Cell × Cell} {v' : β}, read d = some (k, v') → p d = false := by
    intro d v' hread
    rw [← Bool.not_eq_true]
    exact fun hp => h d v' hp hread
  constructor
  · rintro ⟨r, hr, hread, hlater⟩
    refine ⟨r, (mem_deleteWhere.1 hr).1, hread, ?_⟩
    intro later hmem hlt v' hread'
    exact hlater later (mem_deleteWhere.2 ⟨hmem, hkept hread'⟩) hlt v' hread'
  · rintro ⟨r, hr, hread, hlater⟩
    refine ⟨r, mem_deleteWhere.2 ⟨hr, hkept hread⟩, hread, ?_⟩
    intro later hmem hlt v' hread'
    exact hlater later (mem_deleteWhere.1 hmem).1 hlt v' hread'

/-- A row with the key of an upsert into a table that has the key keeps its id. -/
theorem exists_old_row (hkey : key ∈ t.keys) (hr : r ∈ (t.upsert key value).rows)
    (h : r.data.1 = key) : ∃ old ∈ t.rows, old.data.1 = key ∧ old.id = r.id := by
  rw [upsert_of_mem hkey, mem_update] at hr
  rcases hr with ⟨hne, -⟩ | ⟨old, hold, hkey, rfl⟩
  · exact absurd h hne
  · exact ⟨old, hold, hkey, rfl⟩

/-- The table has rows with a column, and after all of them one that is read as the same key though
its column is another one. -/
def Overtaken (read : Cell × Cell → Option (κ × β)) (t : Table (Cell × Cell)) (key : Cell)
    (k : κ) : Prop :=
  key ∈ t.keys ∧ ∃ late ∈ t.rows, late.data.1 ≠ key ∧ (∃ v, read late.data = some (k, v)) ∧
    ∀ r ∈ t.rows, r.data.1 = key → r.id < late.id

/-- An upsert leaves alone what is read for other keys. -/
theorem reads_upsert_ne (hkey : ∀ c k' v', read (key, c) = some (k', v') → k' = k)
    (hne : k' ≠ k) :
    Reads read (t.upsert key value).rows k' v ↔ Reads read t.rows k' v := by
  have hother : ∀ {r : Row (Cell × Cell)} {v' : β}, read r.data = some (k', v') →
      r.data.1 ≠ key := by
    intro r v' hread heq
    exact hne (hkey r.data.2 k' v' (by rw [← heq]; exact hread))
  constructor
  · rintro ⟨r, hr, hread, hlater⟩
    refine ⟨r, (mem_upsert_of_ne (hother hread)).1 hr, hread, ?_⟩
    intro later hmem hlt v' hread'
    exact hlater later ((mem_upsert_of_ne (hother hread')).2 hmem) hlt v' hread'
  · rintro ⟨r, hr, hread, hlater⟩
    refine ⟨r, (mem_upsert_of_ne (hother hread)).2 hr, hread, ?_⟩
    intro later hmem hlt v' hread'
    exact hlater later ((mem_upsert_of_ne (hother hread')).1 hmem) hlt v' hread'

/-- A key that is overtaken keeps the value that is read for it. -/
theorem reads_upsert_of_overtaken (h : Overtaken read t key k) :
    Reads read (t.upsert key value).rows k v ↔ Reads read t.rows k v := by
  rcases h with ⟨hmem, late, hlate, hlatekey, ⟨w, hw⟩, hbefore⟩
  have hlate' : late ∈ (t.upsert key value).rows := (mem_upsert_of_ne hlatekey).2 hlate
  -- rows with the column are no later than before, so that the late row still comes after them
  have hbefore' : ∀ r ∈ (t.upsert key value).rows, r.data.1 = key → r.id < late.id := by
    intro r hr heq
    rcases exists_old_row hmem hr heq with ⟨old, hold, hkey, hid⟩
    rw [← hid]
    exact hbefore old hold hkey
  constructor
  · rintro ⟨r, hr, hread, hlater⟩
    have hne : r.data.1 ≠ key := fun heq => hlater late hlate' (hbefore' r hr heq) w hw
    refine ⟨r, (mem_upsert_of_ne hne).1 hr, hread, ?_⟩
    intro later hlatermem hlt v' hread'
    by_cases heq : later.data.1 = key
    · exact hlater late hlate' (Int.lt_trans hlt (hbefore later hlatermem heq)) w hw
    · exact hlater later ((mem_upsert_of_ne heq).2 hlatermem) hlt v' hread'
  · rintro ⟨r, hr, hread, hlater⟩
    have hne : r.data.1 ≠ key := fun heq => hlater late hlate (hbefore r hr heq) w hw
    refine ⟨r, (mem_upsert_of_ne hne).2 hr, hread, ?_⟩
    intro later hlatermem hlt v' hread'
    by_cases heq : later.data.1 = key
    · exact hlater late hlate (Int.lt_trans hlt (hbefore' later hlatermem heq)) w hw
    · exact hlater later ((mem_upsert_of_ne heq).1 hlatermem) hlt v' hread'

/-- A key that is not overtaken is read as the new value. -/
theorem reads_upsert_of_not_overtaken (horder : t.InOrder) (hnew : read (key, value) = some (k, v))
    (h : ¬ Overtaken read t key k) : Reads read (t.upsert key value).rows k v := by
  by_cases hmem : key ∈ t.keys
  · -- the last of the rows with the column
    rcases mem_keys.1 hmem with ⟨r, hr, hrkey⟩
    rcases Finset.exists_max_image (t.rows.filter fun r => r.data.1 = key).toFinset Row.id
      ⟨r, by simpa using ⟨hr, hrkey⟩⟩ with ⟨top, htop, hmax⟩
    simp only [List.mem_toFinset, List.mem_filter, decide_eq_true_eq] at htop hmax
    refine ⟨⟨top.id, (key, value)⟩, ?_, hnew, ?_⟩
    · rw [upsert_of_mem hmem, mem_update]
      exact Or.inr ⟨top, htop.1, htop.2, rfl⟩
    · intro later hlater hlt v' hread
      by_cases heq : later.data.1 = key
      · rcases exists_old_row hmem hlater heq with ⟨old, hold, holdkey, hid⟩
        have hle := hmax old ⟨hold, holdkey⟩
        rw [hid] at hle
        exact absurd hlt (Int.not_lt.2 hle)
      · refine h ⟨hmem, later, (mem_upsert_of_ne heq).1 hlater, heq, ⟨v', hread⟩, ?_⟩
        intro s hs hskey
        exact Int.lt_of_le_of_lt (hmax s ⟨hs, hskey⟩) hlt
  · rw [upsert_of_not_mem hmem]
    refine ⟨⟨t.nextId, (key, value)⟩, List.mem_append_right _ List.mem_cons_self, hnew, ?_⟩
    intro later hlater hlt
    rcases List.mem_append.1 hlater with hlater | hlater
    · exact absurd hlt (Int.lt_asymm (nextId_gt horder hlater))
    · rw [List.mem_singleton.1 hlater] at hlt
      exact absurd hlt (Int.lt_irrefl _)

end Edits

/-! ## Maps -/

variable [DecidableEq κ]

/-- The map of the rows that are read. -/
def readMap (read : δ → Option (κ × β)) (rows : List (Row δ)) : List (κ × β) :=
  Assoc.ofList (rows.filterMap fun r => read r.data)

/-- What is looked up in the map of rows in order. -/
theorem lookup_readMap [BEq κ] [LawfulBEq κ] (horder : rows.Pairwise fun r s => r.id < s.id) :
    (readMap read rows).lookup k = some v ↔ Reads read rows k v := by
  -- by induction from the end of the rows, where the one stands that decides
  induction rows using List.reverseRecOn generalizing v with
  | nil => simp [readMap, Assoc.ofList, Reads]
  | append_singleton rows r ih =>
    have hrest := ih (List.pairwise_append.1 horder).1 (v := v)
    rw [reads_concat horder, ← hrest]
    unfold readMap
    rw [List.filterMap_append]
    cases hr : read r.data with
    | none => simp [hr]
    | some p =>
      rcases p with ⟨key, value⟩
      have hlast : [r].filterMap (fun r => read r.data) = [(key, value)] :=
        List.filterMap_cons_some hr
      rw [hlast, Assoc.ofList_concat, Assoc.lookup_put]
      by_cases hk : k = key
      · subst hk
        simp
      · have hne : ¬ key = k := fun heq => hk heq.symm
        simp [hk, hne]

/-- A key is found if any row is read as it. -/
theorem lookup_readMap_ne_none [BEq κ] [LawfulBEq κ] :
    (readMap read rows).lookup k ≠ none ↔ ∃ r ∈ rows, ∃ v, read r.data = some (k, v) := by
  rw [← Assoc.mem_keys_iff_lookup, readMap, Assoc.keys_ofList, List.mem_eraseDups, List.mem_map]
  constructor
  · rintro ⟨⟨_, v⟩, hp, rfl⟩
    rcases List.mem_filterMap.1 hp with ⟨r, hr, hread⟩
    exact ⟨r, hr, v, hread⟩
  · rintro ⟨r, hr, v, hread⟩
    exact ⟨(k, v), List.mem_filterMap.2 ⟨r, hr, hread⟩, rfl⟩

/-- Tables that give a key the same values are read alike at the key. -/
theorem lookup_readMap_congr [BEq κ] [LawfulBEq κ] {rows' : List (Row δ)}
    (horder : rows.Pairwise fun r s => r.id < s.id)
    (horder' : rows'.Pairwise fun r s => r.id < s.id)
    (h : ∀ v, Reads read rows' k v ↔ Reads read rows k v) :
    (readMap read rows').lookup k = (readMap read rows).lookup k := by
  apply Option.ext
  intro v
  rw [lookup_readMap horder', lookup_readMap horder, h]

section Edits

variable {t : Table (Cell × Cell)} {key value : Cell} {read : Cell × Cell → Option (κ × β)}
  {k k' : κ} {v : β}

/-- An upsert leaves alone the values of other keys. -/
theorem lookup_upsert_ne [BEq κ] [LawfulBEq κ] (horder : t.InOrder)
    (hkey : ∀ c k' v', read (key, c) = some (k', v') → k' = k) (hne : k' ≠ k) :
    (readMap read (t.upsert key value).rows).lookup k' = (readMap read t.rows).lookup k' :=
  lookup_readMap_congr horder (inOrder_upsert horder key value) fun _ => reads_upsert_ne hkey hne

/-- After an upsert the key is read as the new value, unless it is overtaken. -/
theorem lookup_upsert_self [BEq κ] [LawfulBEq κ] (horder : t.InOrder)
    (hnew : read (key, value) = some (k, v)) :
    (Overtaken read t key k → (readMap read (t.upsert key value).rows).lookup k =
      (readMap read t.rows).lookup k) ∧
    (¬ Overtaken read t key k →
      (readMap read (t.upsert key value).rows).lookup k = some v) := by
  have horder' := inOrder_upsert horder key value
  constructor
  · exact fun h => lookup_readMap_congr horder horder' fun _ => reads_upsert_of_overtaken h
  · exact fun h => (lookup_readMap horder').2 (reads_upsert_of_not_overtaken horder hnew h)

end Edits

end NodeStore.Table
