import NodeStore.Cell

/-!
# Tables

A table is a list of rows in the order of their ids. A new row gets the id after the highest in
the table, 1 in an empty one. A table may also remember the highest id it ever gave; it then
never gives an id again. In a table with a key column no two rows have the same key.

* `nextId_gt`: in a table that is in order, a new id is above every id in use.
-/

namespace NodeStore

/-- A row: its id and its columns. -/
structure Row (α : Type) where
  id : Int
  data : α
deriving DecidableEq, Repr

/-- A table. -/
structure Table (α : Type) where
  rows : List (Row α) := []
  /-- The highest id that was ever given, if the table remembers it. -/
  lastId : Option Int := none
deriving DecidableEq, Repr

namespace Table

variable {α : Type}

/-- The ids increase from row to row. -/
def InOrder (t : Table α) : Prop :=
  t.rows.Pairwise fun r s => r.id < s.id

/-- The id after the last row. -/
def idAfter (rows : List (Row α)) : Int :=
  match rows.getLast? with
  | some r => r.id + 1
  | none => 1

/-- The id of the next row. Ids have no highest one here, where an engine has 64 bits for them. -/
def nextId (t : Table α) : Int :=
  match t.lastId with
  | none => idAfter t.rows
  | some n => max (idAfter t.rows) (n + 1)

/-- Adds a row. -/
def append (t : Table α) (data : α) : Table α where
  rows := t.rows ++ [⟨t.nextId, data⟩]
  lastId := t.lastId.map fun _ => t.nextId

/-- Removes the rows with a property. -/
def deleteWhere (p : α → Bool) (t : Table α) : Table α :=
  { t with rows := t.rows.filter fun r => !p r.data }

/-- The number of rows with a property. -/
def countWhere (p : α → Bool) (t : Table α) : Nat :=
  t.rows.countP fun r => p r.data

/-- Changes the rows with a property; they keep their ids. -/
def updateWhere (p : α → Bool) (f : α → α) (t : Table α) : Table α :=
  { t with rows := t.rows.map fun r => if p r.data then ⟨r.id, f r.data⟩ else r }

/-- The first row with a property. -/
def find? (p : α → Bool) (t : Table α) : Option (Row α) :=
  t.rows.find? fun r => p r.data

/-- The row with an id. -/
def withId? (id : Int) (t : Table α) : Option (Row α) :=
  t.rows.find? fun r => r.id == id

/-- Gives the row with a key a value, or adds such a row. -/
def upsert (key value : Cell) (t : Table (Cell × Cell)) : Table (Cell × Cell) :=
  if t.rows.any fun r => r.data.1 == key then
    t.updateWhere (fun d => d.1 == key) fun d => (d.1, value)
  else t.append (key, value)

/-- The value of a key. -/
def valueOf? (key : Cell) (t : Table (Cell × Cell)) : Option Cell :=
  (t.find? fun d => d.1 == key).map fun r => r.data.2

theorem nextId_gt {t : Table α} (h : t.InOrder) {r : Row α} (hr : r ∈ t.rows) :
    r.id < t.nextId := by
  have hlast : r.id < idAfter t.rows := by
    obtain ⟨front, last, hrows⟩ : ∃ front last, t.rows = front ++ [last] := by
      rcases List.eq_nil_or_concat t.rows with h0 | ⟨front, last, h1⟩
      · simp [h0] at hr
      · exact ⟨front, last, by simpa using h1⟩
    have hle : r.id ≤ last.id := by
      unfold InOrder at h
      rw [hrows, List.pairwise_append] at h
      rw [hrows, List.mem_append, List.mem_singleton] at hr
      rcases hr with hr | rfl
      · exact Int.le_of_lt (h.2.2 r hr last (by simp))
      · exact Int.le_refl _
    simp only [idAfter, hrows, List.getLast?_append, List.getLast?_singleton]
    simp only [Option.some_or]
    omega
  unfold nextId
  split <;> omega

end Table

end NodeStore
