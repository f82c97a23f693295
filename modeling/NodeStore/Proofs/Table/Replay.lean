import Mathlib.Data.List.Nodup
import NodeStore.Proofs.Table.Upsert

/-! # Replays of upserts

Pairs with distinct keys are put into a table one after the other, and the work may be broken off
and taken up again from the first pair. What was put already is there (`has_upsertAll`), so that
putting it again changes nothing, neither values nor ids.

* `upsertAll_take_take`: two pieces of work that were broken off;
* `upsertAll_take_all`: the whole work after a piece of it. -/

namespace NodeStore.Table

variable {pairs start : List (Cell × Cell)} {t : Table (Cell × Cell)} {p : Cell × Cell}
  {k v : Cell}

/-- Puts pairs into a table, in order. -/
def upsertAll (pairs : List (Cell × Cell)) (t : Table (Cell × Cell)) : Table (Cell × Cell) :=
  pairs.foldl (fun t p => t.upsert p.1 p.2) t

theorem upsertAll_cons (p : Cell × Cell) (pairs : List (Cell × Cell)) (t : Table (Cell × Cell)) :
    upsertAll (p :: pairs) t = upsertAll pairs (t.upsert p.1 p.2) := rfl

theorem upsertAll_append (pairs rest : List (Cell × Cell)) (t : Table (Cell × Cell)) :
    upsertAll (pairs ++ rest) t = upsertAll rest (upsertAll pairs t) := List.foldl_append

/-- What a property of tables needs to stand upserts one by one. -/
theorem upsertAll_keeps {P : Table (Cell × Cell) → Prop}
    (hstep : ∀ p ∈ pairs, ∀ t, P t → P (t.upsert p.1 p.2)) (h : P t) : P (upsertAll pairs t) := by
  induction pairs generalizing t with
  | nil => exact h
  | cons p rest ih =>
    rw [upsertAll_cons]
    refine ih (fun q hq => hstep q (List.mem_cons_of_mem p hq)) ?_
    exact hstep p List.mem_cons_self t h

/-- Pairs with other keys leave what the table has. -/
theorem has_upsertAll_ne (hk : k ∉ pairs.map Prod.fst) (h : t.Has k v) :
    (upsertAll pairs t).Has k v := by
  refine upsertAll_keeps (P := fun t => t.Has k v) ?_ h
  intro p hp t ht
  refine has_upsert_ne ?_ ht
  rintro rfl
  exact hk (List.mem_map_of_mem hp)

/-- A table has all pairs that were put into it. -/
theorem has_upsertAll (hkeys : (pairs.map Prod.fst).Nodup) (hp : p ∈ pairs) :
    (upsertAll pairs t).Has p.1 p.2 := by
  rcases List.append_of_mem hp with ⟨before, after, rfl⟩
  rw [upsertAll_append, upsertAll_cons]
  refine has_upsertAll_ne ?_ (has_upsert_self p.1 p.2 _)
  rw [List.map_append, List.map_cons, List.nodup_append] at hkeys
  exact (List.nodup_cons.1 hkeys.2.1).1

/-- Putting what the table has changes nothing. -/
theorem upsertAll_of_has (h : ∀ p ∈ pairs, t.Has p.1 p.2) : upsertAll pairs t = t := by
  induction pairs with
  | nil => rfl
  | cons p rest ih =>
    rw [upsertAll_cons, upsert_of_has (h p List.mem_cons_self)]
    exact ih fun q hq => h q (List.mem_cons_of_mem p hq)

/-- A beginning that was put before makes no difference. -/
theorem upsertAll_of_isPrefix (hkeys : (pairs.map Prod.fst).Nodup) (hstart : start <+: pairs) :
    upsertAll pairs (upsertAll start t) = upsertAll pairs t := by
  rcases hstart with ⟨rest, rfl⟩
  rw [List.map_append, List.nodup_append] at hkeys
  have hagain : upsertAll start (upsertAll start t) = upsertAll start t :=
    upsertAll_of_has fun p hp => has_upsertAll hkeys.1 hp
  rw [upsertAll_append, hagain, upsertAll_append]

/-- Two pieces of work that were broken off are as good as the longer one. -/
theorem upsertAll_take_take (hkeys : (pairs.map Prod.fst).Nodup) (i j : Nat) :
    upsertAll (pairs.take j) (upsertAll (pairs.take i) t) = upsertAll (pairs.take (max i j)) t := by
  have htake : ∀ n, ((pairs.take n).map Prod.fst).Nodup := fun n =>
    hkeys.sublist ((List.take_sublist n pairs).map Prod.fst)
  rcases Nat.le_total i j with hij | hji
  · rw [Nat.max_eq_right hij]
    refine upsertAll_of_isPrefix (htake j) ?_
    exact List.take_prefix_take_left hij
  · rw [Nat.max_eq_left hji]
    refine upsertAll_of_has fun p hp => has_upsertAll (htake i) ?_
    exact (List.take_prefix_take_left hji).subset hp

/-- The whole work, after pieces of it that were broken off. -/
theorem upsertAll_take_all (hkeys : (pairs.map Prod.fst).Nodup) (i : Nat) :
    upsertAll pairs (upsertAll (pairs.take i) t) = upsertAll pairs t :=
  upsertAll_of_isPrefix hkeys (List.take_prefix i pairs)

end NodeStore.Table
