/-!
# Ordered association lists

A map that remembers the order in which its keys first came is a list of pairs with distinct
keys. `put` replaces the value of a key where the key stands, and adds a new key at the end.

* `lookup_put`: what is looked up after a `put`.
-/

namespace NodeStore.Assoc

variable {κ α : Type} [DecidableEq κ]

/-- Replaces the value of a key where it stands, or adds the pair at the end. -/
def put (key : κ) (value : α) : List (κ × α) → List (κ × α)
  | [] => [(key, value)]
  | (k, v) :: rest => if k = key then (key, value) :: rest else (k, v) :: put key value rest

/-- The map of a list of pairs: a repeated key keeps its first place and its last value. -/
def ofList (pairs : List (κ × α)) : List (κ × α) :=
  pairs.foldl (fun m (k, v) => put k v m) []

theorem lookup_put [BEq κ] [LawfulBEq κ] (key k : κ) (value : α) (m : List (κ × α)) :
    (put key value m).lookup k = if k = key then some value else m.lookup k := by
  induction m with
  | nil => grind [put]
  | cons p rest ih => grind [put]

end NodeStore.Assoc
