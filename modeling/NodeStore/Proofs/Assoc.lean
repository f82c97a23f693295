import Mathlib.Data.List.Induction
import Mathlib.Data.List.Nodup
import NodeStore.Assoc

/-! # Maps of lists of pairs

`Assoc.ofList` puts the pairs of a list one after the other. What comes of it is said here without
`put`: every key stands where it first came, and has the value that it was last given. Where the
keys are distinct nothing changes.

* `keys_ofList`, `nodup_ofList`: the keys, in order and without repetition;
* `lookup_ofList`: the value of a key is the last one;
* `ofList_of_nodup`: a list that is a map already;
* `exists_last_concat`: what is said last, and not taken back.
-/

namespace NodeStore.Assoc

variable {κ α : Type} [DecidableEq κ] {key k : κ} {value v : α} {m pairs : List (κ × α)}

/-! ## One pair -/

theorem keys_put (key : κ) (value : α) (m : List (κ × α)) :
    (put key value m).map Prod.fst =
      if key ∈ m.map Prod.fst then m.map Prod.fst else m.map Prod.fst ++ [key] := by
  induction m with
  | nil => rfl
  | cons p rest ih =>
    rcases p with ⟨k, v⟩
    rw [put]
    by_cases hk : k = key
    · simp [hk]
    · rw [if_neg hk, List.map_cons, List.map_cons, ih]
      have hne : ¬ key = k := fun h => hk h.symm
      by_cases hmem : key ∈ rest.map Prod.fst
      · rw [if_pos hmem, if_pos (List.mem_cons_of_mem k hmem)]
      · rw [if_neg hmem, if_neg (List.not_mem_cons_of_ne_of_not_mem hne hmem), List.cons_append]

/-- A map stays one. -/
theorem nodup_put (key : κ) (value : α) (h : (m.map Prod.fst).Nodup) :
    ((put key value m).map Prod.fst).Nodup := by
  rw [keys_put]
  split
  · exact h
  · rename_i hkey
    rw [List.nodup_append]
    refine ⟨h, List.nodup_singleton _, ?_⟩
    intro k hk k' hk'
    rw [List.mem_singleton.1 hk']
    rintro rfl
    exact hkey hk

/-- A key that is not there is added at the end. -/
theorem put_of_not_mem (h : key ∉ m.map Prod.fst) : put key value m = m ++ [(key, value)] := by
  induction m with
  | nil => rfl
  | cons p rest ih =>
    rcases p with ⟨k, v⟩
    rw [List.map_cons, List.mem_cons, not_or] at h
    rw [put, if_neg (fun hk => h.1 hk.symm), ih h.2, List.cons_append]

theorem mem_of_mem_put {p : κ × α} (h : p ∈ put key value m) : p = (key, value) ∨ p ∈ m := by
  induction m with
  | nil => exact Or.inl (List.mem_singleton.1 h)
  | cons q rest ih =>
    rcases q with ⟨k, v⟩
    rw [put] at h
    split at h
    · rcases List.mem_cons.1 h with rfl | h
      · exact Or.inl rfl
      · exact Or.inr (List.mem_cons_of_mem _ h)
    · rcases List.mem_cons.1 h with rfl | h
      · exact Or.inr List.mem_cons_self
      · exact (ih h).imp_right (List.mem_cons_of_mem _)

/-! ## Lists of pairs -/

theorem ofList_concat (pairs : List (κ × α)) (p : κ × α) :
    ofList (pairs ++ [p]) = put p.1 p.2 (ofList pairs) := by
  unfold ofList
  rw [List.foldl_append]
  rfl

/-- The keys are in the order in which they first came. -/
theorem keys_ofList [BEq κ] [LawfulBEq κ] (pairs : List (κ × α)) :
    (ofList pairs).map Prod.fst = (pairs.map Prod.fst).eraseDups := by
  induction pairs using List.reverseRecOn with
  | nil => rfl
  | append_singleton pairs p ih =>
    rw [ofList_concat, keys_put, ih, List.map_append, List.eraseDups_append, List.map_singleton]
    by_cases hp : p.1 ∈ pairs.map Prod.fst
    · rw [if_pos (List.mem_eraseDups.2 hp)]
      have hnone : [p.1].removeAll (pairs.map Prod.fst) = [] := by
        simpa [List.removeAll] using hp
      rw [hnone, List.eraseDups_nil, List.append_nil]
    · rw [if_neg (fun h => hp (List.mem_eraseDups.1 h))]
      have hall : [p.1].removeAll (pairs.map Prod.fst) = [p.1] := by
        simpa [List.removeAll] using hp
      rw [hall]
      rfl

theorem nodup_ofList (pairs : List (κ × α)) : ((ofList pairs).map Prod.fst).Nodup := by
  induction pairs using List.reverseRecOn with
  | nil => exact List.nodup_nil
  | append_singleton pairs p ih =>
    rw [ofList_concat]
    exact nodup_put p.1 p.2 ih

/-- A list whose repetitions are erased has none: it is the keys of a map. -/
theorem nodup_eraseDups [BEq κ] [LawfulBEq κ] (ks : List κ) : ks.eraseDups.Nodup := by
  have h := nodup_ofList (ks.map fun k => (k, ()))
  have hkeys : (ks.map fun k => (k, ())).map Prod.fst = ks := by
    rw [List.map_map]
    exact List.map_id ks
  rwa [keys_ofList, hkeys] at h

/-- The value of a key is the last one that it was given. -/
theorem lookup_ofList [BEq κ] [LawfulBEq κ] (k : κ) (pairs : List (κ × α)) :
    (ofList pairs).lookup k = pairs.reverse.lookup k := by
  induction pairs using List.reverseRecOn with
  | nil => rfl
  | append_singleton pairs p ih =>
    rcases p with ⟨key, value⟩
    rw [ofList_concat, lookup_put, ih, List.reverse_concat, List.lookup_cons]
    by_cases hk : k = key
    · simp [hk]
    · rw [if_neg hk, beq_false_of_ne hk]

theorem mem_of_mem_ofList {p : κ × α} (h : p ∈ ofList pairs) : p ∈ pairs := by
  induction pairs using List.reverseRecOn with
  | nil => exact h
  | append_singleton pairs q ih =>
    rw [ofList_concat] at h
    rcases mem_of_mem_put h with rfl | h
    · exact List.mem_append_right _ List.mem_cons_self
    · exact List.mem_append_left _ (ih h)

/-- A list of pairs with distinct keys is a map. -/
theorem ofList_of_nodup (h : (pairs.map Prod.fst).Nodup) : ofList pairs = pairs := by
  induction pairs using List.reverseRecOn with
  | nil => rfl
  | append_singleton pairs p ih =>
    rw [List.map_append, List.nodup_append] at h
    rw [ofList_concat, ih h.1, put_of_not_mem]
    intro hp
    exact h.2.2 p.1 hp p.1 List.mem_cons_self rfl

/-! ## Entries and values -/

/-- What is looked up is there under its key. -/
theorem mem_keys_iff_lookup [BEq κ] [LawfulBEq κ] (k : κ) (m : List (κ × α)) :
    k ∈ m.map Prod.fst ↔ m.lookup k ≠ none := by
  rw [ne_eq, List.lookup_eq_none_iff, List.mem_map]
  constructor
  · rintro ⟨p, hp, rfl⟩ hnone
    simpa using hnone p hp
  · intro h
    apply Decidable.byContradiction
    intro hnot
    refine h fun p hp => ?_
    simpa using fun hk : k = p.1 => hnot ⟨p, hp, hk.symm⟩

/-- In a map the entries are what its look-up finds. -/
theorem mem_iff_lookup [BEq κ] [LawfulBEq κ] (h : (m.map Prod.fst).Nodup) :
    (k, v) ∈ m ↔ m.lookup k = some v := by
  induction m with
  | nil => simp
  | cons p rest ih =>
    rcases p with ⟨key, value⟩
    rw [List.map_cons, List.nodup_cons] at h
    rw [List.lookup_cons, List.mem_cons, ih h.2]
    by_cases hk : k = key
    · subst hk
      have hrest : rest.lookup k = none := by
        rw [List.lookup_eq_none_iff]
        intro p hp
        have hne : k ≠ p.1 := fun heq => h.1 (List.mem_map.2 ⟨p, hp, heq.symm⟩)
        simpa using hne
      rw [hrest]
      simp [eq_comm]
    · rw [beq_false_of_ne hk]
      simp [hk]

/-! ## The last word -/

/-- An element has a property, and all later ones have another one. When an element is added to the
list, it decides. -/
theorem exists_last_concat {β : Type} {P Q : β → Prop} {xs : List β} {x : β} :
    (∃ before y after, xs ++ [x] = before ++ y :: after ∧ P y ∧ ∀ later ∈ after, Q later) ↔
      P x ∨ (∃ before y after, xs = before ++ y :: after ∧ P y ∧ ∀ later ∈ after, Q later) ∧
        Q x := by
  constructor
  · rintro ⟨before, y, after, hxs, hy, hafter⟩
    rcases List.eq_nil_or_concat after with rfl | ⟨rest, last, rfl⟩
    · obtain ⟨-, rfl⟩ := List.append_singleton_inj.1 hxs
      exact Or.inl hy
    · rw [List.concat_eq_append, ← List.cons_append, ← List.append_assoc] at hxs
      obtain ⟨rfl, rfl⟩ := List.append_singleton_inj.1 hxs
      rw [List.concat_eq_append, List.forall_mem_append, List.forall_mem_singleton] at hafter
      exact Or.inr ⟨⟨before, y, rest, rfl, hy, hafter.1⟩, hafter.2⟩
  · rintro (hx | ⟨⟨before, y, after, rfl, hy, hafter⟩, hx⟩)
    · exact ⟨xs, x, [], rfl, hx, by simp⟩
    · refine ⟨before, y, after ++ [x], by simp, hy, ?_⟩
      rw [List.forall_mem_append, List.forall_mem_singleton]
      exact ⟨hafter, hx⟩

end NodeStore.Assoc
