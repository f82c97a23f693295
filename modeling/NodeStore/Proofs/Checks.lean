import Mathlib.Data.List.Forall2

/-! # Checks in a row

A row of checks is carried out from left to right. It succeeds if every check does, and otherwise
fails as the first one that fails.

* `both_eq_ok_iff`, `both_eq_error_iff`: two checks;
* `mapM_eq_some_iff`, `mapM_eq_ok_iff`, `mapM_eq_error_iff`: one check of every element of a
  list. -/

namespace NodeStore

variable {α β ε : Type} {xs : List α} {ys : List β} {e : ε}

/-! ## Two checks -/

/-- Two checks in a row accept what both of them accept. -/
theorem both_eq_ok_iff {p : Except ε α} {q : Except ε β} {x : α} {y : β} :
    (do return (← p, ← q)) = .ok (x, y) ↔ p = .ok x ∧ q = .ok y := by
  cases p with
  | error e => simp [bind, Except.bind]
  | ok x' =>
    cases q with
    | error e => simp [bind, Except.bind]
    | ok y' => simp [bind, Except.bind, pure, Except.pure]

/-- The second of two checks counts only if the first one accepts. -/
theorem both_eq_error_iff {p : Except ε α} {q : Except ε β} :
    (do return (← p, ← q)) = .error e ↔ p = .error e ∨ (∃ x, p = .ok x) ∧ q = .error e := by
  cases p with
  | error e' => simp [bind, Except.bind]
  | ok x =>
    cases q with
    | error e' => simp [bind, Except.bind]
    | ok y => simp [bind, Except.bind, pure, Except.pure]

/-- A check whose result is used further accepts the same. -/
theorem map_eq_ok_iff {f : α → β} {p : Except ε α} {y : β} :
    p.map f = .ok y ↔ ∃ x, p = .ok x ∧ f x = y := by
  cases p <;> simp [Except.map]

/-- A check that tells its failure in other words accepts the same. -/
theorem mapError_eq_ok_iff {ε' : Type} {f : ε → ε'} {x : Except ε α} {y : α} :
    x.mapError f = .ok y ↔ x = .ok y := by
  cases x <;> simp [Except.mapError]

theorem mapError_eq_error_iff {ε' : Type} {f : ε → ε'} {x : Except ε α} {e' : ε'} :
    x.mapError f = .error e' ↔ ∃ e, x = .error e ∧ e' = f e := by
  cases x <;> simp [Except.mapError, eq_comm]

theorem toOption_eq_some_iff {x : Except ε α} {y : α} : x.toOption = some y ↔ x = .ok y := by
  cases x <;> simp [Except.toOption]

/-! ## Lists -/

theorem mapM_eq_some_iff {f : α → Option β} :
    xs.mapM f = some ys ↔ List.Forall₂ (fun x y => f x = some y) xs ys := by
  induction xs generalizing ys with
  | nil => simp [eq_comm]
  | cons x xs ih =>
    rw [List.mapM_cons, Option.bind_eq_bind, Option.bind_eq_some_iff, List.forall₂_cons_left_iff]
    simp only [Option.bind_eq_bind, Option.bind_eq_some_iff, Option.pure_def, Option.some.injEq, ih]
    constructor
    · rintro ⟨y, hy, ys, hys, rfl⟩
      exact ⟨y, ys, hy, hys, rfl⟩
    · rintro ⟨y, ys, hy, hys, rfl⟩
      exact ⟨y, hy, ys, hys, rfl⟩

variable {f : α → Except ε β}

theorem mapM_cons_of_ok {x : α} {y : β} (h : f x = .ok y) :
    (x :: xs).mapM f = (xs.mapM f).map (y :: ·) := by
  rw [List.mapM_cons, h]
  cases xs.mapM f <;> rfl

theorem mapM_cons_of_error {x : α} (h : f x = .error e) : (x :: xs).mapM f = .error e := by
  rw [List.mapM_cons, h]
  rfl

theorem mapM_eq_ok_iff :
    xs.mapM f = .ok ys ↔ List.Forall₂ (fun x y => f x = .ok y) xs ys := by
  induction xs generalizing ys with
  | nil => simp [pure, Except.pure, eq_comm]
  | cons x xs ih =>
    rw [List.forall₂_cons_left_iff]
    cases hx : f x with
    | error e => simp [mapM_cons_of_error hx]
    | ok y =>
      rw [mapM_cons_of_ok hx]
      constructor
      · intro h
        cases hxs : xs.mapM f with
        | error e => simp [hxs, Except.map] at h
        | ok ys' =>
          rw [hxs] at h
          exact ⟨y, ys', rfl, ih.1 hxs, (Except.ok.inj h).symm⟩
      · rintro ⟨y', ys', hy, hys, rfl⟩
        rw [ih.2 hys, Except.ok.inj hy]
        rfl

/-- In a list that is read every element is. -/
theorem exists_of_mapM {x : α} (h : xs.mapM f = .ok ys) (hx : x ∈ xs) : ∃ y, f x = .ok y := by
  have hall := mapM_eq_ok_iff.1 h
  clear h
  induction hall with
  | nil => simp at hx
  | cons hy _ ih =>
    rcases List.mem_cons.1 hx with rfl | hx
    · exact ⟨_, hy⟩
    · exact ih hx

/-- What is read from the elements that can be read is all of it if all of them can. -/
theorem filterMap_of_mapM (h : xs.mapM f = .ok ys) :
    xs.filterMap (fun x => (f x).toOption) = ys := by
  have hall := mapM_eq_ok_iff.1 h
  clear h
  induction hall with
  | nil => rfl
  | cons hx _ ih => rw [List.filterMap_cons_some (by rw [hx]; rfl), ih]

/-- The first element that is not read decides how the whole list fails. -/
theorem mapM_eq_error_iff : xs.mapM f = .error e ↔
    ∃ before x after, xs = before ++ x :: after ∧ (∀ y ∈ before, ∃ b, f y = .ok b) ∧
      f x = .error e := by
  induction xs with
  | nil => simp [pure, Except.pure]
  | cons x xs ih =>
    cases hx : f x with
    | error e' =>
      rw [mapM_cons_of_error hx]
      constructor
      · intro h
        exact ⟨[], x, xs, rfl, by simp, hx.trans (congrArg _ (Except.error.inj h))⟩
      · rintro ⟨before, y, after, hxs, hbefore, hy⟩
        cases before with
        | nil =>
          obtain ⟨rfl, -⟩ := List.cons.inj hxs
          rw [Except.error.inj (hx.symm.trans hy)]
        | cons z before =>
          -- an element before the one that fails would be read
          obtain ⟨rfl, -⟩ := List.cons.inj hxs
          rcases hbefore x List.mem_cons_self with ⟨b, hb⟩
          rw [hb] at hx
          simp at hx
    | ok y =>
      have htail : (x :: xs).mapM f = .error e ↔ xs.mapM f = .error e := by
        rw [mapM_cons_of_ok hx]
        cases xs.mapM f <;> simp [Except.map]
      rw [htail, ih]
      constructor
      · rintro ⟨before, z, after, rfl, hbefore, hz⟩
        exact ⟨x :: before, z, after, rfl, List.forall_mem_cons.2 ⟨⟨y, hx⟩, hbefore⟩, hz⟩
      · rintro ⟨before, z, after, hxs, hbefore, hz⟩
        cases before with
        | nil =>
          obtain ⟨rfl, -⟩ := List.cons.inj hxs
          rw [hx] at hz
          simp at hz
        | cons w before =>
          obtain ⟨rfl, rfl⟩ := List.cons.inj hxs
          exact ⟨before, z, after, rfl, fun v hv => hbefore v (List.mem_cons_of_mem _ hv), hz⟩

end NodeStore
