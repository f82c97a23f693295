import Mathlib.Data.List.Forall2
import NodeStore.Proofs.Store.Settings

/-! # Loads that pass over malformed rows

The loads of channel ids and of revoked tokens go through their rows in the same way: what a row
stands for is kept, and a row that is malformed is passed over with a warning. `keepRows` is this
walk for any check of a row.

* `keepChannelIds_eq`, `keepRevoked_eq`: both loads are this walk;
* `exec_keepRows`: what is kept and what is logged;
* `forall₂_problems`: there is one warning for each malformed row, in their order. -/

namespace NodeStore.Store

open Op

variable {α β : Type}

/-- Keeps what some rows stand for; each malformed row is logged. -/
def keepRows (check : α → RowCheck β) : List (Row α) → StoreM (List β)
  | [] => return []
  | r :: rest => do
    match check r.data with
    | .ok b => return b :: (← keepRows check rest)
    | .error problem =>
      log LogLevel.warning problem.message
      keepRows check rest

/-- The check of a row of the table of channel ids. -/
def checkPair (d : Cell × Cell) : RowCheck (Bytes × Bytes) :=
  RowCheck.channelIds d.1.toValue d.2.toValue

/-- The check of a row of the table of revoked tokens. -/
def checkToken (d : Cell) : RowCheck Bytes :=
  RowCheck.revocationId d.toValue

theorem keepChannelIds_eq (rows : List (Row (Cell × Cell))) :
    keepChannelIds rows = keepRows checkPair rows := by
  induction rows with
  | nil => rfl
  | cons r rest ih =>
    rw [keepChannelIds, keepRows, ih, checkPair]
    cases RowCheck.channelIds r.data.1.toValue r.data.2.toValue <;> rfl

theorem keepRevoked_eq (rows : List (Row Cell)) : keepRevoked rows = keepRows checkToken rows := by
  induction rows with
  | nil => rfl
  | cons r rest ih =>
    rw [keepRevoked, keepRows, ih, checkToken]
    cases RowCheck.revocationId r.data.toValue <;> rfl

/-! ## What is kept and what is logged -/

/-- What the well-formed ones of some rows stand for. -/
def kept (check : α → RowCheck β) (rows : List (Row α)) : List β :=
  rows.filterMap fun r => (check r.data).toOption

/-- What is wrong with the malformed ones of some rows. -/
def problems (check : α → RowCheck β) (rows : List (Row α)) : List RowProblem :=
  rows.filterMap fun r =>
    match check r.data with
    | .ok _ => none
    | .error problem => some problem

/-- The warning of a problem. -/
def warning (problem : RowProblem) : LogLine :=
  ⟨LogLevel.warning, subsystem, problem.message⟩

variable {check : α → RowCheck β} {r : Row α} {rest : List (Row α)} {b : β} {problem : RowProblem}

theorem kept_cons_of_ok (h : check r.data = .ok b) :
    kept check (r :: rest) = b :: kept check rest := by
  unfold kept
  rw [List.filterMap_cons_some (by rw [h]; rfl)]

theorem kept_cons_of_error (h : check r.data = .error problem) :
    kept check (r :: rest) = kept check rest := by
  unfold kept
  rw [List.filterMap_cons_none (by rw [h]; rfl)]

theorem problems_cons_of_ok (h : check r.data = .ok b) :
    problems check (r :: rest) = problems check rest := by
  unfold problems
  rw [List.filterMap_cons_none (by rw [h])]

theorem problems_cons_of_error (h : check r.data = .error problem) :
    problems check (r :: rest) = problem :: problems check rest := by
  unfold problems
  rw [List.filterMap_cons_some (by rw [h])]

/-- The walk changes nothing but the log, to which it adds the warnings. -/
theorem exec_keepRows (check : α → RowCheck β) (rows : List (Row α)) (s : StoreState) :
    exec (keepRows check rows) s =
      (.ok (kept check rows), { s with log := s.log ++ (problems check rows).map warning }) := by
  induction rows generalizing s with
  | nil =>
    show (_, s) = _
    simp [kept, problems]
  | cons r rest ih =>
    rw [keepRows]
    cases hr : check r.data with
    | ok b =>
      rw [kept_cons_of_ok hr, problems_cons_of_ok hr]
      exact exec_bind_of_ok (ih s)
    | error problem =>
      rw [kept_cons_of_error hr, problems_cons_of_error hr]
      -- the warning is logged before those of the rows that follow
      unfold log
      rw [exec_modify_bind, ih, List.map_cons, ← List.append_cons]
      rfl

/-! ## Malformed rows -/

variable {malformed : α → Bool} (h : ∀ d, malformed d = true ↔ ∃ problem, check d = .error problem)
include h

theorem not_malformed_iff {d : α} : malformed d = false ↔ ∃ b, check d = .ok b := by
  rw [← Bool.not_eq_true, h]
  cases check d with
  | ok b => simp
  | error problem => simp

/-- There is one problem for each malformed row, in the order of the rows. -/
theorem forall₂_problems (rows : List (Row α)) :
    List.Forall₂ (fun r problem => check r.data = .error problem)
      (rows.filter fun r => malformed r.data) (problems check rows) := by
  induction rows with
  | nil => exact .nil
  | cons r rest ih =>
    cases hr : check r.data with
    | ok b =>
      rw [problems_cons_of_ok hr, List.filter_cons_of_neg]
      · exact ih
      · rw [Bool.not_eq_true, not_malformed_iff h]
        exact ⟨b, hr⟩
    | error problem =>
      have hmalformed : malformed r.data = true := (h _).2 ⟨problem, hr⟩
      rw [problems_cons_of_error hr, List.filter_cons_of_pos (by exact hmalformed)]
      exact .cons hr ih

/-- What is kept does not depend on the malformed rows. -/
theorem kept_deleteWhere (t : Table α) :
    kept check (t.deleteWhere malformed).rows = kept check t.rows := by
  unfold Table.deleteWhere
  induction t.rows with
  | nil => rfl
  | cons r rest ih =>
    cases hr : check r.data with
    | ok b =>
      rw [List.filter_cons_of_pos, kept_cons_of_ok hr, kept_cons_of_ok hr, ih]
      rw [(not_malformed_iff h).2 ⟨b, hr⟩]
      rfl
    | error problem =>
      rw [List.filter_cons_of_neg, kept_cons_of_error hr, ih]
      rw [(h _).2 ⟨problem, hr⟩]
      decide

end NodeStore.Store
