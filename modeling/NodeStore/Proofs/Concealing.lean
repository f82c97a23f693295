import NodeStore.Proofs.Rules

/-! # Two operations that tell the same

Two operations may differ in what they are given. `Conceal R I I'` says that they do not tell in
which: whenever they end alike, that is, both succeed or both fail with failures of one kind, they
fail with the same failure, and leave states that are related. What each of the two needs of the
state that it starts in stands beside the relation (`I`, `I'`).

* `Conceal.map`, `Conceal.bind`, `Conceal.bind_last`: operations that are built of others. -/

namespace NodeStore

open Op

/-! ## Two operations that end alike -/

/-- The failure that an answer is, if it is one. -/
def failureOf {α : Type} : Except Failure α → Option Failure
  | .error e => some e
  | .ok _ => none

@[simp] theorem failureOf_error {α : Type} (e : Failure) :
    failureOf (.error e : Except Failure α) = some e := rfl

@[simp] theorem failureOf_ok {α : Type} (a : α) :
    failureOf (.ok a : Except Failure α) = none := rfl

/-- Both succeed, or both fail with failures of one kind. -/
def EndAlike {α β : Type} (r : Except Failure α) (r' : Except Failure β) : Prop :=
  (failureOf r).map Failure.kind? = (failureOf r').map Failure.kind?

namespace Op

variable {σ α α' β β' : Type} {R : σ → σ → Prop} {I I' : σ → Prop} {op : Op σ α} {op' : Op σ α'}

/-- If two operations end alike from states that are related, the first with one property and the
second with another, they end with the same failure or none, and leave states that are related. -/
def Conceal (R : σ → σ → Prop) (I I' : σ → Prop) (op : Op σ α) (op' : Op σ α') : Prop :=
  ∀ s s', R s s' → I s → I' s' → EndAlike (exec op s).1 (exec op' s').1 →
    failureOf (exec op s).1 = failureOf (exec op' s').1 ∧ R (exec op s).2 (exec op' s').2

theorem Agree.conceal {op : Op σ α} (h : Agree R op) : Conceal R I I' op op := by
  intro s s' hs _ _ _
  rcases h s s' hs with ⟨hanswer, hstates⟩
  exact ⟨by rw [hanswer], hstates⟩

/-- The answers do not matter. -/
theorem Conceal.map (h : Conceal R I I' op op') (f : α → β) (f' : α' → β') :
    Conceal R I I' (f <$> op) (f' <$> op') := by
  have hfailure : ∀ {α β : Type} (f : α → β) (r : Except Failure α),
      failureOf (r.map f) = failureOf r := by
    intro α β f r
    cases r <;> rfl
  intro s s' hs hI hI' hends
  rw [exec_map, exec_map] at hends ⊢
  unfold EndAlike at hends
  simp only [hfailure] at hends ⊢
  exact h s s' hs hI hI' hends

theorem conceal_pure (a : α) (a' : α') : Conceal R I I' (pure a : Op σ α) (pure a' : Op σ α') :=
  fun _ _ hs _ _ _ => ⟨rfl, hs⟩

theorem conceal_liftExcept {x : Except Failure α} {x' : Except Failure α'}
    (h : ∀ s s', I s → I' s' → ∀ e e', x = .error e → x' = .error e' → e.kind? = e'.kind? →
      e = e') : Conceal R I I' (liftM x : Op σ α) (liftM x' : Op σ α') := by
  intro s s' hs hI hI' hends
  rw [exec_liftExcept, exec_liftExcept] at hends ⊢
  refine ⟨?_, hs⟩
  cases x with
  | ok a =>
    cases x' with
    | ok a' => rfl
    | error e' => simp [EndAlike] at hends
  | error e =>
    cases x' with
    | ok a' => simp [EndAlike] at hends
    | error e' =>
      simp only [EndAlike, failureOf_error, Option.map_some, Option.some.injEq] at hends
      exact congrArg some (h s s' hI hI' e e' rfl rfl hends)

/-- Wherever the property holds, the operation fails, or its answer and the state that it leaves
have another. -/
def Yields (I : σ → Prop) (op : Op σ α) (K : α → σ → Prop) : Prop :=
  ∀ s, I s → ∀ a t, exec op s = (.ok a, t) → K a t

variable {E E' : Failure → Prop} {K : α → σ → Prop} {K' : α' → σ → Prop}

theorem yields_liftExcept {x : Except Failure α} (h : ∀ s, I s → ∀ a, x = .ok a → K a s) :
    Yields I (liftM x : Op σ α) K := by
  intro s hs a t hrun
  rw [exec_liftExcept, Prod.mk.injEq] at hrun
  rcases hrun with ⟨hx, rfl⟩
  exact h s hs a hx

/-- The kind of a failure tells in which of two parts the operations have failed. -/
theorem Conceal.bind (h : Conceal R I I' op op') (hop : FailsAs I E op) (hop' : FailsAs I' E op')
    (hK : Yields I op K) (hK' : Yields I' op' K') {f : α → Op σ β} {f' : α' → Op σ β'}
    (hf : ∀ a, FailsAs (K a) E' (f a)) (hf' : ∀ a, FailsAs (K' a) E' (f' a))
    (hapart : ∀ e e', E e → E' e' → e.kind? ≠ e'.kind?)
    (hrest : ∀ a a', Conceal R (K a) (K' a') (f a) (f' a')) :
    Conceal R I I' (op >>= f) (op' >>= f') := by
  intro s s' hs hI hI' hends
  have hboth := h s s' hs hI hI'
  rcases hrun : exec op s with ⟨r, t⟩
  rcases hrun' : exec op' s' with ⟨r', t'⟩
  rw [exec_bind, exec_bind, hrun, hrun'] at hends
  rw [exec_bind, exec_bind, hrun, hrun']
  rw [hrun, hrun'] at hboth
  -- if only one of the first parts has failed, the other run has succeeded or failed later: the two
  -- do not end alike
  cases r with
  | error e =>
    cases r' with
    | error e' => exact hboth hends
    | ok a' =>
      rcases hlater : exec (f' a') t' with ⟨r, u⟩
      cases r with
      | ok b => simp [EndAlike, hlater] at hends
      | error e' =>
        simp only [EndAlike, hlater, failureOf_error, Option.map_some, Option.some.injEq] at hends
        exact absurd hends (hapart e e' (hop s hI e t hrun)
          (hf' a' t' (hK' s' hI' a' t' hrun') e' u hlater))
  | ok a =>
    cases r' with
    | error e' =>
      rcases hlater : exec (f a) t with ⟨r, u⟩
      cases r with
      | ok b => simp [EndAlike, hlater] at hends
      | error e =>
        simp only [EndAlike, hlater, failureOf_error, Option.map_some, Option.some.injEq] at hends
        exact absurd hends.symm (hapart e' e (hop' s' hI' e' t' hrun')
          (hf a t (hK s hI a t hrun) e u hlater))
    | ok a' =>
      exact hrest a a' t t' (hboth rfl).2 (hK s hI a t hrun) (hK' s' hI' a' t' hrun') hends

/-- Two parts of which the second cannot fail. -/
theorem Conceal.bind_last (h : Conceal R I I' op op') {f : α → Op σ β} {f' : α' → Op σ β'}
    (hf : ∀ a, FailsAs (fun _ => True) (fun _ => False) (f a))
    (hf' : ∀ a, FailsAs (fun _ => True) (fun _ => False) (f' a))
    (hrest : ∀ a a', Conceal R (fun _ => True) (fun _ => True) (f a) (f' a')) :
    Conceal R I I' (op >>= f) (op' >>= f') := by
  have hop : FailsAs I (fun _ => True) op := fun _ _ _ _ _ => trivial
  have hop' : FailsAs I' (fun _ => True) op' := fun _ _ _ _ _ => trivial
  have hK : Yields I op fun _ _ => True := fun _ _ _ _ _ => trivial
  have hK' : Yields I' op' fun _ _ => True := fun _ _ _ _ _ => trivial
  exact h.bind hop hop' hK hK' hf hf' (fun _ _ _ hnever => hnever.elim) hrest

end Op

end NodeStore
