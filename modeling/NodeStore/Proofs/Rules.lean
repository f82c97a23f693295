import NodeStore.Failure

/-! # Rules for operations

All operations of this library have one shape: they act on a state, may fail, and what they did
stays when they fail. `Op.exec` is the answer of an operation together with the state that it
leaves. The rules below say what `exec` gives for each way of building operations, and how a
property of the state is carried through them:

* `exec_bind_ok`: a sequence succeeds exactly when both of its parts do;
* `Keeps`: an operation that leaves a property of the state as it was, whatever its answer is;
* `FailsAs`: an operation whose failures are of some kind;
* `Agree`: an operation that answers alike from states that are related.
-/

namespace NodeStore

@[simp] theorem mapError_ok {ε ε' α : Type} (f : ε → ε') (a : α) :
    (Except.ok a : Except ε α).mapError f = .ok a := rfl

@[simp] theorem mapError_error {ε ε' α : Type} (f : ε → ε') (e : ε) :
    (Except.error e : Except ε α).mapError f = .error (f e) := rfl

@[simp] theorem ok_bind {ε α β : Type} (a : α) (f : α → Except ε β) :
    (Except.ok a >>= f) = f a := rfl

theorem mapError_eq_error {ε ε' α : Type} {f : ε → ε'} {x : Except ε α} {e' : ε'}
    (h : x.mapError f = .error e') : ∃ e, x = .error e ∧ e' = f e := by
  cases x with
  | ok a => simp at h
  | error e => exact ⟨e, rfl, (Except.error.inj h).symm⟩

/-- An operation on a state; its effects stay also when it fails. -/
abbrev Op (σ α : Type) := ExceptT Failure (StateM σ) α

namespace Op

variable {σ α β : Type}

/-- The answer of an operation, and the state afterwards. -/
def exec (op : Op σ α) (s : σ) : Except Failure α × σ :=
  (ExceptT.run op).run s

/-! ## What an operation gives -/

@[simp] theorem exec_pure (a : α) (s : σ) : exec (pure a) s = (.ok a, s) := rfl

@[simp] theorem exec_throw (e : Failure) (s : σ) : exec (throw e : Op σ α) s = (.error e, s) := rfl

@[simp] theorem exec_get (s : σ) : exec (get : Op σ σ) s = (.ok s, s) := rfl

@[simp] theorem exec_liftExcept (x : Except Failure α) (s : σ) :
    exec (liftM x : Op σ α) s = (x, s) := by
  cases x <;> rfl

@[simp] theorem exec_get_bind (f : σ → Op σ β) (s : σ) :
    exec (get >>= f) s = exec (f s) s := rfl

@[simp] theorem exec_set_bind (f : PUnit → Op σ β) (s t : σ) :
    exec (set t >>= f) s = exec (f ⟨⟩) t := rfl

@[simp] theorem exec_modify_bind (g : σ → σ) (f : PUnit → Op σ β) (s : σ) :
    exec (modify g >>= f) s = exec (f ⟨⟩) (g s) := rfl

/-- The second part of a sequence starts where the first one ended, unless that failed. -/
theorem exec_bind (op : Op σ α) (f : α → Op σ β) (s : σ) :
    exec (op >>= f) s =
      match exec op s with
      | (.ok a, t) => exec (f a) t
      | (.error e, t) => (.error e, t) := by
  unfold exec
  simp only [ExceptT.run_bind, StateT.run_bind]
  rcases h : StateT.run (ExceptT.run op) s with ⟨r, t⟩
  cases r <;> rfl

/-- A sequence goes on after a first part that is known to succeed. -/
theorem exec_bind_of_ok {op : Op σ α} {f : α → Op σ β} {s t : σ} {a : α}
    (h : exec op s = (.ok a, t)) : exec (op >>= f) s = exec (f a) t := by
  rw [exec_bind, h]

/-- A sequence ends with a first part that is known to fail. -/
theorem exec_bind_of_error {op : Op σ α} {f : α → Op σ β} {s t : σ} {e : Failure}
    (h : exec op s = (.error e, t)) : exec (op >>= f) s = (.error e, t) := by
  rw [exec_bind, h]

/-- A sequence succeeds exactly when its first part does and then its second. -/
theorem exec_bind_ok {op : Op σ α} {f : α → Op σ β} {s u : σ} {b : β} :
    exec (op >>= f) s = (.ok b, u) ↔
      ∃ a t, exec op s = (.ok a, t) ∧ exec (f a) t = (.ok b, u) := by
  rw [exec_bind]
  constructor
  · intro h
    rcases hop : exec op s with ⟨r, t⟩
    rw [hop] at h
    cases r with
    | error e => simp at h
    | ok a => exact ⟨a, t, rfl, h⟩
  · rintro ⟨a, t, hop, hf⟩
    rw [hop]
    exact hf

@[simp] theorem exec_map (f : α → β) (op : Op σ α) (s : σ) :
    exec (f <$> op) s = ((exec op s).1.map f, (exec op s).2) := by
  rw [← bind_pure_comp, exec_bind]
  rcases exec op s with ⟨r, t⟩
  cases r <;> rfl

/-- An operation whose answer is changed succeeds exactly when it does. -/
theorem exec_map_ok {f : α → β} {op : Op σ α} {s t : σ} {b : β} :
    exec (f <$> op) s = (.ok b, t) ↔ ∃ a, exec op s = (.ok a, t) ∧ f a = b := by
  rw [exec_map]
  rcases exec op s with ⟨r, t'⟩
  cases r with
  | error e => simp [Except.map]
  | ok a =>
    simp only [Except.map, Prod.mk.injEq, Except.ok.injEq]
    constructor
    · rintro ⟨hb, ht⟩
      exact ⟨a, ⟨rfl, ht⟩, hb⟩
    · rintro ⟨_, ⟨rfl, ht⟩, hb⟩
      exact ⟨hb, ht⟩

/-- An operation whose answer is changed fails exactly when it does. -/
theorem exec_map_error {f : α → β} {op : Op σ α} {s t : σ} {e : Failure} :
    exec (f <$> op) s = (.error e, t) ↔ exec op s = (.error e, t) := by
  rw [exec_map]
  rcases exec op s with ⟨r, t'⟩
  cases r <;> simp [Except.map]

@[simp] theorem exec_discard (op : Op σ α) (s : σ) :
    exec (discard op) s = ((exec op s).1.map fun _ => ⟨⟩, (exec op s).2) :=
  exec_map (fun _ => PUnit.unit) op s

/-- An operation whose answer is not used succeeds exactly when it does. -/
theorem exec_discard_ok {op : Op σ α} {s t : σ} {u : PUnit} :
    exec (discard op) s = (.ok u, t) ↔ ∃ a, exec op s = (.ok a, t) := by
  rw [exec_discard]
  rcases exec op s with ⟨r, t'⟩
  cases r <;> simp [Except.map]

/-- What is caught goes on from the state that the failure left. -/
theorem exec_tryCatch (op : Op σ α) (handle : Failure → Op σ α) (s : σ) :
    exec (tryCatch op handle) s =
      match exec op s with
      | (.ok a, t) => (.ok a, t)
      | (.error e, t) => exec (handle e) t := by
  rcases h : exec op s with ⟨r, t⟩
  have hrun : StateT.run (m := Id) op s = (r, t) := h
  show StateT.run (ExceptT.tryCatch op handle) s = _
  simp only [ExceptT.tryCatch, ExceptT.mk, StateT.run_bind, hrun]
  cases r <;> rfl

/-! ## What an operation keeps -/

/-- Wherever the property holds, it holds afterwards, whether or not the operation fails. -/
def Keeps (I : σ → Prop) (op : Op σ α) : Prop :=
  ∀ s, I s → I (exec op s).2

variable {I : σ → Prop}

theorem Keeps.after {op : Op σ α} (h : Keeps I op) {s t : σ} {r : Except Failure α} (hs : I s)
    (hrun : exec op s = (r, t)) : I t := by
  have ht := h s hs
  rwa [hrun] at ht

theorem keeps_pure (a : α) : Keeps I (pure a : Op σ α) := fun _ h => h

theorem keeps_throw (e : Failure) : Keeps I (throw e : Op σ α) := fun _ h => h

theorem keeps_liftExcept (x : Except Failure α) : Keeps I (liftM x : Op σ α) := by
  intro s h
  rw [exec_liftExcept]
  exact h

theorem keeps_modify {f : σ → σ} (hf : ∀ s, I s → I (f s)) : Keeps I (modify f : Op σ PUnit) :=
  hf

/-- The rule for a sequence whose second part ends the property, but not another that follows
from it. -/
theorem bind_leads {J : σ → Prop} {op : Op σ α} {f : α → Op σ β} (h : Keeps I op)
    (hJ : ∀ s, I s → J s) (hf : ∀ a s, I s → J (exec (f a) s).2) {s : σ} (hs : I s) :
    J (exec (op >>= f) s).2 := by
  have ht := h s hs
  rw [exec_bind]
  rcases hop : exec op s with ⟨r, t⟩
  rw [hop] at ht
  cases r with
  | ok a => exact hf a t ht
  | error e => exact hJ t ht

theorem keeps_bind {op : Op σ α} {f : α → Op σ β} (h : Keeps I op) (hf : ∀ a, Keeps I (f a)) :
    Keeps I (op >>= f) := fun _ hs => bind_leads h (fun _ ht => ht) hf hs

/-- The rule for a sequence whose second part may use the state that the first one read. -/
theorem keeps_get_bind {f : σ → Op σ β} (hf : ∀ s, I s → I (exec (f s) s).2) :
    Keeps I (get >>= f) := by
  intro s hs
  rw [exec_bind, exec_get]
  exact hf s hs

theorem keeps_map {op : Op σ α} {f : α → β} (h : Keeps I op) : Keeps I (f <$> op) := by
  intro s hs
  rw [exec_map]
  exact h s hs

theorem keeps_and {J : σ → Prop} {op : Op σ α} (hI : Keeps I op) (hJ : Keeps J op) :
    Keeps (fun s => I s ∧ J s) op := fun s hs => ⟨hI s hs.1, hJ s hs.2⟩

theorem keeps_tryCatch {op : Op σ α} {handle : Failure → Op σ α} (h : Keeps I op)
    (hh : ∀ e, Keeps I (handle e)) : Keeps I (tryCatch op handle) := by
  intro s hs
  have ht := h s hs
  rw [exec_tryCatch]
  rcases hop : exec op s with ⟨r, t⟩
  rw [hop] at ht
  cases r with
  | ok a => exact ht
  | error e => exact hh e t ht

/-! ## How an operation fails -/

/-- Wherever the property holds, the operation succeeds or fails in a way of some kind. -/
def FailsAs (I : σ → Prop) (E : Failure → Prop) (op : Op σ α) : Prop :=
  ∀ s, I s → ∀ e t, exec op s = (.error e, t) → E e

variable {E : Failure → Prop}

theorem failsAs_pure (a : α) : FailsAs I E (pure a : Op σ α) := by
  intro s _ e t h
  simp at h

theorem failsAs_throw {e : Failure} (he : E e) : FailsAs I E (throw e : Op σ α) := by
  intro s _ e' t h
  simp only [exec_throw, Prod.mk.injEq, Except.error.injEq] at h
  exact h.1 ▸ he

theorem failsAs_liftExcept {x : Except Failure α} (h : ∀ e, x = .error e → E e) :
    FailsAs I E (liftM x : Op σ α) := by
  intro s _ e t hrun
  rw [exec_liftExcept, Prod.mk.injEq] at hrun
  exact h e hrun.1

theorem failsAs_modify (f : σ → σ) : FailsAs I E (modify f : Op σ PUnit) := by
  intro s _ e t h
  exact absurd (congrArg Prod.fst h) nofun

theorem failsAs_bind {op : Op σ α} {f : α → Op σ β} (h : FailsAs I E op) (hkeeps : Keeps I op)
    (hf : ∀ a, FailsAs I E (f a)) : FailsAs I E (op >>= f) := by
  intro s hs e t hrun
  have hs' := hkeeps s hs
  rw [exec_bind] at hrun
  rcases hop : exec op s with ⟨r, u⟩
  rw [hop] at hrun hs'
  cases r with
  | ok a => exact hf a u hs' e t hrun
  | error e' =>
    simp only [Prod.mk.injEq, Except.error.injEq] at hrun
    exact hrun.1 ▸ h s hs e' u hop

/-! ## Two runs of an operation -/

/-- From states that are related the operation gives the same answer, and leaves states that are
related. -/
def Agree (R : σ → σ → Prop) (op : Op σ α) : Prop :=
  ∀ s s', R s s' → (exec op s').1 = (exec op s).1 ∧ R (exec op s).2 (exec op s').2

variable {R : σ → σ → Prop}

theorem agree_pure (a : α) : Agree R (pure a : Op σ α) := fun _ _ h => ⟨rfl, h⟩

theorem agree_throw (e : Failure) : Agree R (throw e : Op σ α) := fun _ _ h => ⟨rfl, h⟩

theorem agree_liftExcept (x : Except Failure α) : Agree R (liftM x : Op σ α) := by
  intro s s' h
  rw [exec_liftExcept, exec_liftExcept]
  exact ⟨rfl, h⟩

theorem agree_bind {op : Op σ α} {f : α → Op σ β} (h : Agree R op) (hf : ∀ a, Agree R (f a)) :
    Agree R (op >>= f) := by
  intro s s' hs
  rcases h s s' hs with ⟨hanswer, ht⟩
  rcases hop : exec op s with ⟨r, t⟩
  rcases hop' : exec op s' with ⟨r', t'⟩
  rw [hop, hop'] at hanswer ht
  obtain rfl : r' = r := hanswer
  rw [exec_bind, exec_bind, hop, hop']
  cases r' with
  | ok a => exact hf a t t' ht
  | error e => exact ⟨rfl, ht⟩

theorem agree_map {op : Op σ α} (f : α → β) (h : Agree R op) : Agree R (f <$> op) := by
  intro s s' hs
  rw [exec_map, exec_map]
  rcases h s s' hs with ⟨hanswer, ht⟩
  exact ⟨by rw [hanswer], ht⟩

end Op

end NodeStore
