import NodeStore.EnvFile
import NodeStore.Proofs.Assoc
import NodeStore.Proofs.Text.Utf8

/-! # A file of variables only adds to an environment

The bindings of a file are added to an environment one after the other. A variable that is set stays
as it is, so that afterwards every name has the value of the environment, or else that of the file
(`lookup_load`). A binding is refused that no environment can hold, and with it the whole file
(`exists_load_iff`). All this holds of any way to read the bindings.

* `addBinding_ok`, `exists_addBinding_iff`: one binding;
* `addAll_ok`, `exists_addAll_iff`: the bindings of a file in a row. -/

namespace NodeStore.EnvFile

variable {env env' : Environment} {name k v : String} {value : Option String}
  {bindings : List (String × Option String)} {e : Failure}

/-! ## One binding -/

/-- An environment can hold a variable of the name with the value. -/
def CanHold (name v : String) : Prop :=
  hasNul name = false ∧ hasNul v = false ∧ '=' ∉ name.toList

/-- What adding a binding can do: nothing, if the variable is set or the name is bound to nothing;
else the variable is new, and the environment can hold it or not. -/
theorem addBinding_cases (env : Environment) (name : String) (value : Option String) :
    ((env.lookup name ≠ none ∨ value = none) ∧ addBinding env name value = .ok env) ∨
    ∃ v, value = some v ∧ env.lookup name = none ∧
      (CanHold name v ∧ addBinding env name value = .ok (env ++ [(name, v)]) ∨
        ¬ CanHold name v ∧
          ∃ nul, addBinding env name value = .error (.argument (.variableName nul))) := by
  unfold addBinding CanHold
  cases hname : env.lookup name with
  | some v => exact Or.inl ⟨Or.inl (Option.some_ne_none v), rfl⟩
  | none =>
    cases value with
    | none => exact Or.inl ⟨Or.inr rfl, rfl⟩
    | some v =>
      refine Or.inr ⟨v, rfl, rfl, ?_⟩
      by_cases hnul : hasNul name = true ∨ hasNul v = true
      · refine Or.inr ⟨?_, true, if_pos hnul⟩
        rintro ⟨hnameNul, hvalueNul, -⟩
        rcases hnul with hnul | hnul
        · rw [hnul] at hnameNul
          simp at hnameNul
        · rw [hnul] at hvalueNul
          simp at hvalueNul
      · rw [not_or, Bool.not_eq_true, Bool.not_eq_true] at hnul
        have hnul' : ¬ (hasNul name = true ∨ hasNul v = true) := by
          simp [hnul]
        by_cases heq : name.toList.contains '=' = true
        · refine Or.inr ⟨?_, false, (if_neg hnul').trans (if_pos heq)⟩
          rintro ⟨-, -, hmem⟩
          exact hmem (List.contains_iff_mem.1 heq)
        · refine Or.inl ⟨⟨hnul.1, hnul.2, ?_⟩, (if_neg hnul').trans (if_neg heq)⟩
          intro hmem
          exact heq (List.contains_iff_mem.2 hmem)

/-- A variable that is set keeps its value, and other variables are not touched. -/
theorem addBinding_ok (h : addBinding env name value = .ok env') (k : String) :
    env'.lookup k = (env.lookup k).or (if k = name then value else none) := by
  rcases addBinding_cases env name value with ⟨hold, hadd⟩ | ⟨v, rfl, hname, hnew | ⟨-, nul, hadd⟩⟩
  · obtain rfl : env = env' := Except.ok.inj (hadd.symm.trans h)
    split
    · rename_i hk
      subst hk
      rcases hold with hset | rfl
      · rcases Option.ne_none_iff_exists'.1 hset with ⟨v, hv⟩
        rw [hv]
        rfl
      · exact Option.or_none.symm
    · exact Option.or_none.symm
  · obtain rfl : env ++ [(name, v)] = env' := Except.ok.inj (hnew.2.symm.trans h)
    rw [List.lookup_append, List.lookup_cons, List.lookup_nil]
    by_cases hk : k = name
    · rw [if_pos hk, beq_iff_eq.2 hk]
    · rw [if_neg hk, beq_false_of_ne hk]
  · rw [hadd] at h
    simp at h

/-- Only a new variable can be refused. -/
theorem exists_addBinding_iff : (∃ env', addBinding env name value = .ok env') ↔
    ∀ v, value = some v → env.lookup name = none → CanHold name v := by
  rcases addBinding_cases env name value with
    ⟨hold, hadd⟩ | ⟨v, rfl, hname, hnew | ⟨hnot, nul, hadd⟩⟩
  · refine iff_of_true ⟨env, hadd⟩ ?_
    intro v hv hname
    rcases hold with hset | hnone
    · exact absurd hname hset
    · rw [hnone] at hv
      simp at hv
  · refine iff_of_true ⟨_, hnew.2⟩ ?_
    intro v' hv' _
    rw [← Option.some.inj hv']
    exact hnew.1
  · refine iff_of_false ?_ fun hall => hnot (hall v rfl hname)
    rintro ⟨env', hok⟩
    rw [hadd] at hok
    simp at hok

theorem addBinding_error (h : addBinding env name value = .error e) :
    ∃ nul, e = .argument (.variableName nul) := by
  rcases addBinding_cases env name value with ⟨-, hadd⟩ | ⟨v, -, -, ⟨-, hadd⟩ | ⟨-, nul, hadd⟩⟩
  · rw [hadd] at h
    simp at h
  · rw [hadd] at h
    simp at h
  · exact ⟨nul, Except.error.inj (h.symm.trans hadd)⟩

/-! ## The bindings of a file -/

theorem addAll_cons (env : Environment) (p : String × Option String) :
    addAll env (p :: bindings) = addBinding env p.1 p.2 >>= (addAll · bindings) := rfl

/-- Every name has its value in the environment, or else the one that it is given. -/
theorem addAll_ok (hnodup : (bindings.map Prod.fst).Nodup) (h : addAll env bindings = .ok env')
    (k : String) : env'.lookup k = (env.lookup k).or (bindings.lookup k).join := by
  induction bindings generalizing env with
  | nil =>
    obtain rfl : env = env' := Except.ok.inj h
    exact Option.or_none.symm
  | cons p bindings ih =>
    rcases p with ⟨name, value⟩
    rw [List.map_cons, List.nodup_cons] at hnodup
    rw [addAll_cons] at h
    cases hadd : addBinding env name value with
    | error e => simp [hadd, bind, Except.bind] at h
    | ok env₁ =>
      rw [hadd] at h
      rw [ih hnodup.2 h, addBinding_ok hadd, Option.or_assoc, List.lookup_cons]
      by_cases hk : k = name
      · subst hk
        have hrest : bindings.lookup k = none := by
          by_contra hsome
          exact hnodup.1 ((Assoc.mem_keys_iff_lookup k bindings).2 hsome)
        simp [hrest]
      · rw [if_neg hk, beq_false_of_ne hk, Option.none_or]

/-- All of them are added if the environment can hold each of the new ones. -/
theorem exists_addAll_iff (hnodup : (bindings.map Prod.fst).Nodup) :
    (∃ env', addAll env bindings = .ok env') ↔
      ∀ name v, (name, some v) ∈ bindings → env.lookup name = none → CanHold name v := by
  induction bindings generalizing env with
  | nil => exact iff_of_true ⟨env, rfl⟩ nofun
  | cons p bindings ih =>
    rcases p with ⟨name, value⟩
    rw [List.map_cons, List.nodup_cons] at hnodup
    rw [addAll_cons]
    constructor
    · rintro ⟨env', hok⟩ k v hmem hk
      cases hadd : addBinding env name value with
      | error e => simp [hadd, bind, Except.bind] at hok
      | ok env₁ =>
        rw [hadd] at hok
        rcases List.mem_cons.1 hmem with heq | hrest
        · obtain ⟨rfl, rfl⟩ := Prod.mk.inj heq
          exact exists_addBinding_iff.1 ⟨env₁, hadd⟩ v rfl hk
        · have hne : k ≠ name := by
            rintro rfl
            exact hnodup.1 (List.mem_map.2 ⟨_, hrest, rfl⟩)
          refine (ih hnodup.2).1 ⟨env', hok⟩ k v hrest ?_
          rw [addBinding_ok hadd, hk, if_neg hne]
          rfl
    · intro hall
      have hfirst : ∀ v, value = some v → env.lookup name = none → CanHold name v := by
        rintro v rfl
        exact hall name v List.mem_cons_self
      rcases exists_addBinding_iff.2 hfirst with ⟨env₁, hadd⟩
      rw [hadd]
      refine (ih hnodup.2).2 ?_
      intro k v hmem hk
      apply hall k v (List.mem_cons_of_mem _ hmem)
      rw [addBinding_ok hadd, Option.or_eq_none_iff] at hk
      exact hk.1

theorem addAll_error (h : addAll env bindings = .error e) :
    ∃ nul, e = .argument (.variableName nul) := by
  induction bindings generalizing env with
  | nil => simp [addAll, pure, Except.pure] at h
  | cons p bindings ih =>
    rw [addAll_cons] at h
    cases hadd : addBinding env p.1 p.2 with
    | error e' =>
      rw [hadd] at h
      obtain rfl : e' = e := Except.error.inj h
      exact addBinding_error hadd
    | ok env₁ =>
      rw [hadd] at h
      exact ih h

/-! ## Files -/

variable {R : Reader} {b : Bytes}

/-- The value that a file binds a name to. -/
def binding? (R : Reader) (env : Environment) (b : Bytes) (name : String) : Option String :=
  match R env b with
  | .ok bindings => ((Assoc.ofList bindings).lookup name).join
  | .error _ => none

/-- The environment can hold every variable that the file binds and it has not. -/
def Settable (R : Reader) (env : Environment) (b : Bytes) : Prop :=
  ∀ name v, binding? R env b name = some v → env.lookup name = none → CanHold name v

theorem load_of_read (hread : R env b = .ok bindings) :
    load R env b = addAll env (Assoc.ofList bindings) := by
  unfold load
  rw [hread]
  rfl

theorem load_of_read_error (hread : R env b = .error e) : load R env b = .error e := by
  unfold load
  rw [hread]
  rfl

theorem lookup_load (h : load R env b = .ok env') (name : String) :
    env'.lookup name = (env.lookup name).or (binding? R env b name) := by
  unfold binding?
  cases hread : R env b with
  | error e =>
    rw [load_of_read_error hread] at h
    simp at h
  | ok bindings =>
    rw [load_of_read hread] at h
    exact addAll_ok (Assoc.nodup_ofList bindings) h name

theorem exists_load_iff : (∃ env', load R env b = .ok env') ↔
    (∃ bindings, R env b = .ok bindings) ∧ Settable R env b := by
  unfold Settable binding?
  cases hread : R env b with
  | error e => simp [load_of_read_error hread]
  | ok bindings =>
    have hnodup := Assoc.nodup_ofList bindings
    rw [load_of_read hread, exists_addAll_iff hnodup]
    simp only [Assoc.mem_iff_lookup hnodup, Option.join_eq_some_iff, Except.ok.injEq,
      exists_eq', true_and]

/-- What is read is refused only for a binding. -/
theorem load_error (hread : R env b = .ok bindings) (h : load R env b = .error e) :
    ∃ nul, e = .argument (.variableName nul) :=
  addAll_error ((load_of_read hread).symm.trans h)

theorem read_encode (env : Environment) (text : String) :
    EnvFile.read env (Utf8.encode text) = .ok (resolve env (parse text)) := by
  unfold EnvFile.read
  rw [Utf8.decode_encode]

theorem binding?_encode (env : Environment) (text name : String) :
    binding? EnvFile.read env (Utf8.encode text) name =
      ((Assoc.ofList (resolve env (parse text))).lookup name).join := by
  unfold binding?
  rw [read_encode]

/-- A file of statements is read exactly if it is text. -/
theorem read_eq_error_iff :
    EnvFile.read env b = .error e ↔ ∃ fault, Utf8.decode b = .error fault ∧ e = .notText fault := by
  unfold EnvFile.read
  cases Utf8.decode b <;> simp [eq_comm]

end NodeStore.EnvFile
