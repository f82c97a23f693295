import NodeStore.Config
import NodeStore.Proofs.Checks
import NodeStore.Proofs.EnvFile

/-! # A field of the configuration comes from one layer

For every field one value is looked at, that of the highest layer which has one (`rawValue`): an
override, the environment, the file of variables. What lower layers hold goes into nothing, whether
it could be read or not. A field that no layer has a value for is the default. How a file is read
and how values are does not matter for this.

* `ofFields_ok_iff`, `issues_ofFields`: a configuration from values of its fields;
* `layered_eq`: the values that the layers hand on;
* `load_takes_highest_layer`: both together, and the bounds that every configuration keeps. -/

namespace NodeStore

/-! ## Checked values -/

namespace Checked

variable {α β : Type} {c : Checked α} {f : Checked (α → β)} {b : β}

/-- What is wrong with a value, if anything is. -/
def issues : Checked α → List Issue
  | .ok _ => []
  | .error found => found

/-- A check that fails says why. -/
def Reports (c : Checked α) : Prop :=
  c ≠ .error []

theorem also_eq_ok_iff :
    c.also f = .ok b ↔ ∃ g a, f = .ok g ∧ c = .ok a ∧ g a = b := by
  cases f <;> cases c <;> simp [also]

theorem issues_also : (c.also f).issues = f.issues ++ c.issues := by
  cases f <;> cases c <;> simp [also, issues]

theorem Reports.also (hf : f.Reports) (hc : c.Reports) : (c.also f).Reports := by
  unfold Reports at *
  cases f <;> cases c <;> simp_all [Checked.also]

theorem reports_ok (a : α) : Reports (.ok a : Checked α) := nofun

theorem reports_ofReading (place : List String) (r : Reading α) : (ofReading place r).Reports := by
  unfold Reports ofReading
  cases r <;> simp [Except.mapError]

theorem Reports.error_iff (h : c.Reports) {found : List Issue} :
    c = .error found ↔ found = c.issues ∧ c.issues ≠ [] := by
  cases c with
  | ok a => simp [issues]
  | error is =>
    have hne : is ≠ [] := fun hnil => h (congrArg _ hnil)
    simp [issues, hne, eq_comm]

end Checked

/-! ## Values with a bound -/

namespace Coercion

variable {V : Type} {I : Coercion V} {v : V}

theorem intFrom_eq_ok_iff {least n : Int} :
    I.intFrom least v = .ok n ↔ I.int v = .ok n ∧ least ≤ n := by
  unfold intFrom
  cases I.int v with
  | error kind => simp [bind, Except.bind]
  | ok m =>
    simp only [bind, Except.bind, pure, Except.pure, throw, throwThe, MonadExceptOf.throw,
      Except.ok.injEq]
    split
    · rename_i hle
      simp only [Except.ok.injEq]
      exact ⟨fun heq => ⟨heq, heq ▸ hle⟩, fun h => h.1⟩
    · rename_i hlt
      simp only [reduceCtorEq, false_iff]
      rintro ⟨rfl, hle⟩
      exact hlt hle

theorem positiveFloat_eq_ok_iff {x : Binary64} :
    I.positiveFloat v = .ok x ↔ I.float v = .ok x ∧ x.isPositive = true := by
  unfold positiveFloat
  cases I.float v with
  | error kind => simp [bind, Except.bind]
  | ok y =>
    simp only [bind, Except.bind, pure, Except.pure, throw, throwThe, MonadExceptOf.throw,
      Except.ok.injEq]
    split
    · rename_i hpositive
      simp only [Except.ok.injEq]
      exact ⟨fun heq => ⟨heq, heq ▸ hpositive⟩, fun h => h.1⟩
    · rename_i hnot
      simp only [reduceCtorEq, false_iff]
      rintro ⟨rfl, hpositive⟩
      exact hnot hpositive

end Coercion

namespace Config

variable {V : Type} {I : Coercion V} {R : EnvFile.Reader} {overrides : List (String × V)}
  {env env' : Environment} {file : Option Bytes} {values values' : String → Option V} {c : Config}

/-! ## One field -/

section Field

variable {α : Type} {read : V → Reading α} {name : String} {default a : α} {value : Option V}

/-- A value is read, or the default stands in for it. -/
def Takes (value : Option V) (read : V → Reading α) (default a : α) : Prop :=
  match value with
  | some v => read v = .ok a
  | none => a = default

instance [DecidableEq α] (value : Option V) (read : V → Reading α) (default a : α) :
    Decidable (Takes value read default a) :=
  match value with
  | some v => inferInstanceAs (Decidable (read v = .ok a))
  | none => inferInstanceAs (Decidable (a = default))

/-- What is wrong with a value at a field. -/
def issuesAt (value : Option V) (read : V → Reading α) (name : String) : List Issue :=
  match value with
  | some v => (Checked.ofReading [name] (read v)).issues
  | none => []

theorem field_eq_ok_iff :
    field values name default read = .ok a ↔ Takes (values name) read default a := by
  unfold field Takes
  cases values name with
  | none => simp [eq_comm]
  | some v => exact mapError_eq_ok_iff

theorem issues_field :
    (field values name default read).issues = issuesAt (values name) read name := by
  unfold field issuesAt
  cases values name <;> rfl

theorem reports_field (values : String → Option V) (name : String) (default : α)
    (read : V → Reading α) : (field values name default read).Reports := by
  unfold field
  cases values name with
  | none => exact Checked.reports_ok default
  | some v => exact Checked.reports_ofReading [name] (read v)

/-- Everything that is wrong at a field is one thing, and tells the field. -/
theorem mem_issuesAt {i : Issue} (hi : i ∈ issuesAt value read name) :
    ∃ v kind, value = some v ∧ read v = .error kind ∧ i = ⟨[name], kind⟩ := by
  unfold issuesAt at hi
  cases value with
  | none => simp at hi
  | some v =>
    cases hv : read v with
    | ok a => simp [hv, Checked.ofReading, Checked.issues, Except.mapError] at hi
    | error kind =>
      simp only [hv, Checked.ofReading, Checked.issues, Except.mapError, List.mem_singleton] at hi
      exact ⟨v, kind, rfl, hv, hi⟩

/-- A property of all that is read and of the default. -/
theorem Takes.all {P : α → Prop} (h : Takes value read default a)
    (hread : ∀ v b, read v = .ok b → P b) (hdefault : P default) : P a := by
  cases value with
  | none => rwa [show a = default from h]
  | some v => exact hread v a h

end Field

/-! ## The fields -/

/-- Each field is read from its value, or is the default. -/
structure Taken (I : Coercion V) (values : String → Option V) (c : Config) : Prop where
  storageDir : Takes (values "storage_dir") I.path ⟨.relative, ["data"]⟩ c.storageDir
  protocolDir : Takes (values "ldk_data_dir") I.optionalPath none c.protocolDir
  storeName : Takes (values "db_name") I.text "lnstore.db" c.storeName
  secretName : Takes (values "secret_db_name") I.text "rln_db" c.secretName
  logDir : Takes (values "log_dir") I.path ⟨.relative, ["logs"]⟩ c.logDir
  maxConnections : Takes (values "max_connections") (I.intFrom 1) 10 c.maxConnections
  maxOverflow : Takes (values "max_overflow") (I.intFrom 0) 0 c.maxOverflow
  connectTimeout : Takes (values "connect_timeout") I.positiveFloat (Binary64.ofInt 30)
    c.connectTimeout
  iterations : Takes (values "pbkdf2_iterations") (I.intFrom 1) 100000 c.iterations

/-- What is wrong with the values of the fields, in the order of the fields. -/
def issues (I : Coercion V) (values : String → Option V) : List Issue :=
  issuesAt (values "storage_dir") I.path "storage_dir" ++
  issuesAt (values "ldk_data_dir") I.optionalPath "ldk_data_dir" ++
  issuesAt (values "db_name") I.text "db_name" ++
  issuesAt (values "secret_db_name") I.text "secret_db_name" ++
  issuesAt (values "log_dir") I.path "log_dir" ++
  issuesAt (values "max_connections") (I.intFrom 1) "max_connections" ++
  issuesAt (values "max_overflow") (I.intFrom 0) "max_overflow" ++
  issuesAt (values "connect_timeout") I.positiveFloat "connect_timeout" ++
  issuesAt (values "pbkdf2_iterations") (I.intFrom 1) "pbkdf2_iterations"

theorem ofFields_ok_iff : ofFields I values = .ok c ↔ Taken I values c := by
  unfold ofFields
  simp only [Checked.also_eq_ok_iff, field_eq_ok_iff]
  constructor
  · rintro ⟨_, _, ⟨_, _, ⟨_, _, ⟨_, _, ⟨_, _, ⟨_, _, ⟨_, _, ⟨_, _, ⟨g, _, hg, h1, rfl⟩, h2, rfl⟩,
      h3, rfl⟩, h4, rfl⟩, h5, rfl⟩, h6, rfl⟩, h7, rfl⟩, h8, rfl⟩, h9, rfl⟩
    obtain rfl := Except.ok.inj hg
    exact ⟨h1, h2, h3, h4, h5, h6, h7, h8, h9⟩
  · rintro ⟨h1, h2, h3, h4, h5, h6, h7, h8, h9⟩
    exact ⟨_, _, ⟨_, _, ⟨_, _, ⟨_, _, ⟨_, _, ⟨_, _, ⟨_, _, ⟨_, _, ⟨_, _, rfl, h1, rfl⟩, h2, rfl⟩,
      h3, rfl⟩, h4, rfl⟩, h5, rfl⟩, h6, rfl⟩, h7, rfl⟩, h8, rfl⟩, h9, rfl⟩

theorem issues_ofFields : (ofFields I values).issues = issues I values := by
  unfold ofFields issues
  simp only [Checked.issues_also, issues_field]
  rfl

theorem reports_ofFields (I : Coercion V) (values : String → Option V) :
    (ofFields I values).Reports := by
  unfold ofFields
  have hfield {α : Type} {name : String} {default : α} {read : V → Reading α} :=
    reports_field values name default read
  exact (((((((((Checked.reports_ok Config.mk).also hfield).also hfield).also hfield).also
    hfield).also hfield).also hfield).also hfield).also hfield).also hfield

theorem ofFields_error_iff {found : List Issue} :
    ofFields I values = .error found ↔ found = issues I values ∧ issues I values ≠ [] := by
  rw [← issues_ofFields]
  exact (reports_ofFields I values).error_iff

/-- Every configuration keeps the bounds of its fields, wherever its values come from. -/
theorem Taken.bounds (h : Taken I values c) : 1 ≤ c.maxConnections ∧ 0 ≤ c.maxOverflow ∧
    c.connectTimeout.isPositive = true ∧ c.connectTimeout ≠ .nan ∧ 1 ≤ c.iterations := by
  have hpositive : c.connectTimeout.isPositive = true :=
    h.connectTimeout.all (fun _ _ hread => (Coercion.positiveFloat_eq_ok_iff.1 hread).2)
      (by decide +kernel)
  refine ⟨?_, ?_, hpositive, ?_, ?_⟩
  · exact h.maxConnections.all (fun _ _ hread => (Coercion.intFrom_eq_ok_iff.1 hread).2) (by decide)
  · exact h.maxOverflow.all (fun _ _ hread => (Coercion.intFrom_eq_ok_iff.1 hread).2) (by decide)
  · intro hnan
    rw [hnan] at hpositive
    exact absurd hpositive (by decide)
  · exact h.iterations.all (fun _ _ hread => (Coercion.intFrom_eq_ok_iff.1 hread).2) (by decide)

/-- Only what the fields are set to goes into a configuration. -/
theorem ofFields_congr (hvalues : ∀ field ∈ fields, values' field = values field) :
    ofFields I values' = ofFields I values := by
  unfold ofFields field
  rw [hvalues "storage_dir" (by decide), hvalues "ldk_data_dir" (by decide),
    hvalues "db_name" (by decide), hvalues "secret_db_name" (by decide),
    hvalues "log_dir" (by decide), hvalues "max_connections" (by decide),
    hvalues "max_overflow" (by decide), hvalues "connect_timeout" (by decide),
    hvalues "pbkdf2_iterations" (by decide)]

/-- Whatever is wrong is wrong with the value of one field, and tells the field. -/
theorem mem_issues {i : Issue} (hi : i ∈ issues I values) :
    ∃ field ∈ fields, ∃ v kind, values field = some v ∧ i = ⟨[field], kind⟩ := by
  have hat : ∀ {α : Type} {read : V → Reading α} {field : String}, field ∈ fields →
      i ∈ issuesAt (values field) read field →
      ∃ field ∈ fields, ∃ v kind, values field = some v ∧ i = ⟨[field], kind⟩ := by
    intro α read field hfield hi
    rcases mem_issuesAt hi with ⟨v, kind, hv, -, rfl⟩
    exact ⟨field, hfield, v, kind, hv, rfl⟩
  unfold issues at hi
  simp only [List.mem_append, or_assoc] at hi
  rcases hi with hi | hi | hi | hi | hi | hi | hi | hi | hi <;> exact hat (by decide) hi

/-! ## The layers -/

/-- An override, which is not null. -/
def override? (I : Coercion V) (overrides : List (String × V)) (field : String) : Option V :=
  (overrides.lookup field).filter fun v => !I.isNull v

/-- The value of a field: the override if there is one, else that of its variable in the environment
if it is set, even to the empty text, else what a file of variables binds the variable to. -/
def rawValue (I : Coercion V) (R : EnvFile.Reader) (overrides : List (String × V))
    (env : Environment) (file : Option Bytes) (field : String) : Option V :=
  (override? I overrides field).or
    (((env.lookup (variableOf field)).or
      (file.bind fun b => EnvFile.binding? R env b (variableOf field))).map I.ofText)

/-- The file of variables is read, and the environment can hold what it binds. -/
def Settable (R : EnvFile.Reader) (env : Environment) (file : Option Bytes) : Prop :=
  ∀ b, file = some b → (∃ bindings, R env b = .ok bindings) ∧ EnvFile.Settable R env b

/-- After the file has been added to the environment, the layers are those of the raw value. -/
theorem layered_eq (hlookup : ∀ name, env'.lookup name =
    (env.lookup name).or (file.bind fun b => EnvFile.binding? R env b name)) :
    layered I overrides env' = rawValue I R overrides env file := by
  funext field
  unfold layered layered.ofVariable rawValue override?
  rw [hlookup]
  cases overrides.lookup field with
  | none => rfl
  | some v => cases hnull : I.isNull v <;> simp [hnull, Option.filter]

/-- Without a file, or once its bindings are in the environment, the raw values are looked at. -/
theorem load_of_settable (h : Settable R env file) :
    load I R overrides env file =
      (ofFields I (rawValue I R overrides env file)).mapError .invalid := by
  cases file with
  | none =>
    have hlookup : ∀ name, env.lookup name =
        (env.lookup name).or ((none : Option Bytes).bind fun b => EnvFile.binding? R env b name) :=
      fun name => Option.or_none.symm
    rw [← layered_eq hlookup]
    rfl
  | some b =>
    rcases EnvFile.exists_load_iff.2 (h b rfl) with ⟨env', hload⟩
    rw [← layered_eq (EnvFile.lookup_load hload)]
    unfold load
    simp only [hload]
    rfl

/-- A file that is not added to the environment ends it. -/
theorem load_of_file_error {b : Bytes} {e : Failure} (h : EnvFile.load R env b = .error e) :
    load I R overrides env (some b) = .error e := by
  unfold load
  simp only [h]
  rfl

theorem settable_of_load (h : load I R overrides env file = .ok c) : Settable R env file := by
  rintro b rfl
  cases hfile : EnvFile.load R env b with
  | ok env' => exact EnvFile.exists_load_iff.1 ⟨env', hfile⟩
  | error e =>
    rw [load_of_file_error hfile] at h
    simp at h

theorem load_ok_iff (h : Settable R env file) (c : Config) :
    load I R overrides env file = .ok c ↔ Taken I (rawValue I R overrides env file) c := by
  rw [load_of_settable h, mapError_eq_ok_iff, ofFields_ok_iff]

theorem load_error_iff (h : Settable R env file) (e : Failure) :
    load I R overrides env file = .error e ↔
      e = .invalid (issues I (rawValue I R overrides env file)) ∧
        issues I (rawValue I R overrides env file) ≠ [] := by
  rw [load_of_settable h, mapError_eq_error_iff]
  constructor
  · rintro ⟨found, hfound, rfl⟩
    rcases ofFields_error_iff.1 hfound with ⟨rfl, hne⟩
    exact ⟨rfl, hne⟩
  · rintro ⟨rfl, hne⟩
    exact ⟨_, ofFields_error_iff.2 ⟨rfl, hne⟩, rfl⟩

/-- The configuration takes every field from its highest layer, however a file of variables is read
and whatever values are read as.

* If the file is read, and the environment can hold what it binds, then a configuration is loaded
  exactly if each of its fields is read from the raw value of the field, or is the default where
  there is none; and it is refused exactly if something is wrong with the raw values.
* What is wrong is wrong with the raw value of a field, and tells the field.
* Layers with the same raw values lead to the same, whatever else is in them.
* A file that is not read, or binds what no environment can hold, fails before any value is looked
  at.
* Every configuration keeps the bounds of its fields. -/
theorem load_takes_highest_layer (I : Coercion V) (R : EnvFile.Reader)
    (overrides : List (String × V)) (env : Environment) (file : Option Bytes) :
    (Settable R env file →
      (∀ c, load I R overrides env file = .ok c ↔ Taken I (rawValue I R overrides env file) c) ∧
      (∀ e, load I R overrides env file = .error e ↔
        e = .invalid (issues I (rawValue I R overrides env file)) ∧
          issues I (rawValue I R overrides env file) ≠ []) ∧
      (∀ i ∈ issues I (rawValue I R overrides env file), ∃ field ∈ fields, ∃ v kind,
        rawValue I R overrides env file field = some v ∧ i = ⟨[field], kind⟩) ∧
      ∀ R' overrides' env' file', Settable R' env' file' →
        (∀ field ∈ fields, rawValue I R' overrides' env' file' field =
          rawValue I R overrides env file field) →
        load I R' overrides' env' file' = load I R overrides env file) ∧
    (∀ b e, file = some b → R env b = .error e → load I R overrides env file = .error e) ∧
    (∀ b bindings, file = some b → R env b = .ok bindings → ¬ EnvFile.Settable R env b →
      ∃ nul, load I R overrides env file = .error (.argument (.variableName nul))) ∧
    ∀ c, load I R overrides env file = .ok c →
      1 ≤ c.maxConnections ∧ 0 ≤ c.maxOverflow ∧ c.connectTimeout.isPositive = true ∧
        c.connectTimeout ≠ .nan ∧ 1 ≤ c.iterations := by
  refine ⟨?_, ?_, ?_, ?_⟩
  · intro hfile
    refine ⟨load_ok_iff hfile, load_error_iff hfile, fun i hi => mem_issues hi, ?_⟩
    intro R' overrides' env' file' hfile' hvalues
    rw [load_of_settable hfile, load_of_settable hfile', ofFields_congr hvalues]
  · rintro b e rfl hread
    exact load_of_file_error (EnvFile.load_of_read_error hread)
  · rintro b bindings rfl hread hnot
    cases hload : EnvFile.load R env b with
    | ok env' => exact absurd (EnvFile.exists_load_iff.1 ⟨env', hload⟩).2 hnot
    | error e =>
      rcases EnvFile.load_error hread hload with ⟨nul, rfl⟩
      exact ⟨nul, load_of_file_error hload⟩
  · intro c hload
    exact ((load_ok_iff (settable_of_load hload) c).1 hload).bounds

/-- An override covers a variable that is no number, an empty variable covers a binding, and a
binding is taken where there is nothing above it. -/
theorem covered_values_are_not_read :
    Settable EnvFile.read [("LNSTORE_MAX_CONNECTIONS", "many"), ("LNSTORE_DB_NAME", "")]
      (some (Utf8.encode
        "LNSTORE_DB_NAME=x\nLNSTORE_MAX_CONNECTIONS=-1\nLNSTORE_MAX_OVERFLOW=0_2\n")) ∧
    load .json EnvFile.read [("max_connections", .int 3), ("log_dir", .null)]
      [("LNSTORE_MAX_CONNECTIONS", "many"), ("LNSTORE_DB_NAME", "")]
      (some (Utf8.encode
        "LNSTORE_DB_NAME=x\nLNSTORE_MAX_CONNECTIONS=-1\nLNSTORE_MAX_OVERFLOW=0_2\n")) =
        .ok { storeName := "", maxConnections := 3, maxOverflow := 2 } := by
  -- The statements are read once for all the fields.
  have hbindings : EnvFile.resolve
      [("LNSTORE_MAX_CONNECTIONS", "many"), ("LNSTORE_DB_NAME", "")]
      (EnvFile.parse "LNSTORE_DB_NAME=x\nLNSTORE_MAX_CONNECTIONS=-1\nLNSTORE_MAX_OVERFLOW=0_2\n") =
      [("LNSTORE_DB_NAME", some "x"), ("LNSTORE_MAX_CONNECTIONS", some "-1"),
        ("LNSTORE_MAX_OVERFLOW", some "0_2")] := by
    decide +kernel
  have hfile : Settable EnvFile.read
      [("LNSTORE_MAX_CONNECTIONS", "many"), ("LNSTORE_DB_NAME", "")]
      (some (Utf8.encode
        "LNSTORE_DB_NAME=x\nLNSTORE_MAX_CONNECTIONS=-1\nLNSTORE_MAX_OVERFLOW=0_2\n")) := by
    intro b hb
    obtain rfl := Option.some.inj hb
    have hread := EnvFile.read_encode [("LNSTORE_MAX_CONNECTIONS", "many"), ("LNSTORE_DB_NAME", "")]
      "LNSTORE_DB_NAME=x\nLNSTORE_MAX_CONNECTIONS=-1\nLNSTORE_MAX_OVERFLOW=0_2\n"
    rw [hbindings] at hread
    exact EnvFile.exists_load_iff.1 ⟨_, (EnvFile.load_of_read hread).trans rfl⟩
  refine ⟨hfile, (((load_takes_highest_layer _ _ _ _ _).1 hfile).1 _).2 ?_⟩
  unfold rawValue
  simp only [Option.bind_some, EnvFile.binding?_encode, hbindings]
  constructor <;> decide +kernel

/-- A file with a binding that no environment can hold is refused, and so is a file that is no text,
though no field has a value that could be wrong. -/
theorem unholdable_binding_is_refused :
    (load .json EnvFile.read [] [] (some (Utf8.encode "'A=B'=1\n")) =
        .error (.argument (.variableName false)) ∧
      Taken .json (rawValue .json EnvFile.read [] [] (some (Utf8.encode "'A=B'=1\n"))) {}) ∧
    load .json EnvFile.read [] [] (some [0xff]) = .error (.notText ⟨0xff, 0, 1, .invalidStart⟩) ∧
      Taken .json (rawValue .json EnvFile.read [] [] (some [0xff])) {} := by
  refine ⟨⟨?_, ?_⟩, ?_, ?_⟩
  · exact load_of_file_error ((EnvFile.load_of_read (EnvFile.read_encode ..)).trans rfl)
  · unfold rawValue
    simp only [Option.bind_some, EnvFile.binding?_encode]
    constructor <;> decide +kernel
  · have hread : EnvFile.read [] [0xff] = .error (.notText ⟨0xff, 0, 1, .invalidStart⟩) :=
      EnvFile.read_eq_error_iff.2 ⟨_, rfl, rfl⟩
    exact load_of_file_error (EnvFile.load_of_read_error hread)
  · constructor <;> decide +kernel

end Config

end NodeStore
