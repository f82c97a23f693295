import NodeStore.EnvFile
import NodeStore.Field
import NodeStore.Path

/-!
# Configuration

Where the stores and files of a node are, how its engine is used, and how costly its keys are to
derive. A value comes from the highest layer that has one: an override, the environment, the file
of environment variables, the default; only that value is looked at.
-/

namespace NodeStore

/-- The configuration of a node. -/
structure Config where
  storageDir : Path := ⟨.relative, ["data"]⟩
  /-- Where the protocol engine keeps its files; `.ldk` in the storage directory by default. -/
  protocolDir : Option Path := none
  storeName : String := "lnstore.db"
  secretName : String := "rln_db"
  logDir : Path := ⟨.relative, ["logs"]⟩
  maxConnections : Int := 10
  maxOverflow : Int := 0
  connectTimeout : Binary64 := Binary64.ofInt 30
  iterations : Int := 100000
deriving DecidableEq, Repr

namespace Config

/-- The file of the relational store. -/
def storePath (c : Config) : Path :=
  c.storageDir / c.storeName

/-- The file of the secret store. -/
def secretPath (c : Config) : Path :=
  c.storageDir / c.secretName

/-- The directory of the protocol engine's files. -/
def protocolDataDir (c : Config) : Path :=
  c.protocolDir.getD (c.storageDir / ".ldk")

/-- The names of the fields. -/
def fields : List String :=
  ["storage_dir", "ldk_data_dir", "db_name", "secret_db_name", "log_dir", "max_connections",
    "max_overflow", "connect_timeout", "pbkdf2_iterations"]

/-- The variable that sets a field. -/
def variableOf (field : String) : String :=
  "LNSTORE_" ++ field.map Char.toUpper

end Config

/-- What the values are that fields are set to, and how they are read. The value of a variable is a
text. -/
structure Coercion (V : Type) where
  ofText : String → V
  isNull : V → Bool
  path : V → Reading Path
  text : V → Reading String
  int : V → Reading Int
  float : V → Reading Binary64

namespace Coercion

variable {V : Type} (I : Coercion V)

/-- Values of the kinds that JSON has. -/
def json : Coercion Json where
  ofText := .str
  isNull
    | .null => true
    | _ => false
  path := Field.readPath
  text := Field.readText
  int := Field.readInt
  float := Field.readFloat

/-- A path or nothing. -/
def optionalPath (v : V) : Reading (Option Path) :=
  if I.isNull v then .ok none else (I.path v).map some

/-- An integer that is not below a bound. -/
def intFrom (least : Int) (v : V) : Reading Int := do
  let n ← I.int v
  if least ≤ n then return n else throw .greaterThanEqual

/-- A float above zero. -/
def positiveFloat (v : V) : Reading Binary64 := do
  let x ← I.float v
  if x.isPositive then return x else throw .greaterThan

end Coercion

namespace Config

variable {V : Type} (I : Coercion V)

/-- A field: what its value is read as, or its default if it has none. -/
def field {α : Type} (values : String → Option V) (name : String) (default : α)
    (read : V → Reading α) : Checked α :=
  match values name with
  | some v => Checked.ofReading [name] (read v)
  | none => .ok default

/-- The configuration with the given values, and defaults for the rest. -/
def ofFields (values : String → Option V) : Checked Config :=
  let d : Config := {}
  .ok Config.mk
  |> Checked.also (field values "storage_dir" d.storageDir I.path)
  |> Checked.also (field values "ldk_data_dir" none I.optionalPath)
  |> Checked.also (field values "db_name" d.storeName I.text)
  |> Checked.also (field values "secret_db_name" d.secretName I.text)
  |> Checked.also (field values "log_dir" d.logDir I.path)
  |> Checked.also (field values "max_connections" d.maxConnections (I.intFrom 1))
  |> Checked.also (field values "max_overflow" d.maxOverflow (I.intFrom 0))
  |> Checked.also (field values "connect_timeout" d.connectTimeout I.positiveFloat)
  |> Checked.also (field values "pbkdf2_iterations" d.iterations (I.intFrom 1))

/-- The value of a field in the highest layer above the defaults that has one. An override that
is null counts as none. -/
def layered (overrides : List (String × V)) (env : Environment) (field : String) : Option V :=
  match overrides.lookup field with
  | some v => if I.isNull v then ofVariable else some v
  | none => ofVariable
where
  ofVariable := (env.lookup (variableOf field)).map I.ofText

/-- Loads the configuration. A file of variables is read first, if there is one. -/
def load (read : EnvFile.Reader) (overrides : List (String × V)) (env : Environment)
    (file : Option Bytes) : Except Failure Config := do
  let env ← match file with
    | some b => EnvFile.load read env b
    | none => .ok env
  (ofFields I (layered I overrides env)).mapError .invalid

end Config

end NodeStore
