import NodeStore.Logging
import NodeStore.Vault

/-!
# The secret store

The sealed seed phrase in a table of its own. The phrase is in the row with id 1, which a later
save changes in place. The store of a backup may be a file that holds a sealed phrase: its phrase
is moved into the table, and only then the file may go.
-/

namespace NodeStore

/-- The state of a secret store. -/
structure SecretState where
  /-- The table of seeds, unless it is missing. -/
  seeds : Option (Table Cell)
  /-- Why the engine does not answer, if it does not. -/
  outage : Option EngineFault := none
  entropy : Entropy
  log : List LogLine := []

/-- An operation of a secret store. -/
abbrev SecretM := ExceptT Failure (StateM SecretState)

/-- How a secret store seals: its vault, and the time that it puts on tokens. -/
structure SecretStore where
  vault : Vault
  time : Nat

namespace SecretStore

/-- The subsystem that the store logs under. -/
def subsystem : String := "storage.secret"

/-- The row of the phrase. -/
def phraseId : Int := 1

/-- Logs a message. -/
def log (level : Int) (message : String) : SecretM Unit :=
  modify fun s => { s with log := s.log ++ [⟨level, subsystem, message⟩] }

/-- The table of seeds, if the engine answers. -/
def table (doing : Option String) : SecretM (Table Cell) := do
  let s ← get
  match s.outage, s.seeds with
  | some fault, _ => throw (.database (.secret doing fault))
  | none, none => throw (.database (.secret doing (.noSuchTable TableName.seeds.text)))
  | none, some t => return t

/-- A phrase is stored. -/
def isInitialized : SecretM Bool := do
  return ((← table none).withId? phraseId).isSome

/-- Fails if a phrase is stored. -/
def checkUninitialized : SecretM Unit := do
  if ← isInitialized then throw .alreadyInitialized

/-- Seals a phrase with fresh randomness. -/
def sealPhrase (store : SecretStore) (password phrase : RawText) : SecretM String := fun s =>
  let (result, entropy) := (store.vault.sealPhrase store.time password phrase).run s.entropy
  (result, { s with entropy })

/-- Replaces the rows of the table. -/
def setTable (t : Table Cell) : SecretM Unit :=
  modify fun s => { s with seeds := some t }

/-- Checks, seals and stores a phrase. -/
def save (store : SecretStore) (password phrase : RawText) : SecretM Unit := do
  let sealedText ← store.sealPhrase password phrase
  let t ← table (some "Failed to save mnemonic")
  match t.withId? phraseId with
  | some _ =>
    setTable { t with rows := t.rows.map fun r =>
      if r.id = phraseId then ⟨r.id, .text sealedText⟩ else r }
  | none =>
    setTable (t.append (.text sealedText))
    log LogLevel.info "Created a new wallet"

/-- Opens the stored phrase. -/
def open? (store : SecretStore) (password : RawText) (stored : Cell) : Except Failure String :=
  match stored with
  | .text sealedText => store.vault.openPhrase password sealedText
  | .blob _ => .error (.bytes .sealedPhrase)

/-- The stored phrase. -/
def get (store : SecretStore) (password : RawText) : SecretM String := do
  match (← table none).withId? phraseId with
  | none => throw .notInitialized
  | some r => liftM (store.open? password r.data)

end SecretStore

end NodeStore
