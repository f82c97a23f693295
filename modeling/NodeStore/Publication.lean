import NodeStore.Node.Basic

/-!
# Publication of settings

The protocol engine reads some settings from files in the storage directory. The store is the
source of truth: publication writes each key that has a value to its file, leaves the files of
other keys alone, and goes on after a file that cannot be written. Only after all keys have been
tried does it fail, naming the ones that could not be written. A value that is not text ends it at
once.
-/

namespace NodeStore.Publication

/-- The subsystem that publication logs under. -/
def subsystem : String := "storage.mirror"

/-- The keys that are published. -/
def keys : List String :=
  ["indexer_url", "proxy_endpoint", "bitcoin_network", "wallet_fingerprint",
    "wallet_account_xpub_colored", "wallet_account_xpub_vanilla", "wallet_master_fingerprint"]

/-- The bytes that a value is published as; only text is. -/
def bytesOf : Cell → Except Failure Bytes
  | .text s => .ok (Utf8.encode s)
  | .blob _ => .error (.bytes .setting)

/-- The keys that were written, and the keys that could not be. -/
structure Outcome where
  written : List String := []
  failed : List String := []

/-- Publishes one key. -/
def publish (dir : Path) (key : String) (o : Outcome) : NodeM Outcome := do
  match ← Node.onStore (Store.loadSetting key) with
  | none => return o
  | some value =>
    let content ← liftM (bytesOf value)
    let s ← get
    let path := dir / key
    match s.host.files.write s.host.workDir path content with
    | .ok files =>
      set { s with host := { s.host with files } }
      Node.say LogLevel.info subsystem s!"Synced {key} to file"
      return { o with written := o.written ++ [key] }
    | .error fault =>
      if fault.isSystem then
        Node.say LogLevel.error subsystem
          (s!"Failed to sync {key} to file: " ++ fault.at path.toString)
        return { o with failed := if o.failed.contains key then o.failed else o.failed ++ [key] }
      else throw (.file fault)

/-- Publishes keys in order. -/
def publishAll (dir : Path) : List String → Outcome → NodeM Outcome
  | [], o => return o
  | key :: rest, o => do publishAll dir rest (← publish dir key o)

/-- Publishes keys; fails if one of them could not be written. -/
def run (dir : Path) (keys : List String) : NodeM SyncReport := do
  let o ← publishAll dir keys {}
  if o.failed.isEmpty then return ⟨o.written⟩
  else throw (.transfer (.notSynced (o.failed.mergeSort fun a b => a ≤ b)))

end NodeStore.Publication
