import NodeStore.Entropy
import NodeStore.Logging
import NodeStore.Vault

/-!
# The host

What a node uses of the machine that it runs on: its files, its source of random bytes, its
clock, its log, and the cipher that is installed. Removing files, discarding temporary ones and
flushing files to disk may be failing on it.
-/

namespace NodeStore

/-- A machine that nodes run on. -/
structure Host where
  files : FileTree
  /-- Where relative paths start. -/
  workDir : Place
  entropy : Entropy
  /-- The time that tokens carry. -/
  time : Nat
  /-- The time as log files show it. -/
  stamp : String
  cipher : TokenCipher
  removalFails : Bool := false
  discardFails : Bool := false
  flushFails : Bool := false
  logging : Logging := {}
  /-- All lines that were logged, whether or not a handler wrote them. -/
  log : List LogLine := []

/-- An operation on a host. What it did to the host stays also when it fails. -/
abbrev HostM := ExceptT Failure (StateM Host)

namespace Host

/-- Logs a line. -/
def emit (h : Host) (l : LogLine) : Host :=
  { h with files := (h.logging.write h.stamp l h.files).2, log := h.log ++ [l] }

/-- Logs lines. -/
def emitAll (h : Host) (ls : List LogLine) : Host :=
  ls.foldl emit h

/-- Logs a message. -/
def say (level : Int) (subsystem message : String) : HostM Unit :=
  modify fun h => h.emit ⟨level, subsystem, message⟩

/-- Changes the files, or fails with the fault of the change. -/
def changeFiles (change : FileTree → Place → Except FileFault FileTree) : HostM Unit := do
  let h ← get
  match change h.files h.workDir with
  | .ok files => set { h with files }
  | .error fault => throw (.file fault)

/-- Makes a folder and the folders that it lies in. -/
def makeAll (p : Path) : HostM Unit := do
  let h ← get
  let (made, files) := h.files.makeAll h.workDir p
  set { h with files }
  match made with
  | .ok () => return
  | .error fault => throw (.file fault)

/-- Removes a file. -/
def removeFile (h : Host) (p : Path) : Except FileFault Host :=
  if h.removalFails then .error .permissionDenied
  else (h.files.remove h.workDir p).map fun files => { h with files }

/-- What a database engine finds at a path: the place of the file and its tables. An empty file
and an empty place are databases without tables. -/
def databaseAt (h : Host) (p : Path) : Except EngineFault (Place × Tables) :=
  match h.files.resolve h.workDir p with
  | .error _ => .error .cannotOpen
  | .ok place =>
    match h.files.entry? place with
    | some (.database tables) => .ok (place, tables)
    | some (.file []) => .ok (place, {})
    | some (.file _) => .error .notADatabase
    | some .folder => .error .cannotOpen
    | none =>
      match h.files.entry? place.dropLast with
      | some .folder => .ok (place, {})
      | _ => .error .cannotOpen

/-- Puts the tables of a database file in place. -/
def putTables (h : Host) (place : Place) (tables : Tables) : Host :=
  { h with files := h.files.put place (.database tables) }

/-- What stands at the place of a path, if anything does. -/
def find? (p : Path) : HostM (Option FileEntry) := do
  let h ← get
  liftM ((h.files.find? h.workDir p).mapError Failure.file)

/-- Makes the folder of a file unless something is there. -/
def makeParent (p : Path) : HostM Unit := do
  if (← find? p.parent).isNone then makeAll p.parent

end Host

end NodeStore
