import NodeStore.Host
import NodeStore.Store.Basic

/-!
# Open relational stores

A handle of a relational store: the path of its file, its cache and its outages. Several handles
may be open on one file; each operation sees the tables as the file holds them at that time. A
file that the engine cannot open, or that is no database, counts as an outage of all transactions.
-/

namespace NodeStore

/-- An open relational store. -/
structure StoreHandle where
  path : Path
  cache : ConfigCache Cell := {}
  outages : Outages := {}
deriving DecidableEq, Repr

namespace StoreHandle

/-- The state in which an operation starts: the tables of the file, or the outage that they cannot
be had. -/
def start (s : StoreHandle) (h : Host) : StoreState :=
  match h.databaseAt s.path with
  | .ok (_, tables) => { tables, cache := s.cache, outages := s.outages }
  | .error fault =>
    let noFile : DatabaseFault := .relational fault none
    { tables := {}, cache := s.cache
      outages := { s.outages with transactions := s.outages.transactions.or (some noFile) } }

/-- Puts the tables that an operation left into the file. Nothing is written to an empty place as
long as there are no tables. -/
def writeBack (s : StoreHandle) (tables : Tables) (h : Host) : Host :=
  match h.databaseAt s.path with
  | .ok (place, old) => if tables = old then h else h.putTables place tables
  | .error _ => h

/-- Runs an operation: its result, and the handle and the host afterwards. -/
def run {α : Type} (s : StoreHandle) (op : StoreM α) (h : Host) :
    Except Failure α × StoreHandle × Host :=
  let (result, state) := (op.run).run (s.start h)
  let s' : StoreHandle :=
    { s with
      cache := state.cache
      outages := { state.outages with transactions := s.outages.transactions } }
  (result, s', (s.writeBack state.tables h).emitAll state.log)

/-- The file of the store at a path. The engine takes a question mark and what follows it for
parameters. -/
def fileOf (path : Path) : Path :=
  Path.ofString (String.ofList (path.toString.toList.takeWhile (· != '?')))

/-- Opens the store at a path: its folder is made if nothing is there, then its tables. -/
def «open» (path : Path) : HostM StoreHandle := do
  Host.say LogLevel.info Store.subsystem ("Initializing database at path: " ++ path.toString)
  Host.makeParent path
  match (← get).databaseAt (fileOf path) with
  | .error fault => throw (.database (.relational fault none))
  | .ok (place, tables) =>
    modify fun h => h.putTables place tables.createMissing
    Host.say LogLevel.info Store.subsystem "Database schema ready"
    return { path := fileOf path }

end StoreHandle

end NodeStore
