import NodeStore.Failure
import NodeStore.Table.Basic

/-!
# The tables of a database file

A database file holds up to five tables: sealed seeds, channel peers, settings, channel ids and
revoked tokens. A table may be missing. The tables of the relational store are made together;
the table of seeds is also made by the secret store, and then remembers the ids that it gave.
-/

namespace NodeStore

/-- The five tables. -/
inductive TableName where
  | seeds
  | peers
  | settings
  | channels
  | revoked
deriving DecidableEq, Repr

namespace TableName

/-- The name of a table in the database. -/
def text : TableName → String
  | seeds => "mnemonic"
  | peers => "channel_peer_data"
  | settings => "rgb_config"
  | channels => "channel_ids"
  | revoked => "revoked_token"

/-- The columns of a table after its id. -/
def columns : TableName → List String
  | seeds => ["encrypted_mnemonic"]
  | peers => ["public_key", "socket_addr"]
  | settings => ["key", "value"]
  | channels => ["temporary_channel_id", "channel_id"]
  | revoked => ["revocation_id"]

/-- The column in which no two rows have the same value. -/
def keyColumn : TableName → Option String
  | seeds => none
  | t => t.columns.head?

/-- The look-up of a row by its key. -/
def lookup (t : TableName) (key : String) : Statement :=
  ⟨t.text, "id" :: t.columns, some key⟩

/-- The look-up of a row without a key, which no row of the table is. -/
def lookupUnnamed (t : TableName) : Statement :=
  ⟨t.text, "id" :: t.columns, none⟩

/-- The table is missing. -/
def missing (t : TableName) (statement : Option Statement) : DatabaseFault :=
  .relational (.noSuchTable t.text) statement

/-- A new row has no key. -/
def noKey (t : TableName) : DatabaseFault :=
  .relational (.notNull t.text (t.columns.headD "")) none

/-- A column of a new row has no value. -/
def noValue (t : TableName) : DatabaseFault :=
  .relational (.notNull t.text (t.columns.getLast?.getD "")) none

end TableName

/-- What a database file holds. -/
structure Tables where
  seeds : Option (Table Cell) := none
  peers : Option (Table (Cell × Cell)) := none
  settings : Option (Table (Cell × Cell)) := none
  channels : Option (Table (Cell × Cell)) := none
  revoked : Option (Table Cell) := none
deriving DecidableEq, Repr

namespace Tables

/-- Makes the tables of the relational store that are missing. -/
def createMissing (t : Tables) : Tables where
  seeds := some (t.seeds.getD {})
  peers := some (t.peers.getD {})
  settings := some (t.settings.getD {})
  channels := some (t.channels.getD {})
  revoked := some (t.revoked.getD {})

/-- Makes the table of the secret store if it is missing; it never gives an id twice. -/
def createSeeds (t : Tables) : Tables :=
  { t with seeds := some (t.seeds.getD { lastId := some 0 }) }

/-! ## Edits by other programs -/

/-- The columns of a row of one column. -/
def oneCell : List Cell → Option Cell
  | [a] => some a
  | _ => none

/-- The columns of a row of two columns. -/
def twoCells : List Cell → Option (Cell × Cell)
  | [a, b] => some (a, b)
  | _ => none

/-- The rows of a table as ids and lists of columns. -/
def rowsOf (t : Tables) : TableName → Option (List (Row (List Cell)))
  | .seeds => t.seeds.map fun x => x.rows.map fun r => ⟨r.id, [r.data]⟩
  | .peers => t.peers.map fun x => x.rows.map fun r => ⟨r.id, [r.data.1, r.data.2]⟩
  | .settings => t.settings.map fun x => x.rows.map fun r => ⟨r.id, [r.data.1, r.data.2]⟩
  | .channels => t.channels.map fun x => x.rows.map fun r => ⟨r.id, [r.data.1, r.data.2]⟩
  | .revoked => t.revoked.map fun x => x.rows.map fun r => ⟨r.id, [r.data]⟩

/-- The rows of a table of one column, if all of them have it. -/
def singles (rows : List (Row (List Cell))) : List (Row Cell) :=
  rows.filterMap fun r => (oneCell r.data).map fun c => ⟨r.id, c⟩

/-- The rows of a table of two columns. -/
def pairs (rows : List (Row (List Cell))) : List (Row (Cell × Cell)) :=
  rows.filterMap fun r => (twoCells r.data).map fun c => ⟨r.id, c⟩

/-- Replaces the rows of a table. A table that remembers ids remembers one that is higher. -/
def setRows (t : Tables) (name : TableName) (rows : List (Row (List Cell))) : Tables :=
  match name with
  | .seeds =>
    let highest := rows.foldl (fun n r => max n r.id) 0
    { t with seeds := t.seeds.map fun x =>
        ⟨singles rows, x.lastId.map fun n => max n highest⟩ }
  | .peers => { t with peers := t.peers.map fun x => { x with rows := pairs rows } }
  | .settings => { t with settings := t.settings.map fun x => { x with rows := pairs rows } }
  | .channels => { t with channels := t.channels.map fun x => { x with rows := pairs rows } }
  | .revoked => { t with revoked := t.revoked.map fun x => { x with rows := singles rows } }

/-- Removes a table. -/
def drop (t : Tables) : TableName → Tables
  | .seeds => { t with seeds := none }
  | .peers => { t with peers := none }
  | .settings => { t with settings := none }
  | .channels => { t with channels := none }
  | .revoked => { t with revoked := none }

/-- The id that a table gives next. -/
def nextIdOf (t : Tables) : TableName → Int
  | .seeds => (t.seeds.getD {}).nextId
  | .peers => (t.peers.getD {}).nextId
  | .settings => (t.settings.getD {}).nextId
  | .channels => (t.channels.getD {}).nextId
  | .revoked => (t.revoked.getD {}).nextId

/-- Puts a row in its place among rows in the order of ids. -/
def insertRow (r : Row (List Cell)) : List (Row (List Cell)) → List (Row (List Cell))
  | [] => [r]
  | s :: rest => if r.id < s.id then r :: s :: rest else s :: insertRow r rest

/-- The first column without a value. -/
def firstMissing (columns : List (String × Option Cell)) : Option String :=
  (columns.find? fun c => c.2.isNone).map Prod.fst

/-- Another row has the same key. -/
def keyTaken (rows : List (Row (List Cell))) (id : Int) (cells : List Cell) : Bool :=
  rows.any fun r => r.id != id && r.data.head? == cells.head?

/-- Whether a row may stand among others: its columns have values, and its key is its own. -/
def checkRow (name : TableName) (rows : List (Row (List Cell))) (id : Int)
    (columns : List (String × Option Cell)) : Except EngineFault (List Cell) :=
  match firstMissing columns with
  | some c => .error (.notNull name.text c)
  | none =>
    let cells := columns.filterMap Prod.snd
    match name.keyColumn with
    | some k =>
      if keyTaken rows id cells then .error (.notUnique name.text k) else .ok cells
    | none => .ok cells

/-- Adds a row, with an id of its own or the next one. -/
def insert (t : Tables) (name : TableName) (id : Option Int) (value : String → Option Cell) :
    Except EngineFault Tables := do
  match t.rowsOf name with
  | none => .error (.noSuchTable name.text)
  | some rows =>
    let newId := id.getD (t.nextIdOf name)
    let columns := name.columns.map fun c => (c, value c)
    if (firstMissing columns).isNone && rows.any (fun r => r.id == newId) then
      .error (.notUnique name.text "id")
    else
      let cells ← checkRow name rows newId columns
      return t.setRows name (insertRow ⟨newId, cells⟩ rows)

/-- Changes columns of the row with an id; without such a row nothing happens. -/
def update (t : Tables) (name : TableName) (id : Int)
    (change : String → Option (Option Cell)) : Except EngineFault Tables := do
  match t.rowsOf name with
  | none => .error (.noSuchTable name.text)
  | some rows =>
    match rows.find? fun r => r.id == id with
    | none => return t
    | some row =>
      let columns := (name.columns.zip row.data).map fun (c, old) => (c, (change c).getD (some old))
      let cells ← checkRow name rows id columns
      return t.setRows name (rows.map fun r => if r.id == id then ⟨id, cells⟩ else r)

/-- Removes the row with an id. -/
def delete (t : Tables) (name : TableName) (id : Int) : Except EngineFault Tables :=
  match t.rowsOf name with
  | none => .error (.noSuchTable name.text)
  | some rows => .ok (t.setRows name (rows.filter fun r => r.id != id))

end Tables

end NodeStore
