import NodeStore.Hex
import NodeStore.Json
import NodeStore.Table.Tables
import NodeStore.Text.Utf8

/-!
# Images of databases

The text that stands for the tables of a database outside of a run: a JSON object with an entry
for each table that is there, holding its rows and the highest id that it remembers.
-/

namespace NodeStore.Tables

/-- The five tables in the order of an image. -/
def names : List TableName :=
  [.seeds, .peers, .settings, .channels, .revoked]

/-- A column in an image. -/
def cellImage : Cell → Json
  | .text s => .str s
  | .blob b => .obj [("hex", .str (Hex.encode b))]

/-- The column of an image. -/
def cellOfImage? : Json → Option Cell
  | .str s => some (.text s)
  | .obj [("hex", .str s)] => (Hex.decode? s).map .blob
  | _ => none

/-- A row in an image: its id and its columns. -/
def rowImage (r : Row (List Cell)) : Json :=
  .arr (.int r.id :: r.data.map cellImage)

/-- The row of an image. -/
def rowOfImage? : Json → Option (Row (List Cell))
  | .arr (.int id :: columns) => (columns.mapM cellOfImage?).map fun cells => ⟨id, cells⟩
  | _ => none

/-- The highest id that a table remembers. -/
def lastIdOf (t : Tables) : TableName → Option Int
  | .seeds => t.seeds.bind Table.lastId
  | .peers => t.peers.bind Table.lastId
  | .settings => t.settings.bind Table.lastId
  | .channels => t.channels.bind Table.lastId
  | .revoked => t.revoked.bind Table.lastId

/-- A table in an image. -/
def tableImage (t : Tables) (name : TableName) : Option (String × Json) :=
  (t.rowsOf name).map fun rows =>
    let lastId := match t.lastIdOf name with
      | some n => .int n
      | none => .null
    (name.text, .obj [("rows", .arr (rows.map rowImage)), ("last_id", lastId)])

/-- The image of tables. -/
def image (t : Tables) : String :=
  String.ofList (Json.print (.obj (names.filterMap t.tableImage)))

/-- Rows and remembered id of an image's table. -/
def tableOfImage? : Json → Option (List (Row (List Cell)) × Option Int)
  | .obj [("rows", .arr rows), ("last_id", .int n)] =>
    (rows.mapM rowOfImage?).map fun rows => (rows, some n)
  | .obj [("rows", .arr rows), ("last_id", .null)] =>
    (rows.mapM rowOfImage?).map fun rows => (rows, none)
  | _ => none

/-- Puts the table of an image in place. -/
def putImage (t : Tables) (name : TableName) (rows : List (Row (List Cell)))
    (lastId : Option Int) : Tables :=
  match name with
  | .seeds => { t with seeds := some ⟨singles rows, lastId⟩ }
  | .peers => { t with peers := some ⟨pairs rows, lastId⟩ }
  | .settings => { t with settings := some ⟨pairs rows, lastId⟩ }
  | .channels => { t with channels := some ⟨pairs rows, lastId⟩ }
  | .revoked => { t with revoked := some ⟨singles rows, lastId⟩ }

/-- Adds the tables of an image's members. -/
def addImages (t : Tables) : List (String × Json) → Option Tables
  | [] => some t
  | (text, j) :: rest => do
    let name ← names.find? fun n => n.text == text
    let (rows, lastId) ← tableOfImage? j
    addImages (t.putImage name rows lastId) rest

/-- The tables of an image. -/
def ofImage? (text : String) : Option Tables :=
  match Json.parse text with
  | some (.obj members) => addImages {} members
  | _ => none

/-- What the bytes of a file stand for: a database if they are an image of one. -/
def ofBytes? (b : Bytes) : Option Tables :=
  (Utf8.decode b).toOption.bind ofImage?

end NodeStore.Tables
