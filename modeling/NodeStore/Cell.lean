import NodeStore.Bytes

/-!
# Column values

A text column of a store holds text or raw bytes; a number written into it becomes text. A
`Value` is what a caller may hand over for such a column: besides text and bytes it may be of
another kind, of which only the name is ever reported.
-/

namespace NodeStore

/-- What a text column can hold. -/
inductive Cell where
  | text (s : String)
  | blob (b : Bytes)
deriving DecidableEq, Repr

/-- The kinds of value that are neither text nor bytes. -/
inductive OtherKind where
  | null
  | bool
  | int
  | float
  | list
  | dict
deriving DecidableEq, Repr

/-- A value of any kind, as a caller hands it over. -/
inductive Value where
  | text (s : String)
  | blob (b : Bytes)
  | other (kind : OtherKind)
deriving DecidableEq, Repr

namespace OtherKind

/-- The name of a kind in messages. -/
def name : OtherKind → String
  | null => "NoneType"
  | bool => "bool"
  | int => "int"
  | float => "float"
  | list => "list"
  | dict => "dict"

end OtherKind

namespace Value

/-- The name of a value's kind in messages. -/
def kindName : Value → String
  | text _ => "str"
  | blob _ => "bytes"
  | other k => k.name

end Value

/-- A column value as a value of any kind. -/
def Cell.toValue : Cell → Value
  | text s => .text s
  | blob b => .blob b

end NodeStore
