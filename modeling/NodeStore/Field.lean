import NodeStore.Assoc
import NodeStore.Issue
import NodeStore.Json
import NodeStore.Path
import NodeStore.Text.Numeral

/-!
# Fields

How the fields of records and of the configuration are read from values. Reading is generous
with numbers: a truth value counts as 0 or 1, a float without a fraction as an integer, and a
text that writes a number as that number. Texts, paths and the values of an enumeration are taken
as they are.
-/

namespace NodeStore.Field

/-- The integers below this magnitude are the ones that a float can stand for. -/
def floatIntBound : Nat := Nat.pow 2 63

/-- An integer that a float is equal to. -/
def intOfFloat (x : Binary64) : Reading Int :=
  if !x.isFinite then .error .finiteNumber
  else match x.toInt? with
    | none => .error .intFromFloat
    | some n => if n.natAbs < floatIntBound then .ok n else .error .intParsingSize

/-- Reads an integer. -/
def readInt : Json → Reading Int
  | .bool b => .ok (if b then 1 else 0)
  | .int n => .ok n
  | .float x => intOfFloat x
  | .str s =>
    match Text.readInt s with
    | .value n => .ok n
    | .tooLong => .error .intParsingSize
    | .malformed => .error .intParsing
  | _ => .error .intType

/-- Reads a float. An integer is rounded; one that is too large for a float is none. -/
def readFloat : Json → Reading Binary64
  | .bool b => .ok (Binary64.ofInt (if b then 1 else 0))
  | .int n =>
    let x := Binary64.ofInt n
    if x.isFinite then .ok x else .error .floatType
  | .float x => .ok x
  | .str s =>
    match Text.readFloat s with
    | some x => .ok x
    | none => .error .floatParsing
  | _ => .error .floatType

/-- Reads a text. -/
def readText : Json → Reading String
  | .str s => .ok s
  | _ => .error .stringType

/-- Reads a path. -/
def readPath : Json → Reading Path
  | .str s => .ok (Path.ofString s)
  | _ => .error .pathType

/-- An integer. -/
def int (v : Json) : Checked Int :=
  Checked.ofReading [] (readInt v)

/-- A text. -/
def text (v : Json) : Checked String :=
  Checked.ofReading [] (readText v)

/-- One of the values of an enumeration, by its exact name. -/
def oneOf {α : Type} (names : List (String × α)) : Json → Checked α
  | .str s =>
    match names.lookup s with
    | some a => .ok a
    | none => Checked.issue .enum
  | _ => Checked.issue .enum

/-- A value or nothing. -/
def optional {α : Type} (check : Json → Checked α) : Json → Checked (Option α)
  | .null => .ok none
  | v => (check v).map some

/-- A number that is equal to one. An integer of more than 64 bits is not looked at. -/
def one : Json → Checked Unit
  | .bool true => .ok ()
  | .int n =>
    if n = 1 then .ok ()
    else if -(Nat.pow 2 63 : Int) ≤ n ∧ n < Nat.pow 2 63 then Checked.issue .literalError
    else Checked.issue .intParsingSize
  | .float x => if x.toInt? = some 1 then .ok () else Checked.issue .literalError
  | _ => Checked.issue .literalError

/-- The entries of a map, each looked at; a repeated key keeps its first place and its last
value. -/
def entries {α : Type} (check : Json → Checked α) :
    List (String × Json) → Checked (List (String × α))
  | [] => .ok []
  | (k, v) :: rest =>
    match (check v).under k, entries check rest with
    | .ok a, .ok as => .ok ((k, a) :: as)
    | .ok _, .error e => .error e
    | .error e, .ok _ => .error e
    | .error e, .error e' => .error (e ++ e')

/-- A map from texts. -/
def table {α : Type} (check : Json → Checked α) : Json → Checked (List (String × α))
  | .obj members => (entries check members).map Assoc.ofList
  | _ => Checked.issue .dictType

/-- A field of an object, or its default; the issues are found below its name. -/
def get {α : Type} (members : List (String × Json)) (name : String) (default : Option α)
    (check : Json → Checked α) : Checked α :=
  match Json.member? name members, default with
  | some v, _ => (check v).under name
  | none, some a => .ok a
  | none, none => (Checked.issue .missing).under name

/-- An object whose members are the fields of a record. -/
def record {α : Type} (read : List (String × Json) → Checked α) : Json → Checked α
  | .obj members => read members
  | _ => Checked.issue .modelType

end NodeStore.Field
