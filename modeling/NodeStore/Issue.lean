/-!
# Findings of validation

A record or a configuration that does not have its form is refused with a list of issues, each
with the place where it was found, a list of field names and map keys from the outside in. All
fields are looked at, in the order in which they are declared.
-/

namespace NodeStore

/-- What is wrong at a place. -/
inductive IssueKind where
  /-- The text is not JSON. -/
  | jsonInvalid
  /-- An object was expected for a record. -/
  | modelType
  | missing
  | intType
  | intParsing
  | intParsingSize
  | intFromFloat
  | finiteNumber
  | floatType
  | floatParsing
  | stringType
  | pathType
  | enum
  | literalError
  | dictType
  | greaterThan
  | greaterThanEqual
deriving DecidableEq, Repr

/-- The name of a kind of issue in reports. -/
def IssueKind.name : IssueKind → String
  | jsonInvalid => "json_invalid"
  | modelType => "model_type"
  | missing => "missing"
  | intType => "int_type"
  | intParsing => "int_parsing"
  | intParsingSize => "int_parsing_size"
  | intFromFloat => "int_from_float"
  | finiteNumber => "finite_number"
  | floatType => "float_type"
  | floatParsing => "float_parsing"
  | stringType => "string_type"
  | pathType => "path_type"
  | enum => "enum"
  | literalError => "literal_error"
  | dictType => "dict_type"
  | greaterThan => "greater_than"
  | greaterThanEqual => "greater_than_equal"

/-- Something wrong at a place. -/
structure Issue where
  place : List String
  kind : IssueKind
deriving DecidableEq, Repr

namespace Issue

/-- The issue seen from one level further out. -/
def under (key : String) (i : Issue) : Issue :=
  { i with place := key :: i.place }

end Issue

/-- A value that was looked at by itself, or the one thing that is wrong with it. -/
abbrev Reading := Except IssueKind

/-- A value that was looked at, or what is wrong with it. -/
abbrev Checked := Except (List Issue)

namespace Checked

/-- One issue at this place. -/
def issue {α : Type} (kind : IssueKind) : Checked α :=
  .error [⟨[], kind⟩]

/-- What was found at a place where one value was looked at. -/
def ofReading {α : Type} (place : List String) (r : Reading α) : Checked α :=
  r.mapError fun kind => [⟨place, kind⟩]

/-- What was found below a key. -/
def under {α : Type} (key : String) (c : Checked α) : Checked α :=
  c.mapError fun issues => issues.map (Issue.under key)

/-- Hands a checked value to a checked function; the issues of both are kept, the function's
first. -/
def also {α β : Type} (c : Checked α) (f : Checked (α → β)) : Checked β :=
  match f, c with
  | .ok f, .ok a => .ok (f a)
  | .ok _, .error e => .error e
  | .error e, .ok _ => .error e
  | .error e, .error e' => .error (e ++ e')

end Checked

end NodeStore
