import NodeStore.Field
import NodeStore.Text.Utf8

/-!
# Bookkeeping records

Payments, sweep transactions and swaps are kept as JSON objects with a version and one map. A
record is written compactly, its fields in the order of declaration; it is read with defaults
for the fields that are missing, and with fields that are not known left out.
-/

namespace NodeStore

/-- An optional value in JSON. -/
def Json.ofOption {α : Type} (f : α → Json) : Option α → Json
  | none => .null
  | some a => f a

/-! ## Payments -/

/-- How a payment stands. -/
inductive PaymentStatus where
  | pending
  | succeeded
  | failed
deriving DecidableEq, Repr

/-- The names of the states of a payment. -/
def PaymentStatus.names : List (String × PaymentStatus) :=
  [("pending", .pending), ("succeeded", .succeeded), ("failed", .failed)]

/-- The name of a state. -/
def PaymentStatus.name : PaymentStatus → String
  | pending => "pending"
  | succeeded => "succeeded"
  | failed => "failed"

/-- A payment, received or made. -/
structure Payment where
  preimage : Option String := none
  secret : Option String := none
  status : PaymentStatus := .pending
  amountMsat : Option Int := none
  createdAt : Int := 0
  updatedAt : Int := 0
deriving DecidableEq, Repr

namespace Payment

/-- A payment as JSON. -/
def toJson (p : Payment) : Json :=
  .obj [("preimage", .ofOption .str p.preimage), ("secret", .ofOption .str p.secret),
    ("status", .str p.status.name), ("amt_msat", .ofOption .int p.amountMsat),
    ("created_at", .int p.createdAt), ("updated_at", .int p.updatedAt)]

/-- A payment from JSON. -/
def ofJson : Json → Checked Payment :=
  Field.record fun m =>
    .ok Payment.mk
    |> Checked.also (Field.get m "preimage" (some none) (Field.optional Field.text))
    |> Checked.also (Field.get m "secret" (some none) (Field.optional Field.text))
    |> Checked.also (Field.get m "status" (some .pending) (Field.oneOf PaymentStatus.names))
    |> Checked.also (Field.get m "amt_msat" (some none) (Field.optional Field.int))
    |> Checked.also (Field.get m "created_at" (some 0) Field.int)
    |> Checked.also (Field.get m "updated_at" (some 0) Field.int)

end Payment

/-! ## Swaps -/

/-- How a swap stands. -/
inductive SwapStatus where
  | waiting
  | pending
  | succeeded
  | expired
  | failed
deriving DecidableEq, Repr

/-- The names of the states of a swap. -/
def SwapStatus.names : List (String × SwapStatus) :=
  [("waiting", .waiting), ("pending", .pending), ("succeeded", .succeeded),
    ("expired", .expired), ("failed", .failed)]

/-- The name of a state. -/
def SwapStatus.name : SwapStatus → String
  | waiting => "waiting"
  | pending => "pending"
  | succeeded => "succeeded"
  | expired => "expired"
  | failed => "failed"

/-- A swap of one asset for another. -/
structure Swap where
  quantityFrom : Int
  quantityTo : Int
  fromAsset : Option String := none
  toAsset : Option String := none
  expiry : Int := 0
  status : SwapStatus := .waiting
deriving DecidableEq, Repr

namespace Swap

/-- A swap as JSON. -/
def toJson (s : Swap) : Json :=
  .obj [("qty_from", .int s.quantityFrom), ("qty_to", .int s.quantityTo),
    ("from_asset", .ofOption .str s.fromAsset), ("to_asset", .ofOption .str s.toAsset),
    ("expiry", .int s.expiry), ("status", .str s.status.name)]

/-- A swap from JSON. -/
def ofJson : Json → Checked Swap :=
  Field.record fun m =>
    .ok Swap.mk
    |> Checked.also (Field.get m "qty_from" none Field.int)
    |> Checked.also (Field.get m "qty_to" none Field.int)
    |> Checked.also (Field.get m "from_asset" (some none) (Field.optional Field.text))
    |> Checked.also (Field.get m "to_asset" (some none) (Field.optional Field.text))
    |> Checked.also (Field.get m "expiry" (some 0) Field.int)
    |> Checked.also (Field.get m "status" (some .waiting) (Field.oneOf SwapStatus.names))

end Swap

/-! ## Records with a map -/

/-- A record with one map from texts. -/
structure Ledger (α : Type) where
  entries : List (String × α) := []
deriving DecidableEq, Repr

namespace Ledger

variable {α : Type}

/-- The record whose map has a given name, as JSON. -/
def toJson (name : String) (value : α → Json) (r : Ledger α) : Json :=
  .obj [("version", .int 1), (name, .obj (r.entries.map fun (k, a) => (k, value a)))]

/-- The record whose map has a given name, from JSON. -/
def ofJson (name : String) (value : Json → Checked α) : Json → Checked (Ledger α) :=
  Field.record fun m =>
    .ok (fun _ entries => Ledger.mk entries)
    |> Checked.also (Field.get m "version" (some ()) Field.one)
    |> Checked.also (Field.get m name (some []) (Field.table value))

/-- Writes a record. -/
def encode (name : String) (value : α → Json) (r : Ledger α) : Bytes :=
  Utf8.encodeChars (Json.print (toJson name value r))

/-- Reads a record. What is not a JSON text is one issue, found at no place. -/
def decode (name : String) (value : Json → Checked α) (b : Bytes) : Checked (Ledger α) :=
  match Utf8.decodeChars b with
  | .error _ => Checked.issue .jsonInvalid
  | .ok cs =>
    match Json.parseChars cs with
    | none => Checked.issue .jsonInvalid
    | some v => ofJson name value v

end Ledger

end NodeStore
