import NodeStore.Record.Bookkeeping
import NodeStore.Record.ChannelMap

/-!
# Protocol records

The records that the protocol engine keeps in files: the channel map, three kinds of
bookkeeping, and blobs whose bytes only the engine understands. Every kind can be written, read,
and has an empty default.
-/

namespace NodeStore

/-- The kinds of record. -/
inductive RecordKind where
  | channelMap
  | payments
  | txes
  | swaps
  | blob
deriving DecidableEq, Repr

/-- A record. -/
inductive Record where
  | channelMap (map : ChannelMap)
  | payments (r : Ledger Payment)
  /-- Sweep transactions in hex, by transaction id. -/
  | txes (r : Ledger String)
  | swaps (r : Ledger Swap)
  | blob (bytes : Bytes)
deriving DecidableEq, Repr

namespace RecordKind

/-- The empty record of a kind. -/
def default : RecordKind → Record
  | channelMap => .channelMap {}
  | payments => .payments {}
  | txes => .txes {}
  | swaps => .swaps {}
  | blob => .blob []

/-- The name of a kind in messages. -/
def name : RecordKind → String
  | channelMap => "ChannelIdsMap"
  | payments => "PaymentInfoStorage"
  | txes => "OutputSpenderTxes"
  | swaps => "SwapMap"
  | blob => "OpaqueBlob"

/-- Reads a record of a kind. -/
def decode (k : RecordKind) (b : Bytes) : Except Failure Record :=
  match k with
  | channelMap => ((ChannelMap.decode b).mapError .channelMap).map .channelMap
  | payments => ((Ledger.decode "payments" Payment.ofJson b).mapError .invalid).map .payments
  | txes => ((Ledger.decode "txes" Field.text b).mapError .invalid).map .txes
  | swaps => ((Ledger.decode "swaps" Swap.ofJson b).mapError .invalid).map .swaps
  | blob => .ok (.blob b)

/-- Builds a record of a kind from the values of its fields. -/
def ofFields (k : RecordKind) (fields : List (String × Json)) : Except Failure Record :=
  match k with
  | payments =>
    ((Ledger.ofJson "payments" Payment.ofJson (.obj fields)).mapError .invalid).map .payments
  | txes => ((Ledger.ofJson "txes" Field.text (.obj fields)).mapError .invalid).map .txes
  | swaps => ((Ledger.ofJson "swaps" Swap.ofJson (.obj fields)).mapError .invalid).map .swaps
  | k => .ok k.default

end RecordKind

namespace Record

/-- Writes a record. -/
def encode : Record → Except Failure Bytes
  | channelMap m => m.encode.mapError .channelMap
  | payments r => .ok (r.encode "payments" Payment.toJson)
  | txes r => .ok (r.encode "txes" Json.str)
  | swaps r => .ok (r.encode "swaps" Swap.toJson)
  | blob b => .ok b

end Record

end NodeStore
