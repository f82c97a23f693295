import NodeStore.Assoc
import NodeStore.Bytes
import NodeStore.Failure

/-!
# The channel map

The protocol engine gives a channel a temporary id and later a final one. The map from one to
the other is written as a header (magic, version, number of entries) and the pairs of ids, in
the order of the map. A map is read only if its length is exactly the one that its header
announces.
-/

namespace NodeStore

/-- Temporary channel ids and the final ids that replaced them. -/
structure ChannelMap where
  entries : List (Bytes × Bytes) := []
deriving DecidableEq, Repr

namespace ChannelMap

/-- The first bytes of a written map. -/
def magic : Bytes := [0x43, 0x49, 0x44, 0x4d]

/-- The version of the format. -/
def version : UInt8 := 1

/-- The size of an id in bytes. -/
def idSize : Nat := 32

/-- The size of the header in bytes. -/
def headerSize : Nat := 9

/-- The map of a list of pairs. -/
def ofPairs (pairs : List (Bytes × Bytes)) : ChannelMap :=
  ⟨Assoc.ofList pairs⟩

/-- Reads a number of pairs. -/
def readPairs : (count : Nat) → Bytes → List (Bytes × Bytes)
  | 0, _ => []
  | n + 1, b =>
    (b.take idSize, (b.drop idSize).take idSize) :: readPairs n (b.drop (2 * idSize))

/-- Reads a map. -/
def decode (b : Bytes) : Except ChannelMapFault ChannelMap :=
  if b.length < headerSize then .error .truncated
  else if b.take 4 ≠ magic then .error .badMagic
  else
    let found := (b.drop 4).headD 0
    let count := Bytes.toNat ((b.drop 5).take 4)
    let expected := headerSize + count * 2 * idSize
    if found ≠ version then .error (.badVersion found.toNat)
    else if b.length ≠ expected then .error (.badSize expected b.length)
    else .ok (ofPairs (readPairs count (b.drop headerSize)))

/-- Writes pairs of ids, each of which must have its size. -/
def writePairs : List (Bytes × Bytes) → Except ChannelMapFault Bytes
  | [] => .ok []
  | (t, f) :: rest =>
    if t.length ≠ idSize ∨ f.length ≠ idSize then .error .badIdSize
    else (writePairs rest).map fun b => t ++ f ++ b

/-- The greatest number of pairs that the header can tell. -/
def maxCount : Nat := 4294967295

/-- Writes a map. The header comes first, so that too many pairs are reported before their ids are
looked at. -/
def encode (m : ChannelMap) : Except ChannelMapFault Bytes :=
  if maxCount < m.entries.length then .error .tooMany
  else
    (writePairs m.entries).map fun b =>
      magic ++ version :: Bytes.ofNat 4 m.entries.length ++ b

end ChannelMap

end NodeStore
