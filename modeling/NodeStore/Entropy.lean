import NodeStore.Bytes

/-!
# Random bytes

Random bytes come from an endless source, of which each request takes the next ones.
-/

namespace NodeStore

/-- An endless source of bytes, and how many have been taken. -/
structure Entropy where
  source : Nat → UInt8
  taken : Nat := 0

namespace Entropy

/-- The next bytes, and the source after them. -/
def take (n : Nat) (e : Entropy) : Bytes × Entropy :=
  ((List.range n).map fun i => e.source (e.taken + i), { e with taken := e.taken + n })

/-- Draws the next bytes. -/
def draw (n : Nat) : StateM Entropy Bytes :=
  modifyGet (take n)

/-- The source that yields the given bytes first. -/
def ofBytes (b : Bytes) : Entropy where
  source i := b.getD i 0

end Entropy

end NodeStore
