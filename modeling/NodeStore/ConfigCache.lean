import NodeStore.Assoc

/-!
# The cache of settings

A store keeps what it knows of its settings in memory. An entry is either a value or the
knowledge that the key has none (`none`), so a key that was never set is looked up once. The
first entry for a key wins over a later `storeIfAbsent`: a value saved while a reader was at the
table is newer than what the reader found.
-/

namespace NodeStore

/-- What is known of each key, in the order in which the keys became known. -/
structure ConfigCache (α : Type) where
  entries : List (String × Option α) := []
deriving DecidableEq, Repr

namespace ConfigCache

variable {α : Type}

/-- The cache that knows nothing. -/
def empty : ConfigCache α := {}

/-- What is known of a key: nothing, that it is absent, or its value. -/
def lookup (c : ConfigCache α) (key : String) : Option (Option α) :=
  c.entries.lookup key

/-- Records what is known of a key. -/
def store (c : ConfigCache α) (key : String) (value : Option α) : ConfigCache α :=
  ⟨Assoc.put key value c.entries⟩

/-- Records what was read for a key unless something is known already; answers with what is
known afterwards. -/
def storeIfAbsent (c : ConfigCache α) (key : String) (value : Option α) :
    Option α × ConfigCache α :=
  match c.lookup key with
  | some known => (known, c)
  | none => (value, c.store key value)

/-- The number of keys of which something is known. -/
def size (c : ConfigCache α) : Nat :=
  c.entries.length

end ConfigCache

end NodeStore
