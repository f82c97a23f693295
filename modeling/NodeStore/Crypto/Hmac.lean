import NodeStore.Crypto.Sha256

/-!
# Message authentication and key derivation

HMAC with SHA-256, and PBKDF2 on top of it. A key enters only through its block: a long key is
hashed, a short one is followed by zeros.
-/

namespace NodeStore.Hmac

/-- A key as a block of 64 bytes. -/
def keyBlock (key : Bytes) : Bytes :=
  let k := if 64 < key.length then Sha256.hash key else key
  k ++ List.replicate (64 - k.length) 0

/-- A key made ready: the states after its inner and its outer block. -/
structure Keyed where
  inner : Sha256.State
  outer : Sha256.State

/-- Makes a block of a key ready. -/
def Keyed.ofBlock (block : Bytes) : Keyed where
  inner := Sha256.absorb 1 (block.map (· ^^^ 0x36)) .initial
  outer := Sha256.absorb 1 (block.map (· ^^^ 0x5c)) .initial

/-- The code of a message under a key that was made ready. -/
def Keyed.mac (k : Keyed) (msg : Bytes) : Bytes :=
  Sha256.finish k.outer 64 (Sha256.finish k.inner 64 msg)

/-- The code of a message under a key. -/
def mac (key msg : Bytes) : Bytes :=
  (Keyed.ofBlock (keyBlock key)).mac msg

/-- Combines the codes of `n` further rounds, each of the code before it. -/
def deriveRounds (k : Keyed) : (n : Nat) → (last acc : Bytes) → Bytes
  | 0, _, acc => acc
  | n + 1, last, acc =>
    let next := k.mac last
    deriveRounds k n next (Bytes.xor acc next)

/-- A key of 32 bytes from a password and a salt: the first block of PBKDF2 with at least one
iteration. -/
def deriveKey (password salt : Bytes) (iterations : Nat) : Bytes :=
  let k := Keyed.ofBlock (keyBlock password)
  let first := k.mac (salt ++ [0, 0, 0, 1])
  deriveRounds k (iterations - 1) first first

end NodeStore.Hmac
