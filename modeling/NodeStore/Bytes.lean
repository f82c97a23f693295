/-!
# Byte strings

A byte string is a list of bytes, so that the list library reasons about it. Numbers are
written big-endian: `Bytes.ofNat w n` has `w` bytes and drops what does not fit, and
`Bytes.toNat` reads them back.
-/

namespace NodeStore

/-- A byte string. -/
abbrev Bytes := List UInt8

namespace Bytes

/-- The number whose big-endian digits in base 256 are the bytes. -/
def toNat (b : Bytes) : Nat :=
  b.foldl (fun n x => n * 256 + x.toNat) 0

/-- The low `width` bytes of a number, big-endian. -/
def ofNat : (width : Nat) → Nat → Bytes
  | 0, _ => []
  | width + 1, n => ofNat width (n / 256) ++ [UInt8.ofNat n]

theorem length_ofNat (width n : Nat) : (ofNat width n).length = width := by
  induction width generalizing n with
  | zero => rfl
  | succ width ih => simp [ofNat, ih]

/-- Bytes combined position by position, as long as the shorter of the two. -/
def xor (a b : Bytes) : Bytes :=
  List.zipWith (· ^^^ ·) a b

end Bytes

end NodeStore
