import NodeStore.Proofs.Crypto.Fernet

/-!
# Keys with one block

A key enters authentication and key derivation through its block alone, so keys with one block
are not told apart.

* `keyBlock_eq_iff`: keys that fit into a block have one block exactly if they differ at most in
  zeros at the end;
* `keyBlock_hash`: a key that does not fit has the block of its hash;
* `deriveKey_congr`: passwords with one block lead to one key under every salt.
-/

namespace NodeStore

/-- Two byte strings that differ at most in zeros at the end of one of them. -/
def Bytes.EqUpToZeros (a b : Bytes) : Prop :=
  ∃ n, b = a ++ List.replicate n 0 ∨ a = b ++ List.replicate n 0

namespace Hmac

variable {key other : Bytes}

theorem keyBlock_of_fits (h : key.length ≤ 64) :
    keyBlock key = key ++ List.replicate (64 - key.length) 0 := by
  simp only [keyBlock, if_neg (Nat.not_lt.2 h)]

/-- A key that does not fit has the block of its hash, which fits. -/
theorem keyBlock_hash (h : 64 < key.length) : keyBlock (Sha256.hash key) = keyBlock key := by
  have hfits : (Sha256.hash key).length ≤ 64 := by
    rw [Sha256.hash, Sha256.length_finish]
    omega
  rw [keyBlock_of_fits hfits]
  simp only [keyBlock, if_pos h]

/-- Zeros at the end of a key that fits are lost among those of its block. -/
theorem keyBlock_append_zeros {n : Nat} (h : (key ++ List.replicate n 0).length ≤ 64) :
    keyBlock (key ++ List.replicate n 0) = keyBlock key := by
  have hlen : key.length + n ≤ 64 := by simpa using h
  rw [keyBlock_of_fits h, keyBlock_of_fits (by omega), List.append_assoc,
    List.replicate_append_replicate]
  congr 2
  simp only [List.length_append, List.length_replicate]
  omega

/-- Keys that fit have one block exactly if they differ at most in zeros at the end. -/
theorem keyBlock_eq_iff (hkey : key.length ≤ 64) (hother : other.length ≤ 64) :
    keyBlock other = keyBlock key ↔ Bytes.EqUpToZeros key other := by
  constructor
  · intro h
    rw [keyBlock_of_fits hkey, keyBlock_of_fits hother, List.append_eq_append_iff] at h
    -- One key begins with the other, and what it has beyond that is among the zeros.
    rcases h with ⟨rest, hrest, hzeros⟩ | ⟨rest, hrest, hzeros⟩
    · have hrestZeros := (List.append_eq_replicate_iff.1 hzeros.symm).2.1
      exact ⟨rest.length, Or.inr (by rw [hrest, ← hrestZeros])⟩
    · have hrestZeros := (List.append_eq_replicate_iff.1 hzeros.symm).2.1
      exact ⟨rest.length, Or.inl (by rw [hrest, ← hrestZeros])⟩
  · rintro ⟨n, rfl | rfl⟩
    · exact keyBlock_append_zeros hother
    · exact (keyBlock_append_zeros hkey).symm

/-- A password enters a derived key through its block alone. -/
theorem deriveKey_congr (h : keyBlock other = keyBlock key) (salt : Bytes) (iterations : Nat) :
    deriveKey other salt iterations = deriveKey key salt iterations := by
  simp only [deriveKey, h]

end Hmac

end NodeStore
