import Mathlib.Tactic.Ring
import NodeStore.Proofs.Crypto.Fernet
import NodeStore.Proofs.Bytes
import NodeStore.SeedPhrase.Basic

/-!
# Entropy in words and back

Entropy of `4 * k` bytes and its checksum of `k` bits are one number, and its `3 * k` digits in
base 2048 are the numbers of the words. The number and its digits determine each other, and so do
the number and the pair of entropy and checksum.

* `entropyOf_wordNumbers`: entropy and checksum are read back from the numbers of the words;
* `wordNumbers_entropyOf`: numbers with the right checksum are those of the entropy in them.
-/

namespace NodeStore.SeedPhrase

variable {numbers : List Nat} {entropy : Bytes} {k : Nat}

/-! ## Digits -/

/-- The number with the given digits in base 2048. -/
def ofDigits (digits : List Nat) : Nat :=
  digits.foldl (fun n i => n * 2048 + i) 0

theorem ofDigits_concat (digits : List Nat) (d : Nat) :
    ofDigits (digits ++ [d]) = ofDigits digits * 2048 + d := by
  unfold ofDigits
  rw [List.foldl_append]
  rfl

@[simp] theorem length_digits2048 (n x : Nat) : (digits2048 n x).length = n := by
  induction n generalizing x with
  | zero => rfl
  | succ n ih => simp [digits2048, ih]

theorem lt_of_mem_digits2048 {n x d : Nat} (hd : d ∈ digits2048 n x) : d < 2048 := by
  induction n generalizing x with
  | zero => simp [digits2048] at hd
  | succ n ih =>
    rcases List.mem_append.1 hd with hd | hd
    · exact ih hd
    · rw [List.mem_singleton.1 hd]
      exact Nat.mod_lt _ (by omega)

theorem ofDigits_digits2048 {n x : Nat} (hx : x < 2048 ^ n) : ofDigits (digits2048 n x) = x := by
  induction n generalizing x with
  | zero =>
    have hzero : x = 0 := by omega
    rw [hzero]
    rfl
  | succ n ih =>
    have hhigh : x / 2048 < 2048 ^ n := by
      rw [Nat.pow_succ] at hx
      omega
    rw [digits2048, ofDigits_concat, ih hhigh]
    omega

theorem digits2048_ofDigits {digits : List Nat} (h : ∀ d ∈ digits, d < 2048) :
    digits2048 digits.length (ofDigits digits) = digits := by
  induction digits using List.reverseRecOn with
  | nil => rfl
  | append_singleton digits d ih =>
    have hd : d < 2048 := h d (by simp)
    have hdigits := ih fun e he => h e (List.mem_append_left [d] he)
    have hhigh : (ofDigits digits * 2048 + d) / 2048 = ofDigits digits := by omega
    have hlow : (ofDigits digits * 2048 + d) % 2048 = d := by omega
    rw [List.length_append, List.length_singleton, digits2048, ofDigits_concat, hhigh, hlow,
      hdigits]

theorem ofDigits_lt {digits : List Nat} (h : ∀ d ∈ digits, d < 2048) :
    ofDigits digits < 2048 ^ digits.length := by
  induction digits using List.reverseRecOn with
  | nil => exact Nat.one_pos
  | append_singleton digits d ih =>
    have hd : d < 2048 := h d (by simp)
    have hdigits := ih fun e he => h e (List.mem_append_left [d] he)
    rw [ofDigits_concat, List.length_append, List.length_singleton, Nat.pow_succ]
    omega

/-! ## Entropy and checksum -/

/-- A size of entropy is four bytes for each bit of the checksum, of which there are four to
eight. -/
theorem exists_checkSize {n : Nat} (h : n ∈ entropySizes) : ∃ k, n = 4 * k ∧ 4 ≤ k ∧ k ≤ 8 := by
  have hsizes : entropySizes = [16, 20, 24, 28, 32] := rfl
  rw [hsizes] at h
  simp only [List.mem_cons, List.not_mem_nil, or_false] at h
  exact ⟨n / 4, by omega, by omega, by omega⟩

theorem mem_entropySizes (h4 : 4 ≤ k) (h8 : k ≤ 8) : 4 * k ∈ entropySizes := by
  have hsizes : entropySizes = [16, 20, 24, 28, 32] := rfl
  rw [hsizes]
  simp only [List.mem_cons, List.not_mem_nil, or_false]
  omega

theorem wordCount_bits (k : Nat) : wordCount (8 * (4 * k)) = 3 * k := by
  unfold wordCount
  omega

/-- Three words have the bits of four bytes and one bit of the checksum. -/
theorem pow_words (k : Nat) : 2048 ^ (3 * k) = 256 ^ (4 * k) * 2 ^ k := by
  rw [show 2048 = 2 ^ 11 from rfl, show 256 = 2 ^ 8 from rfl, ← Nat.pow_mul, ← Nat.pow_mul,
    ← Nat.pow_add]
  congr 1
  ring

/-- The checksum has one bit for each four bytes. -/
theorem checksum_lt (hlen : entropy.length = 4 * k) (hk : k ≤ 8) : checksum entropy < 2 ^ k := by
  have hbyte : ((Sha256.hash entropy).headD 0).toNat < 2 ^ k * 2 ^ (8 - k) := by
    rw [← Nat.pow_add, Nat.add_sub_cancel' hk]
    exact UInt8.toNat_lt _
  have hquarter : entropy.length / 4 = k := by omega
  rw [checksum, hquarter]
  exact Nat.div_lt_of_lt_mul (by rwa [Nat.mul_comm] at hbyte)

theorem wordNumbers_eq (hlen : entropy.length = 4 * k) :
    wordNumbers entropy =
      digits2048 (3 * k) (entropy.toNat * 2 ^ k + checksum entropy) := by
  have hquarter : entropy.length / 4 = k := by omega
  rw [wordNumbers, hquarter, hlen, wordCount_bits, Nat.pow_eq]

theorem entropyOf_eq (hlen : numbers.length = 3 * k) :
    entropyOf numbers =
      (Bytes.ofNat (4 * k) (ofDigits numbers / 2 ^ k), ofDigits numbers % 2 ^ k) := by
  have hthird : numbers.length / 3 = k := by omega
  simp only [entropyOf, hthird, ofDigits, Nat.pow_eq, Nat.mul_comm k 4]

/-- The number of entropy and checksum has no more digits than there are words. -/
theorem number_lt (hlen : entropy.length = 4 * k) (hk : k ≤ 8) :
    entropy.toNat * 2 ^ k + checksum entropy < 2048 ^ (3 * k) := by
  have hentropy : entropy.toNat < 256 ^ (4 * k) := hlen ▸ Bytes.toNat_lt entropy
  have hcheck := checksum_lt hlen hk
  rw [pow_words]
  calc entropy.toNat * 2 ^ k + checksum entropy
      < entropy.toNat * 2 ^ k + 2 ^ k := Nat.add_lt_add_left hcheck _
    _ = (entropy.toNat + 1) * 2 ^ k := (Nat.succ_mul _ _).symm
    _ ≤ 256 ^ (4 * k) * 2 ^ k := Nat.mul_le_mul_right _ hentropy

theorem length_wordNumbers (hlen : entropy.length = 4 * k) :
    (wordNumbers entropy).length = 3 * k := by
  rw [wordNumbers_eq hlen, length_digits2048]

theorem lt_of_mem_wordNumbers {n : Nat} (hn : n ∈ wordNumbers entropy) : n < 2048 :=
  lt_of_mem_digits2048 hn

/-- Entropy and checksum are read back from the numbers of the words. -/
theorem entropyOf_wordNumbers (h : entropy.length ∈ entropySizes) :
    entropyOf (wordNumbers entropy) = (entropy, checksum entropy) := by
  rcases exists_checkSize h with ⟨k, hlen, -, hk⟩
  have hcheck := checksum_lt hlen hk
  have hhigh : (entropy.toNat * 2 ^ k + checksum entropy) / 2 ^ k = entropy.toNat := by
    rw [Nat.mul_comm, Nat.mul_add_div (Nat.two_pow_pos k), Nat.div_eq_of_lt hcheck, Nat.add_zero]
  have hlow : (entropy.toNat * 2 ^ k + checksum entropy) % 2 ^ k = checksum entropy := by
    rw [Nat.mul_add_mod', Nat.mod_eq_of_lt hcheck]
  rw [entropyOf_eq (length_wordNumbers hlen), wordNumbers_eq hlen,
    ofDigits_digits2048 (number_lt hlen hk), hhigh, hlow, ← hlen, Bytes.ofNat_toNat]

/-- Numbers of words with the right checksum are those of the entropy in them. -/
theorem wordNumbers_entropyOf (hlen : numbers.length = 3 * k) (hlt : ∀ n ∈ numbers, n < 2048)
    (hcheck : checksum (entropyOf numbers).1 = (entropyOf numbers).2) :
    wordNumbers (entropyOf numbers).1 = numbers := by
  have hentropyOf := entropyOf_eq hlen
  have hnumber := ofDigits_lt hlt
  rw [hlen, pow_words] at hnumber
  have hhigh : ofDigits numbers / 2 ^ k < 256 ^ (4 * k) :=
    Nat.div_lt_of_lt_mul (by rwa [Nat.mul_comm] at hnumber)
  have hbytes : (entropyOf numbers).1.length = 4 * k := by
    rw [hentropyOf, Bytes.length_ofNat]
  rw [wordNumbers_eq hbytes, hcheck, hentropyOf, Bytes.toNat_ofNat hhigh, Nat.div_add_mod',
    ← hlen, digits2048_ofDigits hlt]

end NodeStore.SeedPhrase
