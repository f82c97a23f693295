import NodeStore.Crypto.Aes

/-! # Decryption of blocks and messages

Decryption undoes encryption step by step: the substitution of a byte has its inverse, rows are
moved back, and the two matrices of the columns are inverse to each other. From the steps come the
rounds, from the rounds the chained blocks:

* `unsubstitute_substitute`, `unshiftRows_shiftRows`, `mixColumns_inverse`: the steps;
* `decryptBlock_encryptBlock`: a block under round keys;
* `decrypt?_encrypt`: a message under a key.
-/

namespace NodeStore

namespace Bytes

variable {a k : Bytes}

theorem length_xor : (xor a k).length = min a.length k.length := by
  simp [xor]

/-- A key that is combined twice is gone. -/
theorem xor_xor (h : a.length ≤ k.length) : xor (xor a k) k = a := by
  induction a generalizing k with
  | nil => rfl
  | cons x a ih =>
    cases k with
    | nil => simp at h
    | cons y k =>
      have hrest : xor (xor a k) k = a := ih (by simpa using h)
      have hhead : x ^^^ y ^^^ y = x := by rw [UInt8.xor_assoc, UInt8.xor_self, UInt8.xor_zero]
      show (x ^^^ y ^^^ y) :: xor (xor a k) k = x :: a
      rw [hhead, hrest]

end Bytes

namespace Aes

/-! ## The substitution -/

/-- No number occurs twice, nor is marked by a bit of `m` already. -/
def allNew : List Nat → (m : Nat) → Bool
  | [], _ => true
  | n :: ns, m => !m.testBit n && allNew ns (m ||| 1 <<< n)

theorem allNew_spec {ns : List Nat} {m : Nat} (h : allNew ns m = true) :
    ns.Nodup ∧ ∀ n ∈ ns, m.testBit n = false := by
  induction ns generalizing m with
  | nil => simp
  | cons n ns ih =>
    simp only [allNew, Bool.and_eq_true, Bool.not_eq_true'] at h
    rcases ih h.2 with ⟨hnodup, hmarks⟩
    have hne : ∀ k ∈ ns, n ≠ k ∧ m.testBit k = false := by
      intro k hk
      have hbit := hmarks k hk
      rw [Nat.testBit_or, Bool.or_eq_false_iff, Nat.one_shiftLeft, Nat.testBit_two_pow] at hbit
      exact ⟨by simpa using hbit.2, hbit.1⟩
    constructor
    · exact List.nodup_cons.2 ⟨fun hn => (hne n hn).1 rfl, hnodup⟩
    · intro k hk
      rcases List.mem_cons.1 hk with rfl | hk
      · exact h.1
      · exact (hne k hk).2

section Table

variable {f : Nat → Nat} {g : Nat → UInt8} {n : Nat}

/-- Places that are not written keep their byte. -/
theorem getD_write_of_ne (is : List Nat) (t : Array UInt8) (h : ∀ i ∈ is, f i ≠ n) :
    (is.foldl (fun t i => t.setIfInBounds (f i) (g i)) t).getD n 0 = t.getD n 0 := by
  induction is generalizing t with
  | nil => rfl
  | cons i is ih =>
    rw [List.foldl_cons, ih _ fun j hj => h j (List.mem_cons_of_mem i hj)]
    have hne : f i ≠ n := h i List.mem_cons_self
    simp [Array.getD_eq_getD_getElem?, Array.getElem?_setIfInBounds_ne hne]

/-- Places that are written once have the byte that was written. -/
theorem getD_write (is : List Nat) (t : Array UInt8) (hnodup : (is.map f).Nodup)
    (hsize : ∀ i ∈ is, f i < t.size) {i : Nat} (hi : i ∈ is) :
    (is.foldl (fun t i => t.setIfInBounds (f i) (g i)) t).getD (f i) 0 = g i := by
  induction is generalizing t with
  | nil => simp at hi
  | cons j is ih =>
    rw [List.foldl_cons]
    rcases List.nodup_cons.1 hnodup with ⟨hj, hnodup⟩
    rcases List.mem_cons.1 hi with rfl | hi
    · have hne : ∀ k ∈ is, f k ≠ f i := by
        intro k hk hfk
        exact hj (List.mem_map.2 ⟨k, hk, hfk⟩)
      rw [getD_write_of_ne is _ hne]
      have hlt : f i < t.size := hsize i List.mem_cons_self
      simp [Array.getD_eq_getD_getElem?, hlt]
    · apply ih _ hnodup _ hi
      intro k hk
      rw [Array.size_setIfInBounds]
      exact hsize k (List.mem_cons_of_mem j hk)

end Table

/-- Each byte is the substitution of one byte only. -/
theorem substitute_nodup :
    ((List.range 256).map fun i => (substitute (UInt8.ofNat i)).toNat).Nodup :=
  (allNew_spec (m := 0) (by decide +kernel)).1

theorem unsubstitute_substitute (b : UInt8) : unsubstitute (substitute b) = b := by
  have hb : b.toNat ∈ List.range 256 := List.mem_range.2 b.toNat_lt
  -- The inverse table is written at the substitution of each byte, and no place is written twice.
  have h := getD_write (g := UInt8.ofNat) _ (Array.replicate 256 0) substitute_nodup
    (fun i _ => by rw [Array.size_replicate]; exact UInt8.toNat_lt _) hb
  simp only [UInt8.ofNat_toNat] at h
  exact h

/-! ## The field -/

theorem and_xor_distrib (a b c : UInt8) : (a ^^^ b) &&& c = (a &&& c) ^^^ (b &&& c) := by
  apply UInt8.toBitVec_inj.1
  simp only [UInt8.toBitVec_and, UInt8.toBitVec_xor]
  ext i hi
  simp [Bool.and_xor_distrib_right]

theorem xor_left_comm (a b c : UInt8) : a ^^^ (b ^^^ c) = b ^^^ (a ^^^ c) := by
  rw [← UInt8.xor_assoc, UInt8.xor_comm a b, UInt8.xor_assoc]

theorem highBit_cases (b : UInt8) : b &&& 0x80 = 0 ∨ b &&& 0x80 = 0x80 := by
  have h : ∀ i : Fin 256, UInt8.ofFin i &&& 0x80 = 0 ∨ UInt8.ofFin i &&& 0x80 = 0x80 := by
    decide +kernel
  exact h b.toFin

theorem double_xor (a b : UInt8) : double (a ^^^ b) = double a ^^^ double b := by
  unfold double
  rw [and_xor_distrib, UInt8.shiftLeft_xor]
  -- The reduction is added once for each high bit: two of them cancel.
  rcases highBit_cases a with ha | ha <;> rcases highBit_cases b with hb | hb <;>
    simp [ha, hb, UInt8.xor_comm, xor_left_comm, UInt8.xor_assoc]

theorem times_xor (n : Nat) (a b : UInt8) : times n (a ^^^ b) = times n a ^^^ times n b := by
  simp only [times, double_xor]
  cases n.testBit 0 <;> cases n.testBit 1 <;> cases n.testBit 2 <;> cases n.testBit 3 <;>
    simp <;> ac_rfl

/-! ## Rows and columns -/

theorem unshiftRows_shiftRows (b : Bytes) : unshiftRows (shiftRows b) = b := by
  unfold shiftRows
  split
  · rfl
  · rename_i hne
    unfold unshiftRows
    split
    · exact (hne _ _ _ _ _ _ _ _ _ _ _ _ _ _ _ _ rfl).elim
    · rfl

theorem length_shiftRows (b : Bytes) : (shiftRows b).length = b.length := by
  unfold shiftRows
  split <;> rfl

theorem length_mixColumns (p q r s : Nat) (b : Bytes) :
    (mixColumns p q r s b).length = b.length := by
  fun_induction mixColumns p q r s b with
  | case1 a b c d rest ih => simp [ih]
  | case2 b => rfl

/-- The coefficient of the byte in its own row. -/
theorem unmix_own (a : UInt8) :
    times 14 (times 2 a) ^^^ times 11 (times 1 a) ^^^ times 13 (times 1 a) ^^^
      times 9 (times 3 a) = a := by
  simp [times, Nat.testBit, double_xor, UInt8.xor_comm, xor_left_comm, UInt8.xor_assoc]

/-- The coefficients of a byte in the rows of the three others. -/
theorem unmix_others (a : UInt8) :
    (times 14 (times 3 a) ^^^ times 11 (times 2 a) ^^^ times 13 (times 1 a) ^^^
      times 9 (times 1 a) = 0) ∧
    (times 14 (times 1 a) ^^^ times 11 (times 3 a) ^^^ times 13 (times 2 a) ^^^
      times 9 (times 1 a) = 0) ∧
    (times 14 (times 1 a) ^^^ times 11 (times 1 a) ^^^ times 13 (times 3 a) ^^^
      times 9 (times 2 a) = 0) := by
  refine ⟨?_, ?_, ?_⟩ <;>
    simp [times, Nat.testBit, double_xor, UInt8.xor_comm, xor_left_comm, UInt8.xor_assoc]

/-- The first row of the product of the two matrices. The other rows are the same sum with the
bytes of the column turned. -/
theorem unmix_row (a b c d : UInt8) :
    times 14 (times 2 a ^^^ times 3 b ^^^ times 1 c ^^^ times 1 d) ^^^
      times 11 (times 1 a ^^^ times 2 b ^^^ times 3 c ^^^ times 1 d) ^^^
      times 13 (times 1 a ^^^ times 1 b ^^^ times 2 c ^^^ times 3 d) ^^^
      times 9 (times 3 a ^^^ times 1 b ^^^ times 1 c ^^^ times 2 d) = a := by
  have hsum :
      (times 14 (times 2 a) ^^^ times 11 (times 1 a) ^^^ times 13 (times 1 a) ^^^
        times 9 (times 3 a)) ^^^
      (times 14 (times 3 b) ^^^ times 11 (times 2 b) ^^^ times 13 (times 1 b) ^^^
        times 9 (times 1 b)) ^^^
      (times 14 (times 1 c) ^^^ times 11 (times 3 c) ^^^ times 13 (times 2 c) ^^^
        times 9 (times 1 c)) ^^^
      (times 14 (times 1 d) ^^^ times 11 (times 1 d) ^^^ times 13 (times 3 d) ^^^
        times 9 (times 2 d)) = a := by
    rw [unmix_own, (unmix_others b).1, (unmix_others c).2.1, (unmix_others d).2.2]
    simp
  refine Eq.trans ?_ hsum
  simp only [times_xor]
  ac_rfl

theorem mixColumns_inverse (b : Bytes) : mixColumns 14 11 13 9 (mixColumns 2 3 1 1 b) = b := by
  fun_induction mixColumns 2 3 1 1 b with
  | case1 a b c d rest ih =>
    rw [mixColumns, ih]
    have hb := unmix_row b c d a
    have hc := unmix_row c d a b
    have hd := unmix_row d a b c
    rw [unmix_row a b c d]
    simp only [List.cons.injEq, true_and, and_true]
    refine ⟨Eq.trans ?_ hb, Eq.trans ?_ hc, Eq.trans ?_ hd⟩
    · simp only [times_xor]
      ac_rfl
    · simp only [times_xor]
      ac_rfl
    · simp only [times_xor]
      ac_rfl
  | case2 b hne =>
    unfold mixColumns
    split
    · exact (hne _ _ _ _ _ rfl).elim
    · rfl

/-! ## Blocks -/

/-- The keys are as long as a block. -/
def AllBlocks (keys : List Bytes) : Prop :=
  ∀ k ∈ keys, k.length = 16

/-- The substitution and the moving of rows undone together. -/
theorem unshift_substitute (b : Bytes) :
    (unshiftRows (shiftRows (b.map substitute))).map unsubstitute = b := by
  rw [unshiftRows_shiftRows, List.map_map]
  have hid : unsubstitute ∘ substitute = id := by
    funext x
    rw [Function.comp_apply, unsubstitute_substitute]
    rfl
  rw [hid, List.map_id]

theorem length_encryptRounds {keys : List Bytes} (hkeys : AllBlocks keys) {b : Bytes}
    (hb : b.length = 16) : (encryptRounds keys b).length = 16 := by
  fun_induction encryptRounds keys b with
  | case1 b => exact hb
  | case2 k b => simp [Bytes.length_xor, length_shiftRows, hb, hkeys k]
  | case3 k ks hks b ih =>
    have hrest : AllBlocks ks := fun k' hk' => hkeys k' (List.mem_cons_of_mem k hk')
    apply ih hrest
    simp [Bytes.length_xor, length_mixColumns, length_shiftRows, hb, hkeys k]

/-- The rounds with keys `init` and a last one, undone as far as the key before the first. -/
theorem decryptRounds_encryptRounds {init rest : List Bytes} {last b : Bytes}
    (hkeys : AllBlocks init) (hlast : last.length = 16) (hrest : rest ≠ []) (hb : b.length = 16) :
    decryptRounds (init.reverse ++ rest) (Bytes.xor (encryptRounds (init ++ [last]) b) last) =
      decryptRounds rest (shiftRows (b.map substitute)) := by
  induction init generalizing rest b with
  | nil =>
    rw [List.nil_append, encryptRounds, Bytes.xor_xor (by simp [length_shiftRows, hb, hlast])]
    rfl
  | cons k init ih =>
    -- The round of `k` is the first to be made and the last to be undone: the induction takes back
    -- the rounds after it, with `k` moved in front of `rest`.
    have hk : k.length = 16 := hkeys k List.mem_cons_self
    have hinit : AllBlocks init := fun k' hk' => hkeys k' (List.mem_cons_of_mem k hk')
    have hround : encryptRounds (k :: init ++ [last]) b = encryptRounds (init ++ [last])
        (Bytes.xor (mixColumns 2 3 1 1 (shiftRows (b.map substitute))) k) := by
      cases init with
      | nil => rfl
      | cons => rfl
    rw [hround, List.reverse_cons, List.append_assoc, List.singleton_append,
      ih hinit (List.cons_ne_nil k rest)
        (by simp [Bytes.length_xor, length_mixColumns, length_shiftRows, hb, hk])]
    rcases List.exists_cons_of_ne_nil hrest with ⟨k', rest', rfl⟩
    rw [decryptRounds, unshift_substitute,
      Bytes.xor_xor (by simp [length_mixColumns, length_shiftRows, hb, hk]), mixColumns_inverse]
    exact List.cons_ne_nil k' rest'

theorem decryptBlock_encryptBlock {keys : List Bytes} (hkeys : AllBlocks keys) {b : Bytes}
    (hb : b.length = 16) (hlen : 2 ≤ keys.length) :
    decryptBlock keys.reverse (encryptBlock keys b) = b := by
  match keys, hkeys, hlen with
  | k :: k' :: ks, hkeys, _ =>
    have hk : k.length = 16 := hkeys k List.mem_cons_self
    -- The last round has no columns to mix, so its key is told apart from the ones before it.
    obtain ⟨init, last, heq⟩ : ∃ init last, k' :: ks = init ++ [last] :=
      ⟨_, _, (List.dropLast_concat_getLast (List.cons_ne_nil k' ks)).symm⟩
    have hmem : ∀ x ∈ init ++ [last], x.length = 16 := by
      intro x hx
      rw [← heq] at hx
      exact hkeys x (List.mem_cons_of_mem k hx)
    have hrounds : decryptRounds (init.reverse ++ [k])
        (Bytes.xor (encryptRounds (init ++ [last]) (Bytes.xor b k)) last) =
        decryptRounds [k] (shiftRows ((Bytes.xor b k).map substitute)) := by
      have hinit : AllBlocks init := fun x hx => hmem x (List.mem_append_left _ hx)
      have hlast : last.length = 16 := hmem last (by simp)
      have hx : (Bytes.xor b k).length = 16 := by simp [Bytes.length_xor, hb, hk]
      exact decryptRounds_encryptRounds hinit hlast (List.cons_ne_nil k []) hx
    rw [heq, List.reverse_cons, List.reverse_append, List.reverse_singleton]
    show decryptRounds (init.reverse ++ [k])
      (Bytes.xor (encryptRounds (init ++ [last]) (Bytes.xor b k)) last) = b
    rw [hrounds, decryptRounds, unshift_substitute, Bytes.xor_xor (by omega)]

theorem length_encryptBlock {keys : List Bytes} (hkeys : AllBlocks keys) {b : Bytes}
    (hb : b.length = 16) : (encryptBlock keys b).length = 16 := by
  cases keys with
  | nil => exact hb
  | cons k ks =>
    have hks : AllBlocks ks := fun k' hk' => hkeys k' (List.mem_cons_of_mem k hk')
    apply length_encryptRounds hks
    simp [Bytes.length_xor, hb, hkeys k]

/-! ## Round keys -/

theorem length_furtherKey {key : Bytes} (constant : UInt8) (hkey : key.length = 16) :
    let w0 := firstWord constant (key.take 4) (key.drop 12)
    let w1 := Bytes.xor ((key.drop 4).take 4) w0
    let w2 := Bytes.xor ((key.drop 8).take 4) w1
    let w3 := Bytes.xor (key.drop 12) w2
    (w0 ++ w1 ++ w2 ++ w3).length = 16 := by
  simp [firstWord, Bytes.length_xor, hkey]

theorem allBlocks_furtherKeys (n : Nat) (constant : UInt8) {key : Bytes} (hkey : key.length = 16) :
    AllBlocks (furtherKeys n constant key) := by
  induction n generalizing constant key with
  | zero => simp [furtherKeys, AllBlocks]
  | succ n ih =>
    have hnext := length_furtherKey constant hkey
    intro k hk
    rcases List.mem_cons.1 hk with rfl | hk
    · exact hnext
    · exact ih _ hnext k hk

theorem allBlocks_roundKeys {key : Bytes} (hkey : key.length = 16) : AllBlocks (roundKeys key) := by
  intro k hk
  rcases List.mem_cons.1 hk with rfl | hk
  · exact hkey
  · exact allBlocks_furtherKeys 10 1 hkey k hk

/-! ## Messages -/

theorem length_chainEncrypt {keys : List Bytes} (hkeys : AllBlocks keys) {n : Nat}
    {previous b : Bytes} (hprevious : previous.length = 16) (hb : b.length = 16 * n) :
    (chainEncrypt keys n previous b).length = 16 * n := by
  induction n generalizing previous b with
  | zero => rfl
  | succ n ih =>
    have hc : (encryptBlock keys (Bytes.xor (b.take 16) previous)).length = 16 :=
      length_encryptBlock hkeys (by simp [Bytes.length_xor, hprevious]; omega)
    rw [chainEncrypt, List.length_append, ih hc (by rw [List.length_drop]; omega), hc]
    omega

theorem chainDecrypt_chainEncrypt {keys : List Bytes} (hkeys : AllBlocks keys)
    (hlen : 2 ≤ keys.length) {n : Nat} {previous b : Bytes} (hprevious : previous.length = 16)
    (hb : b.length = 16 * n) :
    chainDecrypt keys.reverse n previous (chainEncrypt keys n previous b) = b := by
  induction n generalizing previous b with
  | zero => exact (List.eq_nil_of_length_eq_zero hb).symm
  | succ n ih =>
    have hx : (Bytes.xor (b.take 16) previous).length = 16 := by
      simp [Bytes.length_xor, hprevious]
      omega
    have hc := length_encryptBlock hkeys hx
    rw [chainEncrypt, chainDecrypt, List.take_left' hc, List.drop_left' hc,
      ih hc (by rw [List.length_drop]; omega), decryptBlock_encryptBlock hkeys hx hlen,
      Bytes.xor_xor (by rw [List.length_take, hprevious]; omega), List.take_append_drop]

theorem length_pad (b : Bytes) : (pad b).length = 16 * (b.length / 16 + 1) := by
  simp only [pad, List.length_append, List.length_replicate]
  omega

theorem unpad?_pad (b : Bytes) : unpad? (pad b) = some b := by
  have hn : 1 ≤ 16 - b.length % 16 ∧ 16 - b.length % 16 ≤ 16 := by omega
  simp only [pad]
  -- Of the number of added bytes only its bounds matter from here on.
  generalize 16 - b.length % 16 = n at hn
  have hlast : (b ++ List.replicate n (UInt8.ofNat n)).getLast? = some (UInt8.ofNat n) := by
    rw [List.getLast?_append, List.getLast?_replicate, if_neg (by omega)]
    rfl
  have htoNat : (UInt8.ofNat n).toNat = n :=
    UInt8.toNat_ofNat_of_lt' (Nat.lt_of_le_of_lt hn.2 (by decide))
  have hlen : (b ++ List.replicate n (UInt8.ofNat n)).length - n = b.length := by simp
  unfold unpad?
  rw [hlast]
  simp only [htoNat, hlen, List.drop_left, List.take_left]
  rw [if_pos ⟨hn.1, hn.2, trivial, by simp⟩]

theorem encrypt_eq (key vector msg : Bytes) :
    encrypt key vector msg =
      chainEncrypt (roundKeys key) (msg.length / 16 + 1) vector (pad msg) := by
  have hblocks : (pad msg).length / 16 = msg.length / 16 + 1 := by
    rw [length_pad, Nat.mul_div_cancel_left _ (by omega)]
  rw [encrypt, hblocks]

theorem length_encrypt {key vector : Bytes} (hkey : key.length = 16) (hvector : vector.length = 16)
    (msg : Bytes) : (encrypt key vector msg).length = 16 * (msg.length / 16 + 1) := by
  rw [encrypt_eq]
  exact length_chainEncrypt (allBlocks_roundKeys hkey) hvector (length_pad msg)

/-- A message that was encrypted is decrypted under the same key and vector. -/
theorem decrypt?_encrypt {key vector : Bytes} (hkey : key.length = 16)
    (hvector : vector.length = 16) (msg : Bytes) :
    decrypt? key vector (encrypt key vector msg) = some msg := by
  have hkeys := allBlocks_roundKeys hkey
  unfold decrypt?
  rw [length_encrypt hkey hvector, if_pos (Nat.mul_mod_right ..),
    Nat.mul_div_cancel_left _ (by omega), encrypt_eq,
    chainDecrypt_chainEncrypt hkeys (by simp [roundKeys, furtherKeys]) hvector (length_pad msg),
    unpad?_pad]

end Aes

end NodeStore
